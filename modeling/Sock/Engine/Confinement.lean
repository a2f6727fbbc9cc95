/-
  Which entries of the cache a run changes.

  * `OwnEntry`: the entry of a requirement of the plan; `InvalidatedEntry`: an entry under another
    storage key whose document has the namespace, the domain and the class of a requirement.
  * `NodeRun.get?_eq`: a node changes no other entry; `NodesRun.get?_eq`: nor does a row of nodes.
  * `invalidation_confined`: nor does the run of a resolved plan.
-/
import Sock.Engine.Reuse

namespace Sock.Engine

open Lib Sock.Core Fallible

namespace Executor

variable {E : Executor} {outcome : PlanningOutcome}

/-- The entry is where an artifact of the plan is stored. -/
def OwnEntry (E : Executor) (outcome : PlanningOutcome) (key : CacheKey) : Prop :=
  ∃ q ∈ outcome.plan.artifactRequirements, key = cacheKey outcome E.canon q

/-- The entry holds a document with the namespace, the domain and the class of a requirement of the
    plan, under another storage key. -/
def InvalidatedEntry (E : Executor) (outcome : PlanningOutcome) (cache : Cache) (key : CacheKey) :
    Prop :=
  ∃ bytes existing, cache.get? key = some bytes ∧ E.read? bytes = some existing ∧
    ∃ q ∈ outcome.plan.artifactRequirements,
      existing.cacheNamespace = cacheNamespaceForScope outcome q.scope ∧
      existing.invalidationDomain = invalidationDomainForScope outcome q.scope ∧
      existing.artifactClass = q.artifactClass ∧
      key.2 ≠ (artifactStorageKey outcome E.canon q).asStr

section Frame

variable {node : MaterializationNode} {nodes : List MaterializationNode} {cache cache' : Cache}
  {result : NodeExecutionResult} {results : List NodeExecutionResult} {key : CacheKey}

theorem mem_requirements_of_artifactOf {q : ArtifactRequirement} {identity : String}
    (h : E.artifactOf outcome node = some (q, identity)) :
    q ∈ outcome.plan.artifactRequirements := by
  obtain ⟨-, hq, -⟩ := artifactOf_eq_some.mp h
  obtain ⟨q', hq', heq⟩ := List.mem_map.mp (Dict.mem_of_get?_ofEntries hq)
  exact (Prod.mk.inj heq).2 ▸ hq'

/-- One node: only the entry of its requirement and the siblings that this one invalidates. -/
theorem NodeRun.get?_eq (h : E.NodeRun outcome node cache result cache')
    (hown : ¬ E.OwnEntry outcome key) (hvalid : ¬ E.InvalidatedEntry outcome cache key) :
    cache'.get? key = cache.get? key := by
  cases hartifact : E.artifactOf outcome node with
  | none => rw [(h.of_none hartifact).2]
  | some artifact =>
      obtain ⟨q, identity⟩ := artifact
      have hq := mem_requirements_of_artifactOf hartifact
      obtain ⟨r, observedMs, -, -, -, hrealized⟩ := h.of_some hartifact
      have hkey : key ≠ (E.artifactDocument outcome q identity).cacheKey :=
        fun heq => hown ⟨q, hq, heq⟩
      refine (get?_realized hrealized hkey).trans (get?_evicted_of_not_evicts ?_)
      rintro bytes existing hget hread ⟨hdir, hinvalid⟩
      obtain ⟨hnamespace, hdomain, hclass⟩ := of_decide_eq_true hinvalid
      have hother : key.2 ≠ (artifactStorageKey outcome E.canon q).asStr :=
        fun heq => hkey (Prod.ext hdir heq)
      exact hvalid ⟨bytes, existing, hget, hread, q, hq, hnamespace, hdomain, hclass, hother⟩

/-- Nodes in a row: an entry that is left alone keeps its content, so it is left alone by the next
    node too. -/
theorem NodesRun.get?_eq (h : E.NodesRun outcome nodes cache results cache')
    (hown : ¬ E.OwnEntry outcome key) (hvalid : ¬ E.InvalidatedEntry outcome cache key) :
    cache'.get? key = cache.get? key := by
  induction h with
  | nil => rfl
  | cons hnode _ ih =>
      have hstep := hnode.get?_eq hown hvalid
      rw [← hstep]
      apply ih
      unfold InvalidatedEntry at hvalid ⊢
      rw [hstep]
      exact hvalid

end Frame

end Executor

open Executor

variable {E : Executor} {host : PlannerHostSnapshot} {raw : RawRequest}
  {scope buildScope : BuildScope}
  {outcome : PlanningOutcome} {world world' : World} {report : MaterializationExecutionReport}

/-- **Invalidation is confined.** A run of a resolved plan leaves every entry of the cache as it is,
    but those where the plan's artifacts are stored and those of the namespace, domain and class of
    a requirement under another storage key. -/
theorem invalidation_confined (h : resolveScoped E.canon E.vllm host raw scope = .ok outcome)
    (hrun : (E.execute outcome buildScope).run world = .ok report world') (key : CacheKey)
    (hown : ¬ E.OwnEntry outcome key) (hvalid : ¬ E.InvalidatedEntry outcome world.cache key) :
    world'.cache.get? key = world.cache.get? key := by
  obtain ⟨r, rfl⟩ := Resolution.exists_of_ok h
  obtain ⟨run⟩ := r.exists_runReport hrun
  exact run.nodesRun.get?_eq hown hvalid

/-- A document of another namespace with the same directory, under a key that is no digest. -/
noncomputable def strangerDocument : MaterializedArtifactDocument :=
  { (amdPlan ⟨1, 1, 1⟩).document (amdArtifact prefillAttention) with
    cacheNamespace := "compile_cache"
    storageKey := " " }

/-- A cache with its entry. -/
noncomputable def strangerWorld : World :=
  { freshWorld with
    cache := Dict.empty.set strangerDocument.cacheKey
      (.text (Canon.ideal.canonicalJson strangerDocument)) }

theorem readable_strangerWorld : amdExecutor.Readable strangerWorld.cache := by
  intro key bytes hget
  rw [strangerWorld, Dict.get?_set] at hget
  split at hget
  · cases hget
    exact (read?_canonicalJson (lossless_roundTrip _ _) _) ▸ rfl
  · cases hget

/-- The requirements of the sample are in the namespace of the compile cache. -/
theorem cacheNamespaceForScope_amd {q : ArtifactRequirement}
    (h : q ∈ (amdPlan ⟨1, 1, 1⟩).outcome.plan.artifactRequirements) :
    cacheNamespaceForScope (amdPlan ⟨1, 1, 1⟩).outcome q.scope = "compile-cache" := by
  obtain ⟨region, hregion, hname, -⟩ := (amdPlan ⟨1, 1, 1⟩).exists_region h
  have hregions : (amdPlan ⟨1, 1, 1⟩).regions = amdRegions .ideal :=
    regions_amd .ideal (.standard ⟨1, 1, 1⟩)
  refine ((amdPlan ⟨1, 1, 1⟩).cacheNamespace_document hregion hname).trans ?_
  rw [hregions, amdRegions, List.map_cons, List.map_cons, List.map_nil, List.mem_pair] at hregion
  rcases hregion with rfl | rfl <;> rfl

theorem isBlank_artifactStorageKey {C : Canon} (hblank : C.NonBlank) (outcome : PlanningOutcome)
    (q : ArtifactRequirement) : isBlank (artifactStorageKey outcome C q).asStr = false := by
  unfold artifactStorageKey
  split
  · exact hblank _
  · split <;> exact hblank _

/-- The sample lists the directory of the entry, which is still there after its run. -/
theorem invalidation_confined_amd :
    (∀ q ∈ (amdPlan ⟨1, 1, 1⟩).outcome.plan.artifactRequirements, strangerDocument.cacheKey.1 =
      (cacheKey (amdPlan ⟨1, 1, 1⟩).outcome amdExecutor.canon q).1) ∧ ∃ report world',
    (amdExecutor.execute (amdPlan ⟨1, 1, 1⟩).outcome bodyScope).run strangerWorld =
      .ok report world' ∧
    world'.cache.get? strangerDocument.cacheKey =
      some (.text (Canon.ideal.canonicalJson strangerDocument)) := by
  have hround : amdExecutor.RoundTrip := lossless_roundTrip _ _
  obtain ⟨report, world', hrun⟩ :=
    (amdPlan ⟨1, 1, 1⟩).execute_returns hround bodyScope readable_strangerWorld
  have hget : strangerWorld.cache.get? strangerDocument.cacheKey =
      some (.text (Canon.ideal.canonicalJson strangerDocument)) := Dict.get?_set_self ..
  refine ⟨fun q hq => ?_, report, world', hrun, ?_⟩
  · show slug "compile_cache" = slug _
    rw [cacheNamespaceForScope_amd hq]
    decide
  rw [invalidation_confined (amdPlan ⟨1, 1, 1⟩).resolveScoped_eq hrun strangerDocument.cacheKey
    ?own ?valid, hget]
  case own =>
    rintro ⟨q, hq, heq⟩
    have hkey : " " = (artifactStorageKey (amdPlan ⟨1, 1, 1⟩).outcome .ideal q).asStr :=
      congrArg Prod.snd heq
    have hblank := isBlank_artifactStorageKey Canon.ideal_nonBlank (amdPlan ⟨1, 1, 1⟩).outcome q
    rw [← hkey] at hblank
    exact absurd hblank (by decide)
  case valid =>
    rintro ⟨bytes, existing, hbytes, hread, q, hq, hnamespace, -⟩
    rw [hget] at hbytes
    cases hbytes
    have hexisting := (read?_canonicalJson hround strangerDocument).symm.trans hread
    cases hexisting
    have hother : "compile_cache" =
      cacheNamespaceForScope (amdPlan ⟨1, 1, 1⟩).outcome q.scope := hnamespace
    rw [cacheNamespaceForScope_amd hq] at hother
    exact absurd hother (by decide)

end Sock.Engine
