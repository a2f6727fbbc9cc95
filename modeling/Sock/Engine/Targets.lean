/-
  Reuse of an artifact by another request.

  * `BuildRun`: a request that is planned and executed; `Reuses`: it reuses an entry that another
    one has written.
  * `entryInputs`: what an entry is found by. Model, KV layout and engine source are not in it.
  * `reuse_agrees_iff`: what is reused has these inputs in common with what was written, and what
    has them in common is reused. So the requests need not agree (`reuse_disagrees`).
-/
import Sock.Engine.Reuse

namespace Sock.Engine

open Lib Sock.Core Fallible Executor

/-- What names the entry of a requirement: the inputs of the storage key. Where these are the
    requirement itself, the entry is also compared by the identity in the manifest. -/
def entryInputs (outcome : PlanningOutcome) (q : ArtifactRequirement) :
    List Value ⊕ ArtifactRequirement × Option String :=
  match compileRegionForScope outcome q.scope with
  | none => .inr (q, manifestIdentity? outcome q)
  | some region =>
      if region.cacheSharing ≠ .contentAddressed then .inr (q, manifestIdentity? outcome q)
      else .inl (contentAddress region q)

theorem artifactStorageKey_eq (outcome : PlanningOutcome) (C : Canon) (q : ArtifactRequirement) :
    artifactStorageKey outcome C q = (entryInputs outcome q).elim
      (fun items => C.canonicalHash (Value.array items))
      (fun inputs => C.canonicalHash inputs.1) := by
  unfold artifactStorageKey entryInputs
  cases compileRegionForScope outcome q.scope with
  | none => rfl
  | some region =>
      dsimp only
      split <;> rfl

/-- A request that was planned on a host and executed. -/
structure BuildRun (E : Executor) where
  host : PlannerHostSnapshot
  raw : RawRequest
  scope : BuildScope
  outcome : PlanningOutcome
  world : World
  report : MaterializationExecutionReport
  world' : World
  resolved : resolveScoped E.canon E.vllm host raw scope = .ok outcome
  executed : (E.execute outcome scope).run world = .ok report world'

namespace BuildRun

variable {E : Executor}

/-- The normalized request of a run. -/
def normalized (run : BuildRun E) : NormalizedRequest := run.raw.normalize E.canon

/-- The second run follows the first one on its cache and reuses an entry that it has written. -/
def Reuses (first second : BuildRun E) : Prop :=
  second.world.cache = first.world'.cache ∧
    ∃ written ∈ first.report.artifacts, ∃ reused ∈ second.report.artifacts,
      written.disposition = .executed ∧ reused.disposition = .reused ∧
      slug written.cacheNamespace = slug reused.cacheNamespace ∧
      written.storageKey = reused.storageKey

/-- The requests are for one model, KV layout and engine source. -/
def Agrees (first second : BuildRun E) : Prop :=
  first.normalized.model = second.normalized.model ∧
    first.normalized.kvLayoutPolicy = second.normalized.kvLayoutPolicy ∧
    first.normalized.engineSource = second.normalized.engineSource

/-- Some requirement of the first plan and some of the second have one entry. -/
def SharesEntry (first second : BuildRun E) : Prop :=
  ∃ q ∈ first.outcome.plan.artifactRequirements, ∃ q' ∈ second.outcome.plan.artifactRequirements,
    entryInputs first.outcome q = entryInputs second.outcome q'

end BuildRun

/-! ## One entry for two requirements -/

namespace Resolution

variable {E : Executor} {host host' : PlannerHostSnapshot} {raw raw' : RawRequest}
  {scope scope' : BuildScope} (r : Resolution E.canon E.vllm host raw scope)
  (r' : Resolution E.canon E.vllm host' raw' scope')

/-- The anchors of a scope are those of its region. -/
theorem sourceAnchorsForScope_eq {name : String} {region : CompileRegion}
    (h : compileRegionForScope r.outcome name = some region) :
    sourceAnchorsForScope r.outcome name = dedup (sort region.evidence.anchors) := by
  rw [compileRegionForScope] at h
  have hname : region.name = name := by simpa using List.find?_some h
  have hfilter : r.regions.filter (·.name = name) = [region] := by
    refine List.perm_singleton.mp ((List.perm_ext_iff_of_nodup
      ((List.Nodup.of_map _ r.nodup_regionNames).filter _) (List.nodup_singleton _)).mpr
      fun x => ?_)
    rw [List.mem_filter, List.mem_singleton, decide_eq_true_eq]
    constructor
    · rintro ⟨hx, hxname⟩
      exact List.inj_on_of_nodup_map r.nodup_regionNames hx (List.mem_of_find?_eq_some h)
        (hxname.trans hname.symm)
    · rintro rfl
      exact ⟨List.mem_of_find?_eq_some h, hname⟩
  have hregions : r.outcome.plan.compileRegions = r.regions := rfl
  rw [sourceAnchorsForScope, hregions, hfilter, List.flatMap_singleton]

/-- Documents with one storage key are taken for each other if and only if they have one entry. -/
theorem sameArtifactDocumentIdentity_iff (hC : E.canon.CollisionFree) {q q' : ArtifactRequirement}
    (h : q ∈ r.requirements) (h' : q' ∈ r'.requirements)
    (hkey : artifactStorageKey r.outcome E.canon q = artifactStorageKey r'.outcome E.canon q') :
    sameArtifactDocumentIdentity (r.document q) (r'.document q') = true ↔
      entryInputs r.outcome q = entryInputs r'.outcome q' := by
  obtain ⟨surveyed, -, -, hlookup, hlookup', hcases⟩ :=
    exists_surveyed_of_artifactStorageKey r r' hC h h' hkey
  have hsharing : (compileRegion E.canon r.limited surveyed).cacheSharing =
      surveyed.cacheSharing := rfl
  have hsharing' : (compileRegion E.canon r'.limited surveyed).cacheSharing =
      surveyed.cacheSharing := rfl
  unfold entryInputs sameArtifactDocumentIdentity
  simp only [hlookup, hlookup', document, artifactDocument, hsharing, hsharing', Option.map_some,
    hkey, Option.some.injEq]
  rcases hcases with ⟨hlocal, rfl⟩ | ⟨hshared, haddress⟩
  · -- only the identities in the manifests may differ
    rw [if_neg fun h => hlocal h.1, if_pos hlocal, if_pos hlocal, r.manifestIdentity?_eq h,
      r'.manifestIdentity?_eq h', r.sourceAnchorsForScope_eq hlookup,
      r'.sourceAnchorsForScope_eq hlookup']
    simp [compileRegion]
  · rw [if_neg (not_not.mpr hshared), if_neg (not_not.mpr hshared), haddress]
    simp only [contentAddress, List.cons.injEq, toValue_inj] at haddress
    rw [if_pos ⟨hshared, hshared, haddress.1⟩]
    simp [haddress, cacheNamespaceForScope, invalidationDomainForScope, hlookup, hlookup',
      compileRegion]

/-- The entries that a first run has written and a second one on its cache reuses are those of
    requirements with the same inputs. -/
theorem entryInputs_of_reused (hC : E.canon.CollisionFree) (hround : E.RoundTrip)
    {xs ys : List Realized} {cache cache' cache'' : Cache}
    (hfirst : E.DocumentsRun (E.documents r.outcome) cache xs cache')
    (hsecond : E.DocumentsRun (E.documents r'.outcome) cache' ys cache'')
    {q q' : ArtifactRequirement} (h : q ∈ r.requirements) (h' : q' ∈ r'.requirements)
    {x y : Realized}
    (hx : (r.document q, x) ∈ (E.documents r.outcome).zip xs)
    (hy : (r'.document q', y) ∈ (E.documents r'.outcome).zip ys)
    (hwritten : x.disposition = .executed)
    (hkey : artifactStorageKey r.outcome E.canon q = artifactStorageKey r'.outcome E.canon q') :
    y.disposition = .reused ↔ entryInputs r.outcome q = entryInputs r'.outcome q' := by
  obtain ⟨ms, hget⟩ := hfirst.get?_of_executed hround (r.apart hC) hx hwritten
  obtain ⟨hentry, hinvalid⟩ := r.document_of_artifactStorageKey r' hC h h' hkey
  rw [hentry] at hget
  rw [hsecond.reused_iff (r'.apart hC) hy hget (read?_canonicalJson hround _) hinvalid]
  exact r.sameArtifactDocumentIdentity_iff r' hC h h' hkey

end Resolution

namespace BuildRun

variable {E : Executor} {first second : BuildRun E}

/-- The documents of a run, and its records. -/
theorem exists_documentsRun (hC : E.canon.CollisionFree) (run : BuildRun E) :
    ∃ r : Resolution E.canon E.vllm run.host run.raw run.scope, run.outcome = r.outcome ∧
    ∃ xs, E.DocumentsRun (E.documents r.outcome) run.world.cache xs run.world'.cache ∧
      (∀ a ∈ run.report.artifacts, ∃ q ∈ r.requirements, ∃ x,
        (r.document q, x) ∈ (E.documents r.outcome).zip xs ∧
        x.part (r.document q) = realizedPart a) ∧
      ∀ q ∈ r.requirements, ∃ x, (r.document q, x) ∈ (E.documents r.outcome).zip xs ∧
        ∃ a ∈ run.report.artifacts, realizedPart a = x.part (r.document q) := by
  obtain ⟨r, hr⟩ := Resolution.exists_of_ok run.resolved
  have hexecuted := run.executed
  rw [hr] at hexecuted
  obtain ⟨xs, hrun, hartifacts, hrecords⟩ := r.exists_documentsRun hC hexecuted
  refine ⟨r, hr, xs, hrun, fun a ha => ?_, fun q hq => ?_⟩
  · obtain ⟨d, x, hmem, heq⟩ := hartifacts a ha
    obtain ⟨q, hq, rfl⟩ := List.mem_map.mp (r.documents_perm.mem_iff.mp (List.of_mem_zip hmem).1)
    exact ⟨q, hq, x, hmem, heq⟩
  · obtain ⟨x, hmem⟩ := hrun.exists_realized
      (r.documents_perm.mem_iff.mpr (List.mem_map_of_mem (f := r.document) hq))
    exact ⟨x, hmem, hrecords _ x hmem⟩

/-- What is reused has one entry with what was written. -/
theorem Reuses.sharesEntry (hC : E.canon.CollisionFree) (hround : E.RoundTrip)
    (h : first.Reuses second) : first.SharesEntry second := by
  obtain ⟨hcache, written, hwritten, reused, hreused, hexecuted, hdisposition,
    hnamespace, hkey⟩ := h
  obtain ⟨r, hr, xs, hrun, hrecords, -⟩ := first.exists_documentsRun hC
  obtain ⟨r', hr', ys, hrun', hrecords', -⟩ := second.exists_documentsRun hC
  obtain ⟨q, hq, x, hx, hpart⟩ := hrecords written hwritten
  obtain ⟨q', hq', y, hy, hpart'⟩ := hrecords' reused hreused
  simp only [Realized.part, realizedPart, Prod.mk.injEq] at hpart hpart'
  have hentry : (r.document q).cacheKey = (r'.document q').cacheKey :=
    hpart.1.trans ((Prod.ext hnamespace hkey).trans hpart'.1.symm)
  have hstorage := congrArg (fun key => CanonicalHash.mk key.2) hentry
  rw [hcache] at hrun'
  rw [SharesEntry, hr, hr']
  exact ⟨q, hq, q', hq', (r.entryInputs_of_reused r' hC hround hrun hrun' hq hq' hx hy
    (hpart.2.1.trans hexecuted) hstorage).mp (hpart'.2.1.trans hdisposition)⟩

/-- If the first run has written all its entries, those it shares with the second are reused. -/
theorem SharesEntry.reuses (hC : E.canon.CollisionFree) (hround : E.RoundTrip)
    (hcache : second.world.cache = first.world'.cache)
    (habsent : ∀ d ∈ E.documents first.outcome, first.world.cache.get? d.cacheKey = none)
    (h : first.SharesEntry second) : first.Reuses second := by
  obtain ⟨r, hr, xs, hrun, -, hrecords⟩ := first.exists_documentsRun hC
  obtain ⟨r', hr', ys, hrun', -, hrecords'⟩ := second.exists_documentsRun hC
  rw [SharesEntry, hr, hr'] at h
  obtain ⟨q, hq, q', hq', hinputs⟩ := h
  obtain ⟨x, hx, written, hwritten, hpart⟩ := hrecords q hq
  obtain ⟨y, hy, reused, hreused, hpart'⟩ := hrecords' q' hq'
  have hexecuted := hrun.of_absent (r.apart hC) (hr ▸ habsent) x (List.of_mem_zip hx).2
  have hstorage : artifactStorageKey r.outcome E.canon q =
      artifactStorageKey r'.outcome E.canon q' := by
    rw [artifactStorageKey_eq, artifactStorageKey_eq, hinputs]
  have hentry := (r.document_of_artifactStorageKey r' hC hq hq' hstorage).1
  rw [hcache] at hrun'
  have hdisposition := (r.entryInputs_of_reused r' hC hround hrun hrun' hq hq' hx hy hexecuted
    hstorage).mpr hinputs
  simp only [Realized.part, realizedPart, Prod.mk.injEq] at hpart hpart'
  have hkeys := hpart.1.trans (hentry.trans hpart'.1.symm)
  exact ⟨hcache, written, hwritten, reused, hreused, hpart.2.1.trans hexecuted,
    hpart'.2.1.trans hdisposition, congrArg Prod.fst hkeys, congrArg Prod.snd hkeys⟩

end BuildRun

/-! ## Two requests of the sample -/

/-- A document depends on the regions and the survey of the plan only. -/
theorem artifactDocument_congr {E : Executor} {outcome outcome' : PlanningOutcome}
    (hregions : outcome.plan.compileRegions = outcome'.plan.compileRegions)
    (hsurvey : outcome.adapterSurvey = outcome'.adapterSurvey) (q : ArtifactRequirement)
    (identity : String) :
    E.artifactDocument outcome q identity = E.artifactDocument outcome' q identity := by
  unfold artifactDocument artifactStorageKey cacheNamespaceForScope invalidationDomainForScope
    sourceAnchorsForScope compileRegionForScope
  rw [hregions, hsurvey]

section Amd

variable {target target' : AmdTarget}

/-- The requirements of the sample depend on its topology only. -/
theorem requirements_amd (h : target.topology = target'.topology) :
    (amdPlanFor target).requirements = (amdPlanFor target').requirements := by
  obtain ⟨model, kvLayoutPolicy, engineSource, topology⟩ := target
  obtain ⟨model', kvLayoutPolicy', engineSource', topology'⟩ := target'
  cases h
  rfl

theorem document_amd (q : ArtifactRequirement) :
    (amdPlanFor target).document q = (amdPlanFor target').document q := by
  have hregions : (amdPlanFor target).outcome.plan.compileRegions =
      (amdPlanFor target').outcome.plan.compileRegions :=
    (regions_amd .ideal target).trans (regions_amd .ideal target').symm
  exact artifactDocument_congr hregions rfl q _

/-- And so do its documents. -/
theorem mem_documents_amd (h : target.topology = target'.topology)
    {d : MaterializedArtifactDocument}
    (hd : d ∈ amdExecutor.documents (amdPlanFor target').outcome) :
    d ∈ amdExecutor.documents (amdPlanFor target).outcome := by
  rw [(Resolution.documents_perm _).mem_iff, List.mem_map] at hd ⊢
  rw [requirements_amd h]
  obtain ⟨q, hq, rfl⟩ := hd
  exact ⟨q, hq, document_amd q⟩

/-- A run of the sample on a fresh cache and then one for another target: they share entries. -/
theorem exists_reuses_amd (h : target.topology = target'.topology) :
    ∃ first second : BuildRun amdExecutor, first.raw = amdRequest target ∧
      second.raw = amdRequest target' ∧ first.world = freshWorld ∧ first.Reuses second := by
  have hround : amdExecutor.RoundTrip := lossless_roundTrip _ _
  have hC : amdExecutor.canon.CollisionFree := Canon.ideal_collisionFree
  obtain ⟨report, world, hrun⟩ := execute_amd target
  obtain ⟨xs, hdocuments, -⟩ := (amdPlanFor target).exists_documentsRun hC hrun
  have hwarm := hdocuments.warm hround ((amdPlanFor target).apart hC) fun _ _ _ _ _ _ hget => by
    cases hget
  obtain ⟨report', world', hrun', -⟩ := (amdPlanFor target').execute_of_warm hC
    fun d hd => hwarm d (mem_documents_amd h hd)
  refine ⟨⟨_, _, _, _, _, _, _, (amdPlanFor target).resolveScoped_eq, hrun⟩,
    ⟨_, _, _, _, _, _, _, (amdPlanFor target').resolveScoped_eq, hrun'⟩, rfl, rfl, rfl,
    BuildRun.SharesEntry.reuses hC hround rfl (fun _ _ => rfl) ?_⟩
  obtain ⟨q, hq, -⟩ := exists_shared_amd target
  have hq' : q ∈ (amdPlanFor target').requirements := requirements_amd h ▸ hq
  have hdocument := @document_amd target target' q
  have hkey := congrArg (fun d => CanonicalHash.mk d.storageKey) hdocument
  exact ⟨q, hq, q, hq', ((amdPlanFor target).sameArtifactDocumentIdentity_iff _ hC hq hq' hkey).mp
    (hdocument ▸ same_self _)⟩

end Amd

/-! ## Agreement -/

/-- **Reuse and the request.** What a second run reuses of a first one has the inputs of the storage
    key in common. So if the first run has written all its entries, reuse implies that the requests
    agree on model, KV layout and engine source exactly if they do, or the plans have no such
    inputs in common. -/
theorem reuse_agrees_iff {E : Executor} (hC : E.canon.CollisionFree) (hround : E.RoundTrip)
    (first second : BuildRun E) :
    (first.Reuses second → first.SharesEntry second) ∧
    (second.world.cache = first.world'.cache →
      (∀ d ∈ E.documents first.outcome, first.world.cache.get? d.cacheKey = none) →
      ((first.Reuses second → first.Agrees second) ↔
        ¬ first.SharesEntry second ∨ first.Agrees second)) := by
  refine ⟨fun h => h.sharesEntry hC hround, fun hcache habsent => ⟨fun h => ?_, ?_⟩⟩
  · by_cases hshares : first.SharesEntry second
    · exact .inr (h (hshares.reuses hC hround hcache habsent))
    · exact .inl hshares
  · rintro (hnone | hagrees) hreuses
    · exact absurd (hreuses.sharesEntry hC hround) hnone
    · exact hagrees

/-- The sample, built twice. -/
theorem reuse_agrees_amd : ∃ first second : BuildRun amdExecutor,
    first.Reuses second ∧ first.SharesEntry second ∧ first.Agrees second := by
  obtain ⟨first, second, hfirst, hsecond, hfresh, hreuses⟩ :=
    @exists_reuses_amd (.standard ⟨1, 1, 1⟩) (.standard ⟨1, 1, 1⟩) rfl
  obtain ⟨hshares, hiff⟩ := reuse_agrees_iff Canon.ideal_collisionFree (lossless_roundTrip _ _)
    first second
  refine ⟨first, second, hreuses, hshares hreuses, (hiff hreuses.1 ?_).mpr (.inr ?_) hreuses⟩
  · intro d _
    rw [hfresh]
    rfl
  · unfold BuildRun.Agrees BuildRun.normalized
    rw [hfirst, hsecond]
    exact ⟨rfl, rfl, rfl⟩

/-- A request for another model, with another KV layout and engine source. -/
def otherTarget : AmdTarget :=
  ⟨⟨"models/other", "main"⟩, .tmhAccounting, ⟨"source", "0.9.0"⟩, ⟨1, 1, 1⟩,
    ⟨0, false⟩⟩

/-- It reuses what the sample has written. -/
theorem reuse_disagrees : ∃ first second : BuildRun amdExecutor, first.Reuses second ∧
    first.normalized.model ≠ second.normalized.model ∧
    first.normalized.kvLayoutPolicy ≠ second.normalized.kvLayoutPolicy ∧
    first.normalized.engineSource ≠ second.normalized.engineSource := by
  obtain ⟨first, second, hfirst, hsecond, -, hreuses⟩ :=
    @exists_reuses_amd (.standard ⟨1, 1, 1⟩) otherTarget rfl
  refine ⟨first, second, hreuses, ?_⟩
  unfold BuildRun.normalized
  rw [hfirst, hsecond]
  exact ⟨by decide, by decide, by decide⟩

end Sock.Engine
