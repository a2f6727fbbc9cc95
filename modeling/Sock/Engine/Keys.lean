/-
  What the executor finds in a resolved plan.

  * `Resolution.executable`: every lookup of the executor succeeds, so the graph runs.
  * `Resolution.artifactOf_artifactNode`: the requirement and the manifest identity behind the node
    of a requirement.
  * `Resolution.exists_surveyed_of_artifactStorageKey`: requirements of any two plans with one
    storage key are for one surveyed region. A content-addressed one is named by its region's kind,
    and the survey has every kind once. So no two requirements of a plan have one storage key.
-/
import Sock.Engine.Runs

namespace Sock.Engine

open Lib Sock.Core Fallible

namespace Resolution

/-! ## Lookups -/

section Lookups

variable {C : Canon} {V : Vllm} {host : PlannerHostSnapshot} {raw : RawRequest}
  {scope : BuildScope} (r : Resolution C V host raw scope)

theorem compileRegionForScope_eq {region : CompileRegion} (h : region ∈ r.regions) :
    compileRegionForScope r.outcome region.name = some region :=
  r.find?_regions h

/-- The region behind a requirement. -/
theorem exists_region {q : ArtifactRequirement} (h : q ∈ r.requirements) :
    ∃ region ∈ r.regions, region.name = q.scope ∧
      compileRegionForScope r.outcome q.scope = some region := by
  obtain ⟨region, hregion, hname, -⟩ := r.mem_requirements h
  exact ⟨region, hregion, hname, hname ▸ r.compileRegionForScope_eq hregion⟩

/-- The identity of a requirement in the manifest. -/
def manifestIdentity (q : ArtifactRequirement) : String :=
  artifactManifestIdentity r.expanded.primary.family q

theorem manifestIdentity?_eq {q : ArtifactRequirement} (h : q ∈ r.requirements) :
    manifestIdentity? r.outcome q = some (r.manifestIdentity q) := by
  have hfind : r.requirements.find? (fun q' => decide (q'.scope = q.scope ∧
      q'.artifactClass = q.artifactClass)) = some q :=
    find?_eq_some_of_unique h (by simp) fun q' h' heq =>
      r.eq_of_classScope h' h (of_decide_eq_true heq).2 (of_decide_eq_true heq).1
  have hartifacts : r.outcome.closure.artifacts =
      r.requirements.map (ResolvedBuildPlan.manifestEntry r.expanded.primary.family) := rfl
  rw [manifestIdentity?, hartifacts, List.find?_map]
  exact congrArg (Option.map _) (congrArg (Option.map _) hfind)

/-- Node names of requirements are distinct. -/
theorem nodup_artifactNodeHandle : (r.requirements.map (artifactNodeHandle C)).Nodup := by
  have hsublist : (r.requirements.map (artifactNode C)).Sublist r.nodes :=
    (map_sublist_flatMap (fun q => by simp [requirementNodes]) _).trans
      (List.sublist_append_left _ _)
  have h := r.nodup_nodeNames.sublist (hsublist.map (·.name))
  rw [List.map_map] at h
  exact h

theorem nodup_warmupHandle : (r.obligations.map (·.handle)).Nodup := by
  have hsublist : (r.obligations.map (warmupNode C raw.topology r.requirements)).Sublist r.nodes :=
    List.sublist_append_right _ _
  have h := r.nodup_nodeNames.sublist (hsublist.map (·.name))
  rw [List.map_map] at h
  exact h

theorem warmupIndex_get? {o : WarmupObligation} (h : o ∈ r.obligations) :
    (Executor.warmupIndex r.outcome).get? o.handle = some o := by
  refine Dict.get?_ofEntries ?_ (List.mem_map_of_mem h)
  rw [List.map_map]
  exact r.nodup_warmupHandle

end Lookups

variable {E : Executor} {host : PlannerHostSnapshot} {raw : RawRequest} {scope : BuildScope}
  (r : Resolution E.canon E.vllm host raw scope)

theorem requirementIndex_get? {q : ArtifactRequirement} (h : q ∈ r.requirements) :
    (E.requirementIndex r.outcome).get? (artifactNodeHandle E.canon q) = some q := by
  refine Dict.get?_ofEntries ?_ (List.mem_map_of_mem h)
  rw [List.map_map]
  exact r.nodup_artifactNodeHandle

/-- The node of a requirement builds or fetches this requirement. -/
theorem artifactOf_artifactNode {q : ArtifactRequirement} (h : q ∈ r.requirements) :
    E.artifactOf r.outcome (artifactNode E.canon q) = some (q, r.manifestIdentity q) := by
  refine Executor.artifactOf_eq_some.mpr
    ⟨?_, r.requirementIndex_get? h, r.manifestIdentity?_eq h⟩
  rw [artifactNode]
  cases isTransfer q.acquisition <;> simp

/-- Every lookup of the executor in a resolved plan succeeds. -/
theorem executable : E.Executable r.outcome r.nodes where
  index node h := by
    refine Dict.get?_ofEntries ?_ (List.mem_map_of_mem h)
    rw [List.map_map]
    exact r.nodup_nodeNames
  dependsEarlier := r.dependsEarlier
  runnable node h := by
    rcases mem_graphNodes.mp h with ⟨q, hq, rfl⟩ | ⟨q, hq, -, rfl⟩ | ⟨o, ho, rfl⟩
    · exact Executor.runnable_of_artifactOf (r.artifactOf_artifactNode hq)
    · trivial
    · exact Option.isSome_iff_exists.mpr ⟨o, r.warmupIndex_get? ho⟩

/-! ## Storage keys -/

section StorageKeys

variable {C : Canon} {V : Vllm} {host host' : PlannerHostSnapshot} {raw raw' : RawRequest}
  {scope scope' : BuildScope} (r : Resolution C V host raw scope)
  (r' : Resolution C V host' raw' scope')

/-- The region of a requirement, as it was surveyed. -/
theorem exists_surveyed {q : ArtifactRequirement} (h : q ∈ r.requirements) :
    ∃ surveyed ∈ r.survey.compileRegions, surveyed.canonicalName = q.scope ∧
      compileRegionForScope r.outcome q.scope = some (compileRegion C r.limited surveyed) := by
  obtain ⟨region, hregion, hname, hlookup⟩ := r.exists_region h
  obtain ⟨surveyed, hsurveyed, -, rfl⟩ := r.mem_regions.mp hregion
  exact ⟨surveyed, hsurveyed, hname, hlookup⟩

/-- Requirements of plans over one survey with one storage key are for one surveyed region. They
    have one content address, or they are the same. -/
theorem exists_surveyed_of_artifactStorageKey (hC : C.CollisionFree) {q q' : ArtifactRequirement}
    (h : q ∈ r.requirements) (h' : q' ∈ r'.requirements)
    (heq : artifactStorageKey r.outcome C q = artifactStorageKey r'.outcome C q') :
    ∃ surveyed, surveyed.canonicalName = q.scope ∧ surveyed.canonicalName = q'.scope ∧
      compileRegionForScope r.outcome q.scope = some (compileRegion C r.limited surveyed) ∧
      compileRegionForScope r'.outcome q'.scope = some (compileRegion C r'.limited surveyed) ∧
      (surveyed.cacheSharing ≠ .contentAddressed ∧ q = q' ∨
        surveyed.cacheSharing = .contentAddressed ∧
          contentAddress (compileRegion C r.limited surveyed) q =
            contentAddress (compileRegion C r'.limited surveyed) q') := by
  obtain ⟨s, hs, hname, hlookup⟩ := r.exists_surveyed h
  obtain ⟨s', hs', hname', hlookup'⟩ := r'.exists_surveyed h'
  rw [← Except.ok.inj (r.surveyed.symm.trans r'.surveyed)] at hs'
  have hseam := mem_regionSeams r.surveyed hs
  have hseam' := mem_regionSeams r.surveyed hs'
  unfold artifactStorageKey at heq
  rw [hlookup, hlookup'] at heq
  dsimp only at heq
  split at heq <;> split at heq
  · next hlocal _ =>
      cases hC.eq_of_canonicalHash heq
      cases r.toRegionSeam_injOn hs hs' (List.inj_on_of_nodup_map nodup_canonicalName hseam hseam'
        (hname.trans hname'.symm))
      exact ⟨s, hname, hname', hlookup, hlookup', .inl ⟨hlocal, rfl⟩⟩
  -- a requirement is an object, a content address an array
  · cases hC.sortJson_eq heq
  · cases hC.sortJson_eq heq
  · next hshared _ =>
      have hitems := hC.items_eq heq
      simp only [contentAddress, List.map_cons, List.cons.injEq, sortJson_toValue_inj] at hitems
      -- the equivalence has the kind, and the survey has every kind once
      have hkinds := hC.items_eq hitems.1
      simp only [List.map_cons, List.cons.injEq, sortJson_toValue_inj] at hkinds
      cases r.toRegionSeam_injOn hs hs' (List.inj_on_of_nodup_map nodup_kind hseam hseam' hkinds.1)
      refine ⟨s, hname, hname', hlookup, hlookup', .inr ⟨not_not.mp hshared, ?_⟩⟩
      simp only [contentAddress, hitems]

/-- No two requirements of a plan have one storage key. -/
theorem eq_of_artifactStorageKey (hC : C.CollisionFree) {q q' : ArtifactRequirement}
    (h : q ∈ r.requirements) (h' : q' ∈ r.requirements)
    (heq : artifactStorageKey r.outcome C q = artifactStorageKey r.outcome C q') : q = q' := by
  obtain ⟨surveyed, hname, hname', -, -, hsame⟩ :=
    exists_surveyed_of_artifactStorageKey r r hC h h' heq
  rcases hsame with ⟨-, hsame⟩ | ⟨-, haddress⟩
  · exact hsame
  · simp only [contentAddress, List.cons.injEq, toValue_inj] at haddress
    exact r.eq_of_classScope h h' haddress.2.1 (hname.symm.trans hname')

end StorageKeys

end Resolution

end Sock.Engine
