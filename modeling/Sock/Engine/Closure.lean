/-
  The verdict on the closure of a run.

  * `Observed`, `uncontradicted_iff`: no surface is contradicted if all that its evidence names was
    observed.
  * `Resolution.closureOutcome_eq_full_iff`: a run is closed if every region that a surface needs
    warmed up has an obligation; what is not in the plan is not looked for.
  * `Resolution.materialized_iff`: what a surface needs is there if the plan has its regions.
-/
import Sock.Engine.Coverage

namespace Sock.Engine

open Lib Sock.Core Fallible

/-! ## Observations -/

theorem dedup_sort_isEmpty {α : Type} [Ord α] [DecidableEq α] {l : List α} :
    (dedup (sort l)).isEmpty = true ↔ l = [] := by
  rw [List.isEmpty_iff, List.eq_nil_iff_forall_not_mem, List.eq_nil_iff_forall_not_mem]
  simp only [mem_dedup, (sort_perm l).mem_iff]

section Observations

variable {outcome : PlanningOutcome} {artifacts : List MaterializedArtifactRecord}
  {completedNodes : List String}

variable (outcome artifacts completedNodes) in
/-- Everything that the evidence names was observed. -/
def Observed (evidence : RuntimeJitEvidence) : Prop :=
  evidence.contradictionReasons = [] ∧
    (∀ s ∈ evidence.requiredArtifacts, s ∈ artifacts.map (·.scope)) ∧
    (∀ s ∈ evidence.declaredRequiredWarmupScopes,
      s ∈ (completedWarmups outcome completedNodes).map (·.regionName)) ∧
    ∀ p ∈ evidence.requiredWarmupProofs,
      p ∈ (completedWarmups outcome completedNodes).map (·.proof.proofId)

theorem uncontradicted_iff :
    (observedRuntimeJit outcome artifacts completedNodes).any (·.status = .contradicted) = false ↔
      ∀ evidence ∈ outcome.verification.runtimeJitEvidence,
        Observed outcome artifacts completedNodes evidence := by
  simp only [observedRuntimeJit, List.any_map, List.any_eq_false, Function.comp,
    decide_eq_true_eq]
  refine forall₂_congr fun evidence _ => ?_
  have hstatus : ∀ reasons : List String,
      ¬ (if reasons.isEmpty then RuntimeJitObservationStatus.bounded else .contradicted) =
        .contradicted ↔ reasons.isEmpty = true := by
    intro reasons
    cases reasons.isEmpty <;> simp
  rw [hstatus, dedup_sort_isEmpty]
  simp only [Observed, List.append_eq_nil_iff, List.map_eq_nil_iff, List.filter_eq_nil_iff,
    decide_eq_true_eq, not_not, and_assoc]

theorem closureOutcome_eq_full {expansion : ClosureExpansionRecord}
    {observations : List RuntimeJitObservation} {compileFree : Bool}
    (hclosed : expansion.deterministicallyClosed = true) (hfree : compileFree = true) :
    closureOutcome expansion observations compileFree = .fullCompileClosure ↔
      observations.any (·.status = .contradicted) = false := by
  unfold closureOutcome
  rw [hclosed, hfree]
  cases observations.any (·.status = .contradicted) <;> simp

end Observations

/-! ## Surfaces -/

/-- The artifacts and the warmups that the survey lists for a surface are in the report. -/
def SurfaceMaterialized (plan : ResolvedBuildPlan) (report : MaterializationExecutionReport)
    (surface : ResidualRuntimeJitSurface) : Prop :=
  (∀ s ∈ surface.requiredArtifacts, ∃ a ∈ report.artifacts, a.scope = s) ∧
    ∀ s ∈ surface.requiredWarmupScopes, ∃ o ∈ plan.warmupObligations, o.regionName = s ∧
      ∃ node ∈ report.nodes, node.nodeName = o.handle

namespace Resolution

section Regions

variable {C : Canon} {V : Vllm} {host : PlannerHostSnapshot} {raw : RawRequest}
  {scope : BuildScope} (r : Resolution C V host raw scope)

/-- The region is in the plan. -/
def HasRegion (name : String) : Prop := ∃ region ∈ r.regions, region.name = name

/-- The region is warmed up. -/
def WarmsUp (name : String) : Prop := ∃ o ∈ r.obligations, o.regionName = name

theorem exists_requirement_iff {s : String} :
    (∃ q ∈ r.requirements, q.scope = s) ↔ r.HasRegion s := by
  constructor
  · rintro ⟨q, hq, rfl⟩
    obtain ⟨region, hregion, hname, -⟩ := r.exists_region hq
    exact ⟨region, hregion, hname⟩
  · rintro ⟨region, hregion, rfl⟩
    exact ⟨_, (mem_artifactRequirements ..).mpr (.inl ⟨region, hregion,
      r.allowsArtifactScope_of_mem hregion, List.mem_cons_self⟩), rfl⟩

/-- But for early serving, one region of the correctness plane has all regions warmed up. -/
theorem warmsUp_of_correctness (hready : scope.readiness ≠ some .earlyServe)
    {owner : CompileRegion} (howner : owner ∈ r.regions)
    (hplane : .correctness ∈ owner.shapePlanes) {name : String} (h : r.HasRegion name) :
    r.WarmsUp name := by
  obtain ⟨region, hregion, rfl⟩ := h
  obtain ⟨node, hnode, hcorrectness, hintent⟩ := r.exists_correctness_node howner hplane
  obtain ⟨o, ho, -, hname, -⟩ :=
    r.exists_obligation hready hnode (by simp [hintent]) hregion (.inr hcorrectness)
  exact ⟨o, ho, hname⟩

theorem not_warmsUp_of_earlyServe (hready : scope.readiness = some .earlyServe) {name : String} :
    ¬ r.WarmsUp name := by
  rintro ⟨o, ho, -⟩
  have hkeeps := (r.mem_obligations.mp ho).2
  rw [hready] at hkeeps
  cases hkeeps

end Regions

variable {E : Executor} {host : PlannerHostSnapshot} {raw : RawRequest} {scope : BuildScope}
  (r : Resolution E.canon E.vllm host raw scope) {buildScope : BuildScope} {world world' : World}
  {report : MaterializationExecutionReport}

theorem mem_completedWarmups {completedNodes : List String}
    (h : ∀ node ∈ r.nodes, node.name ∈ completedNodes) {o : WarmupObligation} :
    o ∈ completedWarmups r.outcome completedNodes ↔ o ∈ r.obligations := by
  rw [completedWarmups, Dict.mem_select]
  constructor
  · rintro ⟨handle, -, hget⟩
    obtain ⟨o', ho', heq⟩ := List.mem_map.mp (Dict.mem_of_get?_ofEntries hget)
    exact (Prod.mk.inj heq).2 ▸ ho'
  · intro ho
    refine ⟨o.handle, decide_eq_true ?_, r.warmupIndex_get? ho⟩
    exact h _ (mem_graphNodes.mpr (.inr (.inr ⟨o, ho, rfl⟩)))

theorem exists_artifact_scope_iff (hC : E.canon.CollisionFree)
    (h : (E.execute r.outcome buildScope).run world = .ok report world') {s : String} :
    (∃ a ∈ report.artifacts, a.scope = s) ↔ r.HasRegion s := by
  rw [← r.exists_requirement_iff]
  have hscopes := ((r.map_plannedPart_perm hC h).map (·.scope)).mem_iff (a := s)
  rw [List.map_map, List.map_map, List.mem_map, List.mem_map] at hscopes
  exact hscopes

theorem verifyReplayCompileFree_eq : verifyReplayCompileFree r.outcome = true := rfl

/-- The evidence for a surface is observed if the regions of its warmup scopes are warmed up. -/
theorem observed_surfaceEvidence_iff (hC : E.canon.CollisionFree)
    (h : (E.execute r.outcome buildScope).run world = .ok report world')
    {completedNodes : List String} (hcompleted : ∀ node ∈ r.nodes, node.name ∈ completedNodes)
    {surface : ResidualRuntimeJitSurface}
    (hsurface : surfaceIsTopologyApplicable (raw.normalize E.canon) surface = true) :
    Observed r.outcome report.artifacts completedNodes (surfaceEvidence E.canon
        (raw.normalize E.canon) r.expanded r.regions r.obligations r.requirements surface) ↔
      ∀ name ∈ surface.requiredWarmupScopes, r.HasRegion name → r.WarmsUp name := by
  have hreasons : contradictionReasons (raw.normalize E.canon) surface = [] := by
    rw [surfaceIsTopologyApplicable, Bool.not_eq_true'] at hsurface
    rw [contradictionReasons, hsurface]
    rfl
  have hartifacts : ∀ s ∈ surface.requiredArtifacts.filter fun s =>
      r.requirements.any (·.scope = s), s ∈ report.artifacts.map (·.scope) := by
    intro s hs
    obtain ⟨q, hq, hscope⟩ := List.any_eq_true.mp (List.mem_filter.mp hs).2
    exact List.mem_map.mpr ((r.exists_artifact_scope_iff hC h).mpr
      (r.exists_requirement_iff.mp ⟨q, hq, of_decide_eq_true hscope⟩))
  have hproofs : ∀ p ∈ surface.requiredWarmupScopes.flatMap (warmupProofIdsForScope r.obligations),
      p ∈ (completedWarmups r.outcome completedNodes).map (·.proof.proofId) := by
    intro p hp
    obtain ⟨s, -, hp⟩ := List.mem_flatMap.mp hp
    obtain ⟨o, ho, rfl⟩ := List.mem_map.mp hp
    exact List.mem_map_of_mem ((r.mem_completedWarmups hcompleted).mpr (List.mem_of_mem_filter ho))
  have hscopes : ∀ s, s ∈ (completedWarmups r.outcome completedNodes).map (·.regionName) ↔
      r.WarmsUp s := by
    intro s
    simp only [List.mem_map, r.mem_completedWarmups hcompleted]
    rfl
  have hdeclared : (∀ s ∈ surface.requiredWarmupScopes.filter fun s =>
      r.regions.any (·.name = s), s ∈ (completedWarmups r.outcome completedNodes).map
        (·.regionName)) ↔
      ∀ name ∈ surface.requiredWarmupScopes, r.HasRegion name → r.WarmsUp name := by
    simp only [hscopes, List.mem_filter, List.any_eq_true, decide_eq_true_eq, and_imp]
    rfl
  exact ⟨fun h => hdeclared.mp h.2.2.1, fun h => ⟨hreasons, hartifacts, hdeclared.mpr h, hproofs⟩⟩

/-- **Verdicts.** A run is closed if every region that a surface needs warmed up has an
    obligation. -/
theorem closureOutcome_eq_full_iff (hC : E.canon.CollisionFree)
    (h : (E.execute r.outcome buildScope).run world = .ok report world') :
    report.closureOutcome = .fullCompileClosure ↔
      ∀ surface ∈ applicableSurfaces (raw.normalize E.canon) r.expanded r.survey,
        ((∃ region ∈ r.regions, region.name ∈ surface.affectedRegions) ∨
          surface.backendFamily = "torch.compile") →
        ∀ name ∈ surface.requiredWarmupScopes, r.HasRegion name → r.WarmsUp name := by
  obtain ⟨run⟩ := r.exists_runReport h
  have houtcome : report.closureOutcome = closureOutcome (closureExpansion buildScope r.outcome)
      (observedRuntimeJit r.outcome report.artifacts run.progress.completedNodes)
      (verifyReplayCompileFree r.outcome) := by
    rw [run.artifacts_eq]
    exact congrArg (·.closureOutcome) run.report_eq
  have hcompleted : ∀ node ∈ r.nodes, node.name ∈ run.progress.completedNodes := by
    intro node hnode
    rw [run.completedNodes_progress, List.mem_reverse]
    exact List.mem_map_of_mem (executionOrder_perm.mem_iff.mpr hnode)
  have hevidence : r.outcome.verification.runtimeJitEvidence =
      runtimeJitEvidence E.canon (raw.normalize E.canon) r.expanded r.regions r.obligations
        r.requirements r.survey := rfl
  rw [houtcome, closureOutcome_eq_full rfl r.verifyReplayCompileFree_eq, uncontradicted_iff,
    hevidence, runtimeJitEvidence, List.forall_mem_map]
  simp only [List.mem_filter, Bool.or_eq_true, List.any_eq_true, decide_eq_true_eq, and_imp]
  refine forall₃_congr fun surface hsurface _ => ?_
  have happlicable := of_decide_eq_true (List.mem_filter.mp hsurface).2
  exact r.observed_surfaceEvidence_iff hC h hcompleted happlicable.2

theorem materialized_iff (hC : E.canon.CollisionFree)
    (h : (E.execute r.outcome buildScope).run world = .ok report world')
    {surface : ResidualRuntimeJitSurface} : SurfaceMaterialized r.plan report surface ↔
      (∀ name ∈ surface.requiredArtifacts, r.HasRegion name) ∧
        ∀ name ∈ surface.requiredWarmupScopes, r.WarmsUp name := by
  refine and_congr ?_ ?_
  · exact forall₂_congr fun s _ => r.exists_artifact_scope_iff hC h
  · refine forall₂_congr fun s _ => ⟨?_, ?_⟩
    · rintro ⟨o, ho, hname, -⟩
      exact ⟨o, ho, hname⟩
    · rintro ⟨o, ho, hname⟩
      exact ⟨o, ho, hname, r.exists_warmup h ho⟩

end Resolution

/-! ## The surfaces of the survey -/

/-- The backend that comes first for a request. -/
def primaryFamily (C : Canon) (V : Vllm) (host : PlannerHostSnapshot) (raw : RawRequest) :
    Option BackendFamily :=
  (viableSelection C V host raw).map fun (_, viable) => viable.primary.family

/-- The selected regions include what the surfaces that affect them list: all or none of the
    regions of the guard surface, and the KV cache update beside the prefill where FlashInfer
    tunes on several ranks. -/
def ClosedUnderSurfaces (C : Canon) (V : Vllm) (host : PlannerHostSnapshot) (raw : RawRequest)
    (scope : BuildScope) : Prop :=
  let selected := (selectedRegions C V host raw scope).map (·.canonicalName)
  ((∀ name ∈ guardDroppedDynamicShapes.affectedRegions, name ∈ selected) ∨
      ∀ name ∈ guardDroppedDynamicShapes.affectedRegions, name ∉ selected) ∧
    (primaryFamily C V host raw = some .flashInfer → raw.topology.tensorParallelism ≠ 1 →
      "prefill_attention" ∈ selected → "kv_cache_update" ∈ selected)

namespace Resolution

section Surfaces

variable {C : Canon} {V : Vllm} {host : PlannerHostSnapshot} {raw : RawRequest}
  {scope : BuildScope} (r : Resolution C V host raw scope)

theorem mem_selectedRegions {name : String} :
    name ∈ (selectedRegions C V host raw scope).map (·.canonicalName) ↔ r.HasRegion name := by
  rw [r.selectedRegions_eq, List.mem_map]
  constructor
  · rintro ⟨surveyed, hsurveyed, rfl⟩
    obtain ⟨hmem, hselected⟩ := List.mem_filter.mp hsurveyed
    exact ⟨_, r.mem_regions.mpr ⟨surveyed, hmem, hselected, rfl⟩, rfl⟩
  · rintro ⟨region, hregion, rfl⟩
    obtain ⟨surveyed, hmem, hselected, rfl⟩ := r.mem_regions.mp hregion
    exact ⟨surveyed, List.mem_filter.mpr ⟨hmem, hselected⟩, rfl⟩

theorem primaryFamily_eq : primaryFamily C V host raw = some r.expanded.primary.family := by
  simp only [primaryFamily, r.viableSelection_eq, Option.map_some, r.primary_eq]

theorem mem_applicableSurfaces {surface : ResidualRuntimeJitSurface} :
    surface ∈ applicableSurfaces (raw.normalize C) r.expanded r.survey ↔
      surface ∈ residualJitSurfaces ∧ surfaceApplies surface.backendFamily r.expanded = true ∧
        surfaceIsTopologyApplicable (raw.normalize C) surface = true := by
  rw [applicableSurfaces, List.mem_filter, decide_eq_true_eq, (tables_of_survey r.surveyed).2.1]

theorem guard_applicable :
    guardDroppedDynamicShapes ∈ applicableSurfaces (raw.normalize C) r.expanded r.survey :=
  r.mem_applicableSurfaces.mpr ⟨by simp [residualJitSurfaces], rfl, rfl⟩

theorem flashinfer_applicable_iff :
    flashinferTacticAutotune ∈ applicableSurfaces (raw.normalize C) r.expanded r.survey ↔
      r.expanded.primary.family = .flashInfer ∧ raw.topology.tensorParallelism ≠ 1 := by
  have hcontext : topologyContextRequiresDistributedRanks
      flashinferTacticAutotune.topologyContext = true := by
    simp only [topologyContextRequiresDistributedRanks, contains, toList_asciiLowercase,
      flashinferTacticAutotune, String.toList_append, String.reduceToList]
    decide +kernel
  have hmem : flashinferTacticAutotune ∈ residualJitSurfaces := List.mem_cons_self
  have happlies : surfaceApplies flashinferTacticAutotune.backendFamily r.expanded =
      decide (r.expanded.primary.family = .flashInfer) := rfl
  have htopology : surfaceIsTopologyApplicable (raw.normalize C) flashinferTacticAutotune =
      !decide (raw.topology.tensorParallelism = 1) := by
    rw [surfaceIsTopologyApplicable, topologyContradiction, hcontext, Bool.and_true]
    rfl
  rw [r.mem_applicableSurfaces, happlies, htopology]
  simp [hmem]

/-- The regions of the guard surface have the correctness plane. -/
theorem warmsUp_of_guard (hready : scope.readiness ≠ some .earlyServe) {name name' : String}
    (hguard : name ∈ guardDroppedDynamicShapes.affectedRegions) (h : r.HasRegion name)
    (h' : r.HasRegion name') : r.WarmsUp name' := by
  obtain ⟨region, hregion, rfl⟩ := h
  obtain ⟨seam, hseam, hname, -, hplanes, -⟩ := r.exists_seam hregion
  have hcorrectness : ∀ seam ∈ regionSeams,
      seam.canonicalName ∈ guardDroppedDynamicShapes.affectedRegions →
        .correctness ∈ seam.shapePlanes := by decide
  refine r.warmsUp_of_correctness hready hregion ?_ h'
  rw [hplanes]
  exact hcorrectness seam hseam (hname ▸ hguard)

end Surfaces

variable {E : Executor} {host : PlannerHostSnapshot} {raw : RawRequest} {scope : BuildScope}
  (r : Resolution E.canon E.vllm host raw scope) {buildScope : BuildScope} {world world' : World}
  {report : MaterializationExecutionReport}

/-- Early serving warms nothing up, and so is never closed with a surface that affects a region. -/
theorem closureOutcome_ne_full (hC : E.canon.CollisionFree)
    (h : (E.execute r.outcome buildScope).run world = .ok report world')
    (hready : scope.readiness = some .earlyServe) {surface : ResidualRuntimeJitSurface}
    (hsurface : surface ∈ applicableSurfaces (raw.normalize E.canon) r.expanded r.survey)
    (haffected : ∃ region ∈ r.regions, region.name ∈ surface.affectedRegions) :
    report.closureOutcome ≠ .fullCompileClosure := by
  intro hfull
  rw [r.closureOutcome_eq_full_iff hC h] at hfull
  obtain ⟨region, hregion, hname⟩ := haffected
  -- A region that a surface affects is in its own list, or in that of the guard surface.
  have hlisted : ∀ surface ∈ residualJitSurfaces, ∀ name ∈ surface.affectedRegions,
      name ∈ surface.requiredWarmupScopes ∨
        name ∈ guardDroppedDynamicShapes.requiredWarmupScopes := by decide
  rcases hlisted surface (r.mem_applicableSurfaces.mp hsurface).1 _ hname with hscope | hscope
  · exact r.not_warmsUp_of_earlyServe hready
      (hfull surface hsurface (.inl ⟨region, hregion, hname⟩) _ hscope ⟨region, hregion, rfl⟩)
  · exact r.not_warmsUp_of_earlyServe hready
      (hfull _ r.guard_applicable (.inr rfl) _ hscope ⟨region, hregion, rfl⟩)

/-- The verdict is full as soon as a region of the guard surface is in the plan. -/
theorem closureOutcome_eq_full_of_guard (hC : E.canon.CollisionFree)
    (h : (E.execute r.outcome buildScope).run world = .ok report world')
    (hready : scope.readiness ≠ some .earlyServe) {name : String}
    (hguard : name ∈ guardDroppedDynamicShapes.affectedRegions) (hname : r.HasRegion name) :
    report.closureOutcome = .fullCompileClosure := by
  rw [r.closureOutcome_eq_full_iff hC h]
  intro _ _ _ _ _ hregion
  exact r.warmsUp_of_guard hready hguard hname hregion

/-- Where the selected regions are closed, a surface that affects one of them lists only such. -/
theorem hasRegion_of_closed (hclosed : ClosedUnderSurfaces E.canon E.vllm host raw scope)
    {surface : ResidualRuntimeJitSurface}
    (hsurface : surface ∈ applicableSurfaces (raw.normalize E.canon) r.expanded r.survey)
    (haffected : ∃ region ∈ r.regions, region.name ∈ surface.affectedRegions) :
    (∀ name ∈ surface.requiredArtifacts, r.HasRegion name) ∧
      ∀ name ∈ surface.requiredWarmupScopes, r.HasRegion name := by
  obtain ⟨region, hregion, hname⟩ := haffected
  have hregion : r.HasRegion region.name := ⟨region, hregion, rfl⟩
  generalize region.name = affected at hname hregion
  simp only [ClosedUnderSurfaces, r.mem_selectedRegions, r.primaryFamily_eq,
    Option.some.injEq] at hclosed
  have hguard : affected ∈ guardDroppedDynamicShapes.affectedRegions →
      ∀ name ∈ guardDroppedDynamicShapes.affectedRegions, r.HasRegion name := by
    intro haffected
    exact hclosed.1.resolve_right fun hnone => hnone _ haffected hregion
  have hmem := (r.mem_applicableSurfaces.mp hsurface).1
  simp only [residualJitSurfaces, List.mem_cons, List.not_mem_nil, or_false] at hmem
  rcases hmem with rfl | rfl | rfl | rfl
  · have hupdate : r.HasRegion "kv_cache_update" := by
      obtain ⟨hprimary, hranks⟩ := r.flashinfer_applicable_iff.mp hsurface
      rcases List.mem_pair.mp hname with rfl | rfl
      · exact hregion
      · exact hclosed.2 hprimary hranks hregion
    simpa [flashinferTacticAutotune] using hupdate
  · have hsubset : ∀ name ∈ tritonAttentionWarmupGap.affectedRegions,
        name ∈ guardDroppedDynamicShapes.affectedRegions := by decide
    have hall := hguard (hsubset _ hname)
    exact ⟨fun name h => hall name (hsubset name h), fun name h => hall name (hsubset name h)⟩
  · cases List.mem_singleton.mp hname
    simpa [inductorCustomOpFallback] using hregion
  · exact ⟨hguard hname, hguard hname⟩

end Resolution

/-- **The verdict on closure.** It is sound if nothing is to be warmed up, or if the selected
    regions include what the surfaces list; what is listed outside the plan is not looked for. -/
theorem full_closure_sound_iff {E : Executor} {host : PlannerHostSnapshot} {raw : RawRequest}
    {scope buildScope : BuildScope} {outcome : PlanningOutcome} {world world' : World}
    {report : MaterializationExecutionReport} (hC : E.canon.CollisionFree)
    (h : resolveScoped E.canon E.vllm host raw scope = .ok outcome)
    (hrun : (E.execute outcome buildScope).run world = .ok report world') :
    (report.closureOutcome = .fullCompileClosure →
      ∀ surface ∈ applicableSurfaces outcome.plan.normalizedRequest outcome.plan.selectedBackends
          outcome.adapterSurvey,
        (∃ region ∈ outcome.plan.compileRegions, region.name ∈ surface.affectedRegions) →
        SurfaceMaterialized outcome.plan report surface) ↔
      scope.readiness = some .earlyServe ∨
        ClosedUnderSurfaces E.canon E.vllm host raw scope := by
  obtain ⟨r, rfl⟩ := Resolution.exists_of_ok h
  constructor
  · intro hsound
    by_cases hready : scope.readiness = some .earlyServe
    · exact .inl hready
    -- With a region of the guard surface in the plan the verdict is full, whatever is missing.
    have hmaterialized := fun name hguard (hname : r.HasRegion name) =>
      hsound (r.closureOutcome_eq_full_of_guard hC hrun hready hguard hname)
    refine .inr ?_
    simp only [ClosedUnderSurfaces, r.mem_selectedRegions, r.primaryFamily_eq,
      Option.some.injEq]
    refine ⟨?_, fun hprimary hranks hprefill => ?_⟩
    · by_cases hnone : ∀ name ∈ guardDroppedDynamicShapes.affectedRegions, ¬ r.HasRegion name
      · exact .inr hnone
      · push Not at hnone
        obtain ⟨name, hname, region, hregion, rfl⟩ := hnone
        exact .inl ((r.materialized_iff hC hrun).mp (hmaterialized _ hname ⟨region, hregion, rfl⟩
          _ r.guard_applicable ⟨region, hregion, hname⟩)).1
    · have hsurface := r.flashinfer_applicable_iff.mpr ⟨hprimary, hranks⟩
      obtain ⟨region, hregion, hname⟩ := id hprefill
      refine ((r.materialized_iff hC hrun).mp (hmaterialized _ (by decide) hprefill _ hsurface
        ⟨region, hregion, ?_⟩)).1 _ List.mem_cons_self
      rw [hname]
      decide
  · rintro hclosed hfull surface hsurface haffected
    rcases hclosed with hready | hclosed
    · exact absurd hfull (r.closureOutcome_ne_full hC hrun hready hsurface haffected)
    · obtain ⟨hartifacts, hwarmups⟩ := r.hasRegion_of_closed hclosed hsurface haffected
      have hwarm := (r.closureOutcome_eq_full_iff hC hrun).mp hfull surface hsurface
        (.inl haffected)
      exact (r.materialized_iff hC hrun).mpr
        ⟨hartifacts, fun name hname => hwarm name hname (hwarmups name hname)⟩

/-! ### Samples -/

/-- A Linux host with one NVIDIA accelerator. -/
def nvidiaHost : PlannerHostSnapshot where
  operatingSystem := .linux
  acceleratorVendor := .nvidia
  gpuArches := ["sm90"]
  cudaVersion := "12.4"
  driverVersion := "550.54"
  pythonAbi := "cp312"
  libcAbi := "glibc-2.39"
  flashinferPrebuiltAvailable := false
  deviceCount := 1

/-- A request for that host that prefers CUDA graphs. -/
def nvidiaRequest : RawRequest :=
  { amdRequest (.standard ⟨1, 1, 1⟩) with
    environment := ⟨.linux, .nvidia, ["sm90"], "12.4", "550.54", "cp312", "glibc-2.39"⟩
    backendPolicy := ⟨[.cudaGraphs], .preferPrebuiltThenAot, ⟨.forbidden, 0⟩,
      ⟨.advisory, .failOpen⟩, ⟨.advisory, .failOpen⟩⟩ }

/-- The selected backend. -/
def cudaGraphsCandidate : BackendCandidate :=
  backendCandidate .cudaGraphs
    { verdict := .admissible
      family := .cudaGraphs
      acquisition := .localAotBuild
      packagingStrategy := .preferPrebuiltThenAot
      requiredWitnesses := ["cuda.graphs"]
      satisfiedWitnesses := ["cuda.graphs"]
      rejectedReasons := []
      provenance :=
        [⟨"vllm-adapter-survey",
          "CUDA Graph captures are topology-scoped materialized artifacts"⟩] }

def cudaGraphsSelection : BackendSelection := ⟨cudaGraphsCandidate, []⟩

/-- The capability behind it, the last of the table. -/
def cudaGraphsCapability : BackendCapability := capabilityTable.getLast (by simp [capabilityTable])

theorem selectBackends_nvidia (C : Canon) {witnesses : List CapabilityWitness}
    (h : witnesses.any (·.key = "cuda.graphs") = true) :
    selectBackends (nvidiaRequest.normalize C) witnesses
      (backendRegistry (nvidiaRequest.normalize C)) = .ok cudaGraphsSelection := by
  refine selectBackends_single (of_decide_eq_true rfl) rfl
    (rfl : _ = some cudaGraphsCapability) ?_
  refine (@admissibleProof?_congr _ _ [witness "cuda.graphs" "" ""] _ fun key hkey => ?_).trans rfl
  cases List.mem_singleton.mp hkey
  exact h

theorem cuda_graphs_available (C : Canon) :
    (capabilityWitnesses nvidiaHost (nvidiaRequest.normalize C) vendoredSurvey).any
      (·.key = "cuda.graphs") = true := by
  rw [capabilityWitnesses, (sort_perm _).any_eq]
  rfl

/-- The decode region, alone or with the other regions of the guard surface. -/
def guardScope (all : Bool) : BuildScope :=
  { BuildScope.unscoped with
    regionNames := if all then guardDroppedDynamicShapes.affectedRegions
      else ["decode_attention"] }

section Nvidia

variable (C : Canon) (all : Bool)

def nvidiaAssembly : Assembly C vendoredVllm nvidiaHost nvidiaRequest (guardScope all) where
  survey := vendoredSurvey
  viable := cudaGraphsSelection
  expanded := cudaGraphsSelection
  surveyed := survey_vendoredVllm
  viable_eq := selectBackends_nvidia C (cuda_graphs_available C)
  regions_ne_nil := by
    intro h
    cases all <;> cases h
  expanded_eq := by
    cases all <;> rfl

/-- The regions of the plan. -/
def nvidiaRegions : List CompileRegion :=
  (if all then [decodeAttention, prefillAttention, transformerBlockBody]
    else [decodeAttention]).map fun region =>
      compileRegion C cudaGraphsSelection
        (region.located fun _ pattern => (anchorLine pattern).getD 0)

/-- The one node of the envelope. -/
def graphsRange : ShapeEnvelopeNode :=
  ⟨"correctness-range", .correctness, .symbolicRange, ⟨1, 8, 1, 4096⟩, none, [.cudaGraphs]⟩

theorem envelope_nvidia : (nvidiaAssembly C all).envelope = ⟨[graphsRange]⟩ := by
  cases all <;> rfl

/-- The obligations: the range in each region. -/
theorem obligations_perm_nvidia : (nvidiaAssembly C all).obligations.Perm
    ((nvidiaRegions C all).map (warmupObligation (nvidiaRequest.normalize C) (.fromLevel .o0)
      graphsRange)) := by
  refine (sort_perm _).trans (.of_eq ?_)
  cases all <;> rfl

theorem requirements_perm_nvidia : (nvidiaAssembly C all).requirements.Perm
    ((nvidiaRegions C all).flatMap (regionRequirements C (nvidiaRequest.normalize C)
      (nvidiaAssembly C all).witnesses ⟨[graphsRange]⟩ cudaGraphsSelection)) := by
  refine (sort_perm _).trans (.of_eq ?_)
  cases all <;> rfl

theorem issues_nvidia (hC : C.CollisionFree) (hblank : C.NonBlank) :
    (nvidiaAssembly C all).plan.issues = [] := by
  refine Assembly.issues_eq_nil_of_range _ hC hblank (congrArg _ (envelope_nvidia C all))
    (obligations_perm_nvidia C all) (requirements_perm_nvidia C all) ?_ (by decide)
    (fun h => by cases h) ?_ ?_ ?_
  case refine_2 => cases all <;> exact List.mem_cons_self
  case refine_3 =>
    have hnames : ["warmup:correctness-range:decode_attention",
      "warmup:correctness-range:prefill_attention",
      "warmup:correctness-range:transformer_block_body"].Nodup := by decide
    cases all with
    | false => exact List.nodup_singleton _
    | true => exact hnames
  all_goals cases all <;> first | rfl | exact of_decide_eq_true rfl

/-- The sample, resolved. -/
noncomputable def nvidiaPlan :
    Resolution amdExecutor.canon amdExecutor.vllm nvidiaHost nvidiaRequest (guardScope all) :=
  ⟨nvidiaAssembly .ideal all, issues_nvidia .ideal all Canon.ideal_collisionFree
    Canon.ideal_nonBlank⟩

/-- The run of the sample. -/
theorem execute_nvidia :
    ∃ report world',
      (amdExecutor.execute (nvidiaPlan all).outcome (guardScope all)).run freshWorld =
        .ok report world' :=
  (nvidiaPlan all).execute_returns (Executor.lossless_roundTrip _ _) (guardScope all)
    Executor.readable_empty

end Nvidia

/-- With all regions of the guard surface the verdict is sound. -/
theorem full_closure_sound_nvidia : ∃ report world',
    (amdExecutor.execute (nvidiaPlan true).outcome (guardScope true)).run freshWorld =
      .ok report world' ∧ report.closureOutcome = .fullCompileClosure ∧
    SurfaceMaterialized (nvidiaPlan true).outcome.plan report guardDroppedDynamicShapes := by
  obtain ⟨report, world', hrun⟩ := execute_nvidia true
  have hregions : ∀ name ∈ guardDroppedDynamicShapes.affectedRegions,
      (nvidiaPlan true).HasRegion name := by
    intro name hname
    refine List.mem_map.mp (?_ : name ∈ ["decode_attention", "prefill_attention",
      "transformer_block_body"])
    revert name
    decide
  have hclosed : ClosedUnderSurfaces amdExecutor.canon amdExecutor.vllm nvidiaHost nvidiaRequest
      (guardScope true) := by
    simp only [ClosedUnderSurfaces, (nvidiaPlan true).mem_selectedRegions,
      (nvidiaPlan true).primaryFamily_eq]
    exact ⟨.inl hregions, fun h => nomatch h⟩
  have hfull := (nvidiaPlan true).closureOutcome_eq_full_of_guard Canon.ideal_collisionFree hrun
    nofun List.mem_cons_self (hregions _ List.mem_cons_self)
  obtain ⟨region, hregion, hname⟩ := hregions _ List.mem_cons_self
  refine ⟨report, world', hrun, hfull, ?_⟩
  exact (full_closure_sound_iff Canon.ideal_collisionFree (nvidiaPlan true).resolveScoped_eq
    hrun).mpr (.inr hclosed) hfull _ (nvidiaPlan true).guard_applicable
      ⟨region, hregion, hname ▸ List.mem_cons_self⟩

/-- With some of them it is not: the guard surface lists the decode region, which the plan does not
    have, and the verdict is full. -/
theorem full_closure_unsound : ∃ report world',
    resolveScoped amdExecutor.canon amdExecutor.vllm amdHost (amdRequest (.standard ⟨1, 1, 1⟩))
      bodyScope = .ok (amdPlan ⟨1, 1, 1⟩).outcome ∧
    (amdExecutor.execute (amdPlan ⟨1, 1, 1⟩).outcome bodyScope).run freshWorld =
      .ok report world' ∧ report.closureOutcome = .fullCompileClosure ∧
    guardDroppedDynamicShapes ∈ applicableSurfaces
      (amdPlan ⟨1, 1, 1⟩).outcome.plan.normalizedRequest
      (amdPlan ⟨1, 1, 1⟩).outcome.plan.selectedBackends
      (amdPlan ⟨1, 1, 1⟩).outcome.adapterSurvey ∧
    (∃ region ∈ (amdPlan ⟨1, 1, 1⟩).outcome.plan.compileRegions,
      region.name ∈ guardDroppedDynamicShapes.affectedRegions) ∧
    "decode_attention" ∈ guardDroppedDynamicShapes.requiredArtifacts ∧
    ∀ a ∈ report.artifacts, a.scope ≠ "decode_attention" := by
  obtain ⟨report, world', hrun⟩ := execute_amd (.standard ⟨1, 1, 1⟩)
  have hnames : (amdPlan ⟨1, 1, 1⟩).regions.map (·.name) =
      ["prefill_attention", "transformer_block_body"] := rfl
  have hprefill : (amdPlan ⟨1, 1, 1⟩).HasRegion "prefill_attention" :=
    List.mem_map.mp (hnames ▸ List.mem_cons_self)
  have hdecode : ¬ (amdPlan ⟨1, 1, 1⟩).HasRegion "decode_attention" := by
    intro h
    have hmem := List.mem_map.mpr h
    rw [hnames] at hmem
    revert hmem
    decide
  have hguard : "prefill_attention" ∈ guardDroppedDynamicShapes.affectedRegions := by decide
  obtain ⟨region, hregion, hname⟩ := id hprefill
  refine ⟨report, world', (amdPlan ⟨1, 1, 1⟩).resolveScoped_eq, hrun,
    (amdPlan ⟨1, 1, 1⟩).closureOutcome_eq_full_of_guard Canon.ideal_collisionFree hrun nofun hguard
      hprefill, (amdPlan ⟨1, 1, 1⟩).guard_applicable, ⟨region, hregion, hname ▸ hguard⟩, by decide,
    fun a ha hscope => hdecode ?_⟩
  exact ((amdPlan ⟨1, 1, 1⟩).exists_artifact_scope_iff Canon.ideal_collisionFree hrun).mp
    ⟨a, ha, hscope⟩

end Sock.Engine
