/-
  What the warmup of a resolved plan covers.

  * `Assembly.mem_envelope`: the nodes of the envelope, by what asks for them.
  * `Resolution.needsWarmup_of_mem`: the planes that a level does not warm up are not in the
    envelope of a plan that passes its checks: at O1 a graph shape needs the decode region, whose
    artifacts are local to a rank and over budget.
  * `warmupDemand`, `warmup_limit_iff`: the steps that a request asks for, and when they are within
    the limit that it sets.
-/
import Sock.Engine.Reports

namespace Sock.Engine

open Lib Sock.Core Fallible

/-! ## Levels -/

/-- The levels that capture graphs warm up the performance plane. -/
theorem includePerformanceWarmup_of_or {level : OptimizationLevel}
    (h : (OptimizationEnvelope.fromLevel level).includePerformanceWarmup = true ∨
      (OptimizationEnvelope.fromLevel level).includeCudaGraphs = true) :
    (OptimizationEnvelope.fromLevel level).includePerformanceWarmup = true := by
  revert h
  cases level <;> decide

/-- The level that warms up without graphs has no budget for rank-local artifacts. -/
theorem includeCudaGraphs_of_maxRankLocalArtifacts {level : OptimizationLevel}
    (h : (OptimizationEnvelope.fromLevel level).includePerformanceWarmup = true ∨
      (OptimizationEnvelope.fromLevel level).includeCudaGraphs = true)
    (hlocal : 0 < (OptimizationEnvelope.fromLevel level).artifactBudget.maxRankLocalArtifacts) :
    (OptimizationEnvelope.fromLevel level).includeCudaGraphs = true := by
  revert h hlocal
  cases level <;> decide

/-- The steps of a node do not depend on the level. -/
theorem warmupSteps_fromLevel (level : OptimizationLevel) (intent : RangeIntent) :
    warmupSteps (.fromLevel level) intent = warmupSteps (.fromLevel .o0) intent := by
  cases level <;> cases intent <;> rfl

/-! ## The envelope -/

/-- The nodes before the scope: the ranges, the shapes that the level warms up, and the residual. -/
theorem mem_shapeEnvelope {normalized : NormalizedRequest} {selected : BackendSelection}
    {optimization : OptimizationEnvelope} {node : ShapeEnvelopeNode} :
    node ∈ (shapeEnvelope normalized selected optimization).nodes ↔
      node = ⟨"correctness-range", .correctness, .symbolicRange,
        normalized.shapePolicy.correctnessRange, none, [selected.primary.family]⟩ ∨
      (optimization.includePerformanceWarmup = true ∧
        (node = ⟨"performance-range", .performance, .fallbackRange,
          normalized.shapePolicy.performanceRange, none, [selected.primary.family]⟩ ∨
        ∃ shape ∈ normalized.shapePolicy.hotShapes,
          hotShapeNode "hot" shape selected.primary.family = node)) ∨
      (optimization.includeCudaGraphs = true ∧
        ∃ shape ∈ normalized.shapePolicy.cudaGraphShapes,
          hotShapeNode "cuda-graph" shape .cudaGraphs = node) ∨
      (normalized.backendPolicy.runtimeJitPolicy.disposition = .shapeBounded ∧
        node = ⟨"residual-dynamic-tail", .performance, .uncoveredResidual,
          normalized.shapePolicy.correctnessRange, none, [selected.primary.family]⟩) := by
  rw [shapeEnvelope, (sort_perm _).mem_iff]
  simp only [List.mem_append, List.mem_ite_nil_right, List.mem_cons, List.mem_map,
    List.not_mem_nil, or_false, or_assoc]

namespace Assembly

variable {C : Canon} {V : Vllm} {host : PlannerHostSnapshot} {raw : RawRequest}
  {scope : BuildScope} (r : Assembly C V host raw scope)

theorem mem_envelope {node : ShapeEnvelopeNode} : node ∈ r.envelope.nodes ↔
    node ∈ (shapeEnvelope (raw.normalize C) r.expanded r.optimization).nodes ∧
      (∃ region ∈ r.regions, node.plane ∈ region.shapePlanes) ∧
      (scope.readiness = some .correctness → node.plane = .correctness) := by
  rw [envelope, scopedShapeEnvelope, (sort_perm _).mem_iff, List.mem_filter, decide_eq_true_eq,
    List.any_eq_true]
  simp only [decide_eq_true_eq]

/-- A node that is no residual is the correctness range, or a range or shape that the level warms
    up. -/
theorem plane_of_mem {node : ShapeEnvelopeNode}
    (h : node ∈ (shapeEnvelope (raw.normalize C) r.expanded r.optimization).nodes)
    (hintent : node.intent ≠ .uncoveredResidual) :
    node.plane = .correctness ∨ r.optimization.includePerformanceWarmup = true ∨
      r.optimization.includeCudaGraphs = true := by
  rcases mem_shapeEnvelope.mp h with rfl | ⟨h, -⟩ | ⟨h, -⟩ | ⟨-, rfl⟩
  · exact .inl rfl
  · exact .inr (.inl h)
  · exact .inr (.inr h)
  · exact absurd rfl hintent

/-- The correctness range is in the envelope as soon as one region has its plane. -/
theorem exists_correctness_node {owner : CompileRegion} (howner : owner ∈ r.regions)
    (hplane : .correctness ∈ owner.shapePlanes) :
    ∃ node ∈ r.envelope.nodes, node.plane = .correctness ∧ node.intent = .symbolicRange :=
  ⟨_, r.mem_envelope.mpr ⟨mem_shapeEnvelope.mpr (.inl rfl), ⟨owner, howner, hplane⟩, fun _ => rfl⟩,
    rfl, rfl⟩

/-! ## Rank-local artifacts -/

theorem allowsArtifactScope_of_mem {region : CompileRegion} (h : region ∈ r.regions) :
    scope.allowsArtifactScope region.name = true := by
  obtain ⟨surveyed, -, hselected, rfl⟩ := r.mem_regions.mp h
  simp only [regionSelected, Bool.and_eq_true] at hselected
  obtain ⟨⟨⟨⟨⟨⟨-, hallows⟩, -⟩, -⟩, -⟩, -⟩, -⟩ := hselected
  rw [BuildScope.allowsRegion, Bool.or_right_comm] at hallows
  exact hallows

/-- The region of the graph shapes is local to a rank. -/
theorem rankLocal_of_cudaGraph {region : CompileRegion} (h : region ∈ r.regions)
    (hplane : .cudaGraph ∈ region.shapePlanes) : region.rankDisposition = .rankLocal := by
  obtain ⟨seam, hseam, -, -, hplanes, hrank⟩ := r.exists_seam h
  have hlocal : ∀ seam ∈ regionSeams, .cudaGraph ∈ seam.shapePlanes →
      seam.rankDisposition = .rankLocal := by decide
  rw [hrank]
  exact hlocal seam hseam (hplanes ▸ hplane)

/-- A region that is local to a rank has an artifact that is. -/
theorem exists_rankLocal {region : CompileRegion} (h : region ∈ r.regions)
    (hlocal : region.rankDisposition = .rankLocal) :
    0 < r.requirements.countP (·.rankDisposition = .rankLocal) := by
  rw [List.countP_pos_iff]
  refine ⟨_, (mem_artifactRequirements ..).mpr (.inl ⟨region, h, r.allowsArtifactScope_of_mem h,
    List.mem_cons_self⟩), ?_⟩
  exact decide_eq_true hlocal

end Assembly

namespace Resolution

variable {C : Canon} {V : Vllm} {host : PlannerHostSnapshot} {raw : RawRequest}
  {scope : BuildScope} (r : Resolution C V host raw scope)

/-- A plan has at most the rank-local artifacts of its level. -/
theorem countP_rankLocal_le : r.requirements.countP (·.rankDisposition = .rankLocal) ≤
    r.optimization.artifactBudget.maxRankLocalArtifacts :=
  have hbudget := ((ResolvedBuildPlan.issues_eq_nil _).mp r.valid).2.2.2.2.2.2.2.1
  (r.budgetIssues_eq_nil_iff.mp hbudget).2.2

/-- **Every node is warmed up**: the level warms up the plane of every node of the envelope but the
    residual one. -/
theorem needsWarmup_of_mem {node : ShapeEnvelopeNode} (hnode : node ∈ r.envelope.nodes)
    (hintent : node.intent ≠ .uncoveredResidual) {region : CompileRegion}
    (hplane : node.plane ∈ region.shapePlanes ∨ node.plane = .correctness) :
    needsWarmup r.optimization node region = true := by
  obtain ⟨hmem, ⟨owner, howner, hplanes⟩, -⟩ := r.mem_envelope.mp hnode
  have hlevel := r.plane_of_mem hmem hintent
  rw [needsWarmup, decide_eq_true_eq]
  refine ⟨fun hperformance => ?_, fun hgraph => ?_, hplane⟩
  · rw [hperformance] at hlevel
    exact includePerformanceWarmup_of_or (hlevel.resolve_left (by decide))
  · rw [hgraph] at hlevel hplanes
    have hlocal := r.exists_rankLocal howner (r.rankLocal_of_cudaGraph howner hplanes)
    exact includeCudaGraphs_of_maxRankLocalArtifacts (hlevel.resolve_left (by decide))
      (hlocal.trans_le r.countP_rankLocal_le)

/-- Early serving drops every obligation; the other readinesses drop none of a node they keep. -/
theorem keeps_warmupObligation {node : ShapeEnvelopeNode} (hnode : node ∈ r.envelope.nodes)
    (region : CompileRegion) : scope.readiness.all
      (·.keeps (warmupObligation (raw.normalize C) r.optimization node region)) =
        decide (scope.readiness ≠ some .earlyServe) := by
  cases hready : scope.readiness with
  | none => rfl
  | some readiness =>
      cases readiness with
      | earlyServe | performance => rfl
      | correctness => exact decide_eq_true ((r.mem_envelope.mp hnode).2.2 hready)

theorem exists_obligation (hready : scope.readiness ≠ some .earlyServe) {node : ShapeEnvelopeNode}
    (hnode : node ∈ r.envelope.nodes) (hintent : node.intent ≠ .uncoveredResidual)
    {region : CompileRegion} (hregion : region ∈ r.regions)
    (hplane : node.plane ∈ region.shapePlanes ∨ node.plane = .correctness) :
    ∃ o ∈ r.obligations,
      o.nodeName = node.name ∧ o.regionName = region.name ∧ o.plane = node.plane := by
  refine ⟨warmupObligation (raw.normalize C) r.optimization node region, ?_, rfl, rfl, rfl⟩
  refine r.mem_obligations.mpr ⟨r.mem_neededWarmup.mpr ⟨node, hnode, hintent, region, hregion,
    r.needsWarmup_of_mem hnode hintent hplane, rfl⟩, ?_⟩
  rw [r.keeps_warmupObligation hnode]
  exact decide_eq_true hready

end Resolution

/-- **Coverage**: but for early serving, every node that is no residual has an obligation for every
    region of its plane, and for every region if its plane is correctness. -/
theorem warmup_covers_envelope {C : Canon} {V : Vllm} {host : PlannerHostSnapshot}
    {raw : RawRequest} {scope : BuildScope} {outcome : PlanningOutcome}
    (h : resolveScoped C V host raw scope = .ok outcome)
    (hready : scope.readiness ≠ some .earlyServe) :
    ∀ node ∈ outcome.plan.shapeEnvelope.nodes, node.intent ≠ .uncoveredResidual →
      ∀ region ∈ outcome.plan.compileRegions,
        (node.plane ∈ region.shapePlanes ∨ node.plane = .correctness) →
        ∃ o ∈ outcome.plan.warmupObligations,
          o.nodeName = node.name ∧ o.regionName = region.name ∧ o.plane = node.plane := by
  obtain ⟨r, rfl⟩ := Resolution.exists_of_ok h
  intro node hnode hintent region hregion hplane
  exact r.exists_obligation hready hnode hintent hregion hplane

theorem warmup_covers_envelope_amd : (amdRegions .ideal).length = 2 ∧
    ∀ region ∈ amdRegions .ideal, ∃ o ∈ (amdPlan ⟨1, 1, 1⟩).outcome.plan.warmupObligations,
      o.nodeName = "correctness-range" ∧ o.regionName = region.name ∧ o.plane = .correctness := by
  refine ⟨rfl, fun region hregion => ?_⟩
  exact warmup_covers_envelope (amdPlan ⟨1, 1, 1⟩).resolveScoped_eq (by decide) correctnessRange
    List.mem_cons_self (by decide) region hregion (.inr rfl)

/-! ## Steps -/

/-- The regions that a plane is warmed up in, by the planes of each. -/
def warmedRegions (scope : BuildScope) (planes : List (List CoveragePlane))
    (plane : CoveragePlane) : Nat :=
  if scope.readiness = some .earlyServe ∨
      (scope.readiness = some .correctness ∧ plane ≠ .correctness) ∨
      ∀ regionPlanes ∈ planes, plane ∉ regionPlanes then 0
  else planes.countP fun regionPlanes => plane ∈ regionPlanes ∨ plane = .correctness

theorem warmedRegions_perm {scope : BuildScope} {planes planes' : List (List CoveragePlane)}
    (h : planes.Perm planes') (plane : CoveragePlane) :
    warmedRegions scope planes plane = warmedRegions scope planes' plane := by
  simp only [warmedRegions, h.mem_iff, h.countP_eq]

/-- The survey, and the backends that are viable for a request. -/
def viableSelection (C : Canon) (V : Vllm) (host : PlannerHostSnapshot) (raw : RawRequest) :
    Option (AdapterSurvey × BackendSelection) :=
  match V.survey with
  | .error _ => none
  | .ok survey =>
      match selectBackends (raw.normalize C)
          (capabilityWitnesses host (raw.normalize C) survey)
          (backendRegistry (raw.normalize C)) with
      | .error _ => none
      | .ok viable => some (survey, viable)

/-- The regions of the survey that the request and the scope select. -/
def selectedRegions (C : Canon) (V : Vllm) (host : PlannerHostSnapshot) (raw : RawRequest)
    (scope : BuildScope) : List AdapterCompileRegion :=
  match viableSelection C V host raw with
  | none => []
  | some (survey, viable) => survey.compileRegions.filter
      (regionSelected (limitSecondary (.fromLevel raw.optimizationPolicy.level) viable) scope)

/-- The warmup steps that a request asks for: three for the correctness range and two for the
    performance range, one for each exact shape, in every region that the plane is warmed up in. -/
def warmupDemand (C : Canon) (V : Vllm) (host : PlannerHostSnapshot) (raw : RawRequest)
    (scope : BuildScope) : Nat :=
  let regions := warmedRegions scope ((selectedRegions C V host raw scope).map (·.shapePlanes))
  let optimization := OptimizationEnvelope.fromLevel raw.optimizationPolicy.level
  let shapes := raw.shapePolicy.canonicalize
  3 * regions .correctness +
    (if optimization.includePerformanceWarmup then
      2 * regions .performance + (shapes.hotShapes.map (regions ·.plane)).sum else 0) +
    (if optimization.includeCudaGraphs then
      (shapes.cudaGraphShapes.map (regions ·.plane)).sum else 0)

namespace Resolution

variable {C : Canon} {V : Vllm} {host : PlannerHostSnapshot} {raw : RawRequest}
  {scope : BuildScope} (r : Resolution C V host raw scope)

/-- The steps of a node, over all regions. -/
def nodeSteps (node : ShapeEnvelopeNode) : Nat :=
  warmupSteps r.optimization node.intent *
    warmedRegions scope (r.regions.map (·.shapePlanes)) node.plane

variable (scope) in
/-- The steps of an obligation, if the readiness keeps it. -/
def keptSteps (o : WarmupObligation) : Nat :=
  if scope.readiness.all (·.keeps o) then o.stepCount else 0

/-- The steps of the obligations that a node of the envelope has. -/
theorem sum_keptSteps {node : ShapeEnvelopeNode} (hnode : node ∈ r.envelope.nodes)
    (hintent : node.intent ≠ .uncoveredResidual) :
    (((r.regions.filter (needsWarmup r.optimization node)).map
      (warmupObligation (raw.normalize C) r.optimization node)).map (keptSteps scope)).sum =
      r.nodeSteps node := by
  obtain ⟨-, ⟨owner, howner, hplanes⟩, hcorrectness⟩ := r.mem_envelope.mp hnode
  have hneeds : ∀ region ∈ r.regions, needsWarmup r.optimization node region =
      decide (node.plane ∈ region.shapePlanes ∨ node.plane = .correctness) := by
    intro region hregion
    rw [Bool.eq_iff_iff, decide_eq_true_eq]
    refine ⟨fun h => ?_, r.needsWarmup_of_mem hnode hintent⟩
    rw [needsWarmup, decide_eq_true_eq] at h
    exact h.2.2
  have hcount : r.regions.countP (needsWarmup r.optimization node) =
      (r.regions.map (·.shapePlanes)).countP fun planes =>
        node.plane ∈ planes ∨ node.plane = .correctness := by
    rw [List.countP_map]
    exact List.countP_congr fun region hregion => by rw [hneeds region hregion]; rfl
  have hsteps : ∀ region,
      keptSteps scope (warmupObligation (raw.normalize C) r.optimization node region) =
        if scope.readiness ≠ some .earlyServe then warmupSteps r.optimization node.intent
          else 0 := by
    intro region
    rw [keptSteps, r.keeps_warmupObligation hnode]
    simp only [decide_eq_true_eq]
    rfl
  rw [List.map_map]
  refine (sum_map_const fun region _ => hsteps region).trans ?_
  rw [← List.countP_eq_length_filter, hcount, nodeSteps, warmedRegions]
  by_cases hready : scope.readiness = some .earlyServe
  · simp [hready]
  · rw [if_pos hready, if_neg, Nat.mul_comm]
    rintro (h | ⟨h, hne⟩ | h)
    · exact hready h
    · exact hne (hcorrectness h)
    · exact h _ (List.mem_map_of_mem howner) hplanes

/-- A node that the scope drops has no steps. -/
theorem nodeSteps_eq_zero {node : ShapeEnvelopeNode}
    (h : ¬((∃ region ∈ r.regions, node.plane ∈ region.shapePlanes) ∧
      (scope.readiness = some .correctness → node.plane = .correctness))) :
    r.nodeSteps node = 0 := by
  rw [nodeSteps, warmedRegions, if_pos, Nat.mul_zero]
  by_cases hregion : ∃ region ∈ r.regions, node.plane ∈ region.shapePlanes
  · exact .inr (.inl (Classical.not_imp.mp fun hplane => h ⟨hregion, hplane⟩))
  · refine .inr (.inr fun planes hplanes hplane => hregion ?_)
    obtain ⟨region, hmem, rfl⟩ := List.mem_map.mp hplanes
    exact ⟨region, hmem, hplane⟩

/-- The obligations have the steps of all nodes: those that the scope drops have none. -/
theorem sum_stepCount : (r.obligations.map (·.stepCount)).sum =
    ((shapeEnvelope (raw.normalize C) r.expanded r.optimization).nodes.map r.nodeSteps).sum := by
  have hkept : (r.obligations.map (·.stepCount)).sum =
      (r.neededWarmup.map (keptSteps scope)).sum := by
    rw [(r.obligations_perm.map _).sum_nat, ← sum_map_filter (f := keptSteps scope)
      (p := fun o => scope.readiness.all (·.keeps o))]
    · refine congrArg List.sum (List.map_congr_left fun o ho => ?_)
      rw [keptSteps, if_pos (List.mem_filter.mp ho).2]
    · intro o _ ho
      rw [keptSteps, ho]
      rfl
  have hresidual : ((r.envelope.nodes.filter (·.intent ≠ .uncoveredResidual)).map
      r.nodeSteps).sum = (r.envelope.nodes.map r.nodeSteps).sum := by
    refine sum_map_filter fun node _ hnode => ?_
    rw [decide_eq_false_iff_not, not_not] at hnode
    rw [nodeSteps, hnode]
    exact Nat.zero_mul _
  have henvelope : (r.envelope.nodes.map r.nodeSteps).sum =
      ((shapeEnvelope (raw.normalize C) r.expanded r.optimization).nodes.map r.nodeSteps).sum := by
    rw [Assembly.envelope, scopedShapeEnvelope, ((sort_perm _).map _).sum_nat]
    refine sum_map_filter fun node _ hnode => r.nodeSteps_eq_zero ?_
    simpa using hnode
  rw [hkept, Assembly.neededWarmup, sum_map_flatMap, ← henvelope, ← hresidual]
  refine congrArg List.sum (List.map_congr_left fun node hnode => ?_)
  rw [List.mem_filter, decide_eq_true_eq] at hnode
  exact r.sum_keptSteps hnode.1 hnode.2

theorem viableSelection_eq : viableSelection C V host raw = some (r.survey, r.viable) := by
  simp only [viableSelection, r.surveyed, r.viable_eq]

theorem selectedRegions_eq : selectedRegions C V host raw scope =
    r.survey.compileRegions.filter (regionSelected r.limited scope) := by
  rw [selectedRegions, r.viableSelection_eq]
  rfl

theorem planes_perm : (r.regions.map (·.shapePlanes)).Perm
    ((selectedRegions C V host raw scope).map (·.shapePlanes)) := by
  rw [r.selectedRegions_eq, Assembly.regions, compileRegions]
  refine ((sort_perm _).map _).trans ?_
  rw [List.map_map]
  exact .refl _

theorem sum_stepCount_eq_warmupDemand :
    (r.obligations.map (·.stepCount)).sum = warmupDemand C V host raw scope := by
  have hsteps : ∀ node, r.nodeSteps node = warmupSteps (.fromLevel .o0) node.intent *
      warmedRegions scope
        ((selectedRegions C V host raw scope).map (·.shapePlanes)) node.plane := by
    intro node
    rw [nodeSteps, warmedRegions_perm r.planes_perm, ← warmupSteps_fromLevel]
    rfl
  rw [r.sum_stepCount, List.map_congr_left fun node _ => hsteps node, shapeEnvelope,
    ((sort_perm _).map _).sum_nat, warmupDemand]
  generalize warmedRegions scope ((selectedRegions C V host raw scope).map (·.shapePlanes)) = count
  have hshapes : ∀ label backend (shapes : List ShapePoint),
      ((shapes.map (hotShapeNode label · backend)).map fun node =>
        warmupSteps (.fromLevel .o0) node.intent * count node.plane).sum =
      (shapes.map (count ·.plane)).sum := by
    intro label backend shapes
    rw [List.map_map]
    refine congrArg List.sum (List.map_congr_left fun shape _ => ?_)
    exact Nat.one_mul _
  simp only [List.map_append, List.sum_append, apply_ite (List.map _), apply_ite List.sum,
    List.map_cons, List.map_nil, List.sum_cons, List.sum_nil, hshapes, Nat.add_zero]
  have hresidual : warmupSteps (.fromLevel .o0) .uncoveredResidual = 0 := rfl
  rw [hresidual, Nat.zero_mul, ite_self, Nat.add_zero]
  rfl

end Resolution

/-- **The limit of the request**: it is kept exactly when the request asks for no more steps. -/
theorem warmup_limit_iff {C : Canon} {V : Vllm} {host : PlannerHostSnapshot}
    {raw : RawRequest} {scope : BuildScope} {outcome : PlanningOutcome}
    (h : resolveScoped C V host raw scope = .ok outcome) :
    (outcome.plan.warmupObligations.map (·.stepCount)).sum ≤ raw.warmupPolicy.maxWarmupSteps ↔
      warmupDemand C V host raw scope ≤ raw.warmupPolicy.maxWarmupSteps := by
  obtain ⟨r, rfl⟩ := Resolution.exists_of_ok h
  show (r.obligations.map _).sum ≤ _ ↔ _
  rw [r.sum_stepCount_eq_warmupDemand]

/-- The sample asks for three steps in each of its two regions. -/
theorem warmupDemand_amd (target : AmdTarget) :
    warmupDemand amdExecutor.canon amdExecutor.vllm amdHost (amdRequest target) bodyScope = 6 := by
  rw [← (amdPlanFor target).sum_stepCount_eq_warmupDemand]
  exact ((obligations_perm_amd .ideal target).map _).sum_nat

/-- A limit of six steps is kept. -/
theorem warmup_limit_amd :
    ((amdPlanFor { AmdTarget.standard ⟨1, 1, 1⟩ with
      warmupPolicy := ⟨6, false⟩ }).outcome.plan.warmupObligations.map (·.stepCount)).sum ≤ 6 :=
  (warmup_limit_iff (amdPlanFor _).resolveScoped_eq).mpr (warmupDemand_amd _).le

/-- A limit of no steps is not: the request's limit is never read. -/
theorem warmup_limit_exceeded :
    (amdRequest (.standard ⟨1, 1, 1⟩)).warmupPolicy.maxWarmupSteps = 0 ∧
    resolveScoped amdExecutor.canon amdExecutor.vllm amdHost (amdRequest (.standard ⟨1, 1, 1⟩))
      bodyScope = .ok (amdPlan ⟨1, 1, 1⟩).outcome ∧
    ((amdPlan ⟨1, 1, 1⟩).outcome.plan.warmupObligations.map (·.stepCount)).sum = 6 := by
  refine ⟨rfl, (amdPlan ⟨1, 1, 1⟩).resolveScoped_eq, ?_⟩
  exact ((obligations_perm_amd .ideal (.standard ⟨1, 1, 1⟩)).map _).sum_nat

end Sock.Engine
