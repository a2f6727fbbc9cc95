/-
  What the identity of a plan determines.

  * `PlanParts.agree_of_planIdentity`: the identity has the parts that it hashes.
  * `Assembly.obligations_eq_of_nodes`: the obligations are determined by the graph, since the
    readinesses keep more and more of them.
  * `plan_eq_of_planIdentity`: the rest of a plan is a function of these parts and the survey, the
    label of the requested readiness apart.
-/
import Sock.Core.Pretty
import Sock.Engine.Valid

namespace Sock.Core

open Lib

/-! ## Hashed parts -/

/-- The parts that the plan identity determines. -/
structure PlanParts.Agree (p p' : PlanParts) : Prop where
  requestIdentity : p.normalized.identity = p'.normalized.identity
  backendDecision : p.backendDecision = p'.backendDecision
  backendRegistry : p.backendRegistry = p'.backendRegistry
  capabilityWitnesses : p.capabilityWitnesses = p'.capabilityWitnesses
  selectedBackends : p.selectedBackends = p'.selectedBackends
  compileRegions : p.compileRegions = p'.compileRegions
  shapeEnvelope : p.shapeEnvelope = p'.shapeEnvelope
  artifactRequirements : p.artifactRequirements = p'.artifactRequirements
  materializationGraph : p.materializationGraph = p'.materializationGraph
  guaranteeEnvelope : p.guaranteeEnvelope = p'.guaranteeEnvelope

theorem PlanParts.agree_of_planIdentity {C : Canon} (hC : C.CollisionFree) {p p' : PlanParts}
    (h : (structuralIdentity C p).planIdentity = (structuralIdentity C p').planIdentity) :
    p.Agree p' := by
  have hitems := hC.items_eq h
  simp only [List.map_cons, List.cons.injEq, sortJson_toValue_inj] at hitems
  obtain ⟨-, hdecision, hselected, hregions, henvelope, hrequirements, hgraph, hguarantee, hrequest,
    hregistry, hwitnesses, -⟩ := hitems
  exact ⟨hrequest, hC.eq_of_canonicalHash hdecision, hC.eq_of_canonicalHash hregistry,
    hC.eq_of_canonicalHash hwitnesses, hselected, hregions, henvelope, hrequirements, hgraph,
    hguarantee⟩

end Sock.Core

namespace Sock.Engine

open Lib Sock.Core Fallible

/-! ## Readiness -/

/-- Of two readinesses one keeps everything that the other one keeps. -/
theorem keeps_total (readiness readiness' : Option BuildReadiness) :
    (∀ o, readiness.all (·.keeps o) = true → readiness'.all (·.keeps o) = true) ∨
      ∀ o, readiness'.all (·.keeps o) = true → readiness.all (·.keeps o) = true := by
  rcases readiness with _ | _ | _ | _ <;> rcases readiness' with _ | _ | _ | _ <;>
    simp [BuildReadiness.keeps]

theorem filter_keeps_eq {obligations : List WarmupObligation}
    {readiness readiness' : Option BuildReadiness}
    (h : (obligations.filter fun o => readiness.all (·.keeps o)).length =
      (obligations.filter fun o => readiness'.all (·.keeps o)).length) :
    (obligations.filter fun o => readiness.all (·.keeps o)) =
      obligations.filter fun o => readiness'.all (·.keeps o) := by
  rcases keeps_total readiness readiness' with hkeeps | hkeeps
  · exact (List.monotone_filter_right obligations hkeeps).eq_of_length h
  · exact ((List.monotone_filter_right obligations hkeeps).eq_of_length h.symm).symm

/-! ## Plans from their parts -/

/-- A plan from the parts that its identity hashes, the survey and the obligations. -/
def planFrom (C : Canon) (readiness : Option String) (survey : AdapterSurvey)
    (obligations : List WarmupObligation) (p : PlanParts) : ResolvedBuildPlan :=
  let manifest := p.artifactRequirements.map
    (ResolvedBuildPlan.manifestEntry p.selectedBackends.primary.family)
  let evidence : GuaranteeEvidence :=
    { capabilityWitnesses := p.capabilityWitnesses
      artifactManifest := manifest
      warmupObligations := obligations
      coverageWitnesses :=
        coverageWitnesses p.shapeEnvelope manifest p.guaranteeEnvelope.residualRisks
      runtimeJitEvidence := runtimeJitEvidence C p.normalized p.selectedBackends p.compileRegions
        obligations p.artifactRequirements survey }
  { normalizedRequest := p.normalized
    requestedReadiness := readiness
    optimizationEnvelope := .fromLevel p.normalized.optimizationPolicy.level
    backendDecision := p.backendDecision
    backendRegistry := p.backendRegistry
    selectedBackends := p.selectedBackends
    compileRegions := p.compileRegions
    shapeEnvelope := p.shapeEnvelope
    artifactRequirements := p.artifactRequirements
    warmupObligations := obligations
    materializationGraph := p.materializationGraph
    guaranteeEnvelope := p.guaranteeEnvelope
    guaranteeEvidence := evidence
    rewriteTrace := rewriteTrace C p.normalized p.selectedBackends p.compileRegions
      p.shapeEnvelope p.artifactRequirements obligations p.materializationGraph
      p.guaranteeEnvelope survey
    structuralIdentity := structuralIdentity C { p with guaranteeEvidence := evidence } }

theorem planFrom_congr {C : Canon} {readiness : Option String} {survey : AdapterSurvey}
    {obligations : List WarmupObligation} {p p' : PlanParts} (h : p.Agree p')
    (hrequest : p.normalized = p'.normalized) :
    planFrom C readiness survey obligations p = planFrom C readiness survey obligations p' := by
  unfold planFrom
  simp only [hrequest, h.backendDecision, h.backendRegistry, h.capabilityWitnesses,
    h.selectedBackends, h.compileRegions, h.shapeEnvelope, h.artifactRequirements,
    h.materializationGraph, h.guaranteeEnvelope]

section Agree

variable {C : Canon} {V V' : Vllm} {host host' : PlannerHostSnapshot} {raw raw' : RawRequest}
  {scope scope' : BuildScope} (r : Assembly C V host raw scope)
  (r' : Assembly C V' host' raw' scope')

namespace Assembly

theorem normalize_eq (hC : C.CollisionFree)
    (h : (raw.normalize C).identity = (raw'.normalize C).identity) :
    raw.normalize C = raw'.normalize C := by
  have hcanonical : raw.canonicalize = raw'.canonicalize := hC.eq_of_canonicalHash h
  rw [RawRequest.normalize, RawRequest.normalize, hcanonical]

theorem planIdentity_plan :
    r.plan.planIdentity = (structuralIdentity C r.plan.parts).planIdentity := by
  unfold plan assemblePlan ResolvedBuildPlan.planIdentity ResolvedBuildPlan.parts
  dsimp only

theorem plan_eq_planFrom : r.plan =
    planFrom C r.plan.requestedReadiness r.survey r.obligations r.plan.parts := by
  unfold plan assemblePlan planFrom ResolvedBuildPlan.parts guaranteeEnvelope
  dsimp only
  rfl

variable {r r'}

/-- The obligations are those of the graph. -/
theorem obligations_eq_of_nodes (hrequest : raw.normalize C = raw'.normalize C)
    (henvelope : r.envelope = r'.envelope) (hregions : r.regions = r'.regions)
    (hrequirements : r.requirements = r'.requirements) (hnodes : r.nodes = r'.nodes) :
    r.obligations = r'.obligations := by
  have hneeded : r.neededWarmup = r'.neededWarmup := by
    have hoptimization : r.optimization = r'.optimization :=
      congrArg (fun request : NormalizedRequest =>
        OptimizationEnvelope.fromLevel request.optimizationPolicy.level) hrequest
    rw [neededWarmup, neededWarmup, henvelope, hregions, hrequest, hoptimization]
  have hlength : r.obligations.length = r'.obligations.length := by
    have htopology : raw.topology = raw'.topology :=
      congrArg (fun request : NormalizedRequest => request.topology) hrequest
    have h := congrArg List.length hnodes
    rw [nodes, nodes, graphNodes, graphNodes, hrequirements, htopology] at h
    simpa using h
  rw [r.obligations_perm.length_eq, r'.obligations_perm.length_eq, ← hneeded] at hlength
  rw [r.obligations_eq, r'.obligations_eq, ← hneeded, filter_keeps_eq hlength]

/-- A plan is determined by its hashed parts and the survey. -/
theorem plan_eq_of_agree (hC : C.CollisionFree) (hsurvey : r.survey = r'.survey)
    (h : r.plan.parts.Agree r'.plan.parts) :
    { r.plan with requestedReadiness := r'.plan.requestedReadiness } = r'.plan := by
  have hrequest := normalize_eq hC h.requestIdentity
  have hobligations := obligations_eq_of_nodes hrequest h.shapeEnvelope h.compileRegions
    h.artifactRequirements (congrArg (·.nodes) h.materializationGraph)
  calc { r.plan with requestedReadiness := r'.plan.requestedReadiness }
    _ = planFrom C r'.plan.requestedReadiness r.survey r.obligations r.plan.parts := by
        conv_lhs => rw [r.plan_eq_planFrom]
        rfl
    _ = planFrom C r'.plan.requestedReadiness r'.survey r'.obligations r'.plan.parts := by
        rw [hsurvey, hobligations, planFrom_congr h hrequest]
    _ = r'.plan := r'.plan_eq_planFrom.symm

end Assembly

end Agree

/-- **Identity.** Two plans over one survey with the same identity are the same, the label of the
    requested readiness apart. -/
theorem plan_eq_of_planIdentity {C : Canon} {V V' : Vllm} {host host' : PlannerHostSnapshot}
    {raw raw' : RawRequest} {scope scope' : BuildScope} {outcome outcome' : PlanningOutcome}
    (hC : C.CollisionFree) (h : resolveScoped C V host raw scope = .ok outcome)
    (h' : resolveScoped C V' host' raw' scope' = .ok outcome')
    (hsurvey : outcome.adapterSurvey = outcome'.adapterSurvey)
    (hidentity : outcome.plan.planIdentity = outcome'.plan.planIdentity) :
    { outcome.plan with requestedReadiness := outcome'.plan.requestedReadiness } =
      outcome'.plan := by
  obtain ⟨r, rfl⟩ := Resolution.exists_of_ok h
  obtain ⟨r', rfl⟩ := Resolution.exists_of_ok h'
  have hparts := (r.planIdentity_plan.symm.trans hidentity).trans r'.planIdentity_plan
  exact Assembly.plan_eq_of_agree hC hsurvey (PlanParts.agree_of_planIdentity hC hparts)

/-- The sample on a host with another C library, which a plan does not read. -/
def muslAssembly (C : Canon) (target : AmdTarget) : Assembly C vendoredVllm
    { amdHost with libcAbi := "musl-1.2" } (amdRequest target) bodyScope :=
  { amdAssembly C target with viable_eq := rfl, expanded_eq := rfl }

theorem plan_muslAssembly (C : Canon) (target : AmdTarget) :
    (muslAssembly C target).plan = (amdAssembly C target).plan := rfl

noncomputable def muslPlan (target : AmdTarget) : Resolution .ideal vendoredVllm
    { amdHost with libcAbi := "musl-1.2" } (amdRequest target) bodyScope :=
  ⟨muslAssembly .ideal target, by
    rw [plan_muslAssembly]
    exact issues_amd .ideal target Canon.ideal_collisionFree Canon.ideal_nonBlank⟩

theorem plan_eq_of_planIdentity_amd :
    (amdAssembly .ideal (.standard ⟨1, 1, 1⟩)).plan = (muslPlan (.standard ⟨1, 1, 1⟩)).plan := by
  exact plan_eq_of_planIdentity Canon.ideal_collisionFree
    (amdResolution .ideal (.standard ⟨1, 1, 1⟩) Canon.ideal_collisionFree
      Canon.ideal_nonBlank).resolveScoped_eq
    (muslPlan (.standard ⟨1, 1, 1⟩)).resolveScoped_eq rfl
    (congrArg (·.planIdentity) (plan_muslAssembly .ideal _).symm)

end Sock.Engine
