/-
  What a resolved plan promises: its artifacts follow the policy of the request, and what the level
  of the guarantee envelope rests on.

  * `RespectsPolicy`, `requirements_respect_policy`: the backend of every artifact is selected, and
    its acquisition is allowed by the registry and permitted by the packaging strategy.
  * `KeepsDynamicTail`, `Resolution.achieved_strict_iff`: the strict level says that no node is left
    uncovered, and that the request asked for verified captures.
  * `FreeOfSurfaces`, `Resolution.lazyCompile_free_iff`: it does not say that no surface of the
    survey is left; only plans for the KV cache update are free of them.
  * `strict_no_surprise_jit_iff`: when the strict level is justified.
-/
import Sock.Engine.Closure

namespace Sock.Engine

open Lib Sock.Core Fallible

/-! ## Policies -/

/-- The acquisitions that a packaging strategy leaves open. -/
def Permits : PackagingStrategy → ArtifactAcquisition → Prop
  | .prebuiltOnly, acquisition => acquisition = .vendorPrebuilt
  | .preferPrebuiltThenAot, acquisition => acquisition ≠ .localSourceBuild
  | .preferPrebuiltThenAotThenJit, _ => True

theorem packagingRejections_eq_nil_iff {strategy : PackagingStrategy}
    {acquisition : ArtifactAcquisition} :
    packagingRejections strategy acquisition = [] ↔ Permits strategy acquisition := by
  cases strategy <;> simp [packagingRejections, Permits]

/-- The artifact comes from a backend that is selected, in a way that the registry allows for it and
    the packaging strategy permits, and all that the registry requires for it is witnessed. -/
structure RespectsPolicy (raw : RawRequest) (plan : ResolvedBuildPlan) (q : ArtifactRequirement) :
    Prop where
  selected : q.backend ∈ plan.selectedBackends.candidates.map (·.family)
  registered : ∃ entry ∈ plan.backendRegistry.entries, entry.family = q.backend
  allowed : ∀ entry ∈ plan.backendRegistry.entries, entry.family = q.backend →
    q.acquisition ∈ entry.allowedAcquisitions
  witnessed : ∀ entry ∈ plan.backendRegistry.entries, entry.family = q.backend →
    ∀ key ∈ entry.requiredWitnesses,
      ∃ w ∈ plan.guaranteeEvidence.capabilityWitnesses, w.key = key
  permitted : Permits raw.backendPolicy.packagingStrategy q.acquisition

namespace Assembly

variable {C : Canon} {V : Vllm} {host : PlannerHostSnapshot} {raw : RawRequest}
  {scope : BuildScope} (r : Assembly C V host raw scope)

theorem respectsPolicy {q : ArtifactRequirement} (h : q ∈ r.requirements) :
    RespectsPolicy raw r.plan q := by
  obtain ⟨candidate, hcandidate, hbackend, hacquisition⟩ := r.exists_candidate h
  obtain ⟨entry, hentry, hfamily, hallowed, hproof, hverdict⟩ := (r.admitted hcandidate).entry
  rw [hproof, verdict_eq_admissible_iff] at hverdict
  obtain ⟨-, -, hwitnesses, hpackaging⟩ := hverdict
  -- the registry has no other entry for the backend
  have hunique : ∀ entry' ∈ r.plan.backendRegistry.entries, entry'.family = q.backend →
      entry' = entry := by
    intro entry' hentry' hfamily'
    exact eq_of_mem_registry hentry' hentry (by rw [hfamily', hfamily, hbackend])
  refine ⟨r.backend_mem h, ⟨entry, hentry, hfamily.trans hbackend⟩, ?_, ?_, ?_⟩
  · intro entry' hentry' hfamily'
    rw [hunique entry' hentry' hfamily', hacquisition]
    exact hallowed
  · intro entry' hentry' hfamily'
    rw [hunique entry' hentry' hfamily', r.capabilityWitnesses_plan]
    exact hwitnesses
  · rw [hacquisition]
    exact packagingRejections_eq_nil_iff.mp hpackaging

end Assembly

/-- **Policies are respected** by every artifact of a resolved plan, and a request for prebuilt
    artifacts never has one built locally. -/
theorem requirements_respect_policy {C : Canon} {V : Vllm} {host : PlannerHostSnapshot}
    {raw : RawRequest} {scope : BuildScope} {outcome : PlanningOutcome}
    (h : resolveScoped C V host raw scope = .ok outcome) :
    ∀ q ∈ outcome.plan.artifactRequirements, RespectsPolicy raw outcome.plan q ∧
      (raw.backendPolicy.packagingStrategy = .prebuiltOnly →
        q.acquisition ≠ .localAotBuild ∧ q.acquisition ≠ .localSourceBuild) := by
  obtain ⟨r, rfl⟩ := Resolution.exists_of_ok h
  intro q hq
  have hrespects := r.respectsPolicy hq
  refine ⟨hrespects, fun hstrategy => ?_⟩
  have hpermitted := hrespects.permitted
  rw [hstrategy] at hpermitted
  rw [show q.acquisition = .vendorPrebuilt from hpermitted]
  decide

/-! ### A plan of prebuilt artifacts -/

/-- The host with the prebuilt binaries of FlashInfer. -/
def prebuiltHost : PlannerHostSnapshot := { nvidiaHost with flashinferPrebuiltAvailable := true }

/-- A request for prebuilt artifacts that asks for verified captures. -/
def prebuiltRequest : RawRequest :=
  { nvidiaRequest with
    backendPolicy := ⟨[.flashInfer], .prebuiltOnly, ⟨.forbidden, 0⟩, ⟨.advisory, .failOpen⟩,
      ⟨.advisory, .failOpen⟩⟩
    warmupPolicy := ⟨0, true⟩ }

def updateScope : BuildScope := { BuildScope.unscoped with regionNames := ["kv_cache_update"] }

/-- The capability of FlashInfer, the first of the table. -/
def flashInferCapability : BackendCapability := capabilityTable.get ⟨0, by decide⟩

/-- The selected backend. -/
def flashInferCandidate : BackendCandidate :=
  backendCandidate .flashInfer
    { verdict := .admissible
      family := .flashInfer
      acquisition := .vendorPrebuilt
      packagingStrategy := .prebuiltOnly
      requiredWitnesses := ["flashinfer.prebuilt"]
      satisfiedWitnesses := ["flashinfer.prebuilt"]
      rejectedReasons := []
      provenance := flashInferCapability.provenance }

def flashInferSelection : BackendSelection := ⟨flashInferCandidate, []⟩

section Prebuilt

variable (C : Canon)

theorem selectBackends_prebuilt {witnesses : List CapabilityWitness}
    (h : witnesses.any (·.key = "flashinfer.prebuilt") = true) :
    selectBackends (prebuiltRequest.normalize C) witnesses
      (backendRegistry (prebuiltRequest.normalize C)) = .ok flashInferSelection := by
  refine selectBackends_single (of_decide_eq_true rfl) rfl
    (rfl : _ = some flashInferCapability) ?_
  refine (@admissibleProof?_congr _ _ [witness "flashinfer.prebuilt" "" ""] _
    fun key hkey => ?_).trans rfl
  cases List.mem_singleton.mp hkey
  exact h

theorem flashinfer_prebuilt_available :
    (capabilityWitnesses prebuiltHost (prebuiltRequest.normalize C) vendoredSurvey).any
      (·.key = "flashinfer.prebuilt") = true := by
  rw [capabilityWitnesses, (sort_perm _).any_eq]
  rfl

def prebuiltAssembly : Assembly C vendoredVllm prebuiltHost prebuiltRequest updateScope where
  survey := vendoredSurvey
  viable := flashInferSelection
  expanded := flashInferSelection
  surveyed := survey_vendoredVllm
  viable_eq := selectBackends_prebuilt C (flashinfer_prebuilt_available C)
  regions_ne_nil := fun h => by cases h
  expanded_eq := rfl

/-- The one region of the plan. -/
def updateRegion : CompileRegion :=
  compileRegion C flashInferSelection
    (kvCacheUpdate.located fun _ pattern => (anchorLine pattern).getD 0)

/-- The one node of the envelope. -/
def updateRange : ShapeEnvelopeNode :=
  ⟨"correctness-range", .correctness, .symbolicRange, ⟨1, 8, 1, 4096⟩, none, [.flashInfer]⟩

theorem envelope_prebuilt : (prebuiltAssembly C).envelope = ⟨[updateRange]⟩ := rfl

theorem obligations_prebuilt : (prebuiltAssembly C).obligations =
    [warmupObligation (prebuiltRequest.normalize C) (.fromLevel .o0) updateRange
      (updateRegion C)] := rfl

theorem requirements_perm_prebuilt : (prebuiltAssembly C).requirements.Perm
    (regionRequirements C (prebuiltRequest.normalize C) (prebuiltAssembly C).witnesses
      ⟨[updateRange]⟩ flashInferSelection (updateRegion C)) :=
  (sort_perm _).trans (.of_eq rfl)

theorem issues_prebuilt (hC : C.CollisionFree) (hblank : C.NonBlank) :
    (prebuiltAssembly C).plan.issues = [] :=
  Assembly.issues_eq_nil_of_range _ hC hblank (congrArg _ (envelope_prebuilt C))
    (.of_eq (obligations_prebuilt C)) (requirements_perm_prebuilt C) rfl (by decide)
    (fun h => by cases h) List.mem_cons_self (List.nodup_singleton _) (of_decide_eq_true rfl)

end Prebuilt

/-- The sample, resolved. -/
noncomputable def prebuiltPlan :
    Resolution amdExecutor.canon amdExecutor.vllm prebuiltHost prebuiltRequest updateScope :=
  ⟨prebuiltAssembly .ideal, issues_prebuilt .ideal Canon.ideal_collisionFree Canon.ideal_nonBlank⟩

/-- The sample has artifacts, and none of them is built locally. -/
theorem requirements_respect_policy_prebuilt :
    prebuiltPlan.outcome.plan.artifactRequirements ≠ [] ∧
      ∀ q ∈ prebuiltPlan.outcome.plan.artifactRequirements,
        RespectsPolicy prebuiltRequest prebuiltPlan.outcome.plan q ∧
          q.acquisition ≠ .localAotBuild ∧ q.acquisition ≠ .localSourceBuild := by
  refine ⟨fun hnil => ?_, fun q hq => ?_⟩
  · have hperm := requirements_perm_prebuilt .ideal
    rw [show (prebuiltAssembly .ideal).requirements = [] from hnil] at hperm
    cases hperm.symm.eq_nil
  · obtain ⟨hrespects, hlocal⟩ := requirements_respect_policy prebuiltPlan.resolveScoped_eq q hq
    exact ⟨hrespects, hlocal rfl⟩

/-! ## The strict level -/

section Conditions

variable (C : Canon) (V : Vllm) (host : PlannerHostSnapshot) (raw : RawRequest)
  (scope : BuildScope)

/-- The tail of dynamic shapes stays in the plan: the request bounds it, and a region of the
    performance plane is selected with a readiness that asks for the plane. -/
def KeepsDynamicTail : Prop :=
  raw.backendPolicy.runtimeJitPolicy.disposition = .shapeBounded ∧
    scope.readiness ≠ some .correctness ∧
    ∃ region ∈ selectedRegions C V host raw scope, .performance ∈ region.shapePlanes

/-- No surface of the survey is left in the plan: it is for the KV cache update alone, and
    FlashInfer does not tune it on several ranks. -/
def FreeOfSurfaces : Prop :=
  (∀ name ∈ (selectedRegions C V host raw scope).map (·.canonicalName),
      name = "kv_cache_update") ∧
    (primaryFamily C V host raw = some .flashInfer → raw.topology.tensorParallelism = 1)

/-- The level warms up every exact shape of the request, in a plane that the KV cache update has and
    the readiness asks for. -/
def WarmsShapes : Prop :=
  let optimization := OptimizationEnvelope.fromLevel raw.optimizationPolicy.level
  let shapes := raw.shapePolicy
  ∀ shape ∈ shapes.hotShapes ++ shapes.cudaGraphShapes,
    ((optimization.includePerformanceWarmup = true ∧ shape ∈ shapes.hotShapes) ∨
      (optimization.includeCudaGraphs = true ∧ shape ∈ shapes.cudaGraphShapes)) ∧
    shape.plane ∈ kvCacheUpdate.shapePlanes ∧
    (scope.readiness = some .correctness → shape.plane = .correctness)

end Conditions

namespace Resolution

variable {C : Canon} {V : Vllm} {host : PlannerHostSnapshot} {raw : RawRequest}
  {scope : BuildScope} (r : Resolution C V host raw scope)

theorem exists_plane_iff {plane : CoveragePlane} :
    (∃ region ∈ r.regions, plane ∈ region.shapePlanes) ↔
      ∃ region ∈ selectedRegions C V host raw scope, plane ∈ region.shapePlanes := by
  have hplanes := fun planes => r.planes_perm.mem_iff (a := planes)
  simp only [List.mem_map] at hplanes
  constructor
  · rintro ⟨region, hregion, hplane⟩
    obtain ⟨surveyed, hmem, heq⟩ := (hplanes _).mp ⟨region, hregion, rfl⟩
    exact ⟨surveyed, hmem, heq ▸ hplane⟩
  · rintro ⟨surveyed, hmem, hplane⟩
    obtain ⟨region, hregion, heq⟩ := (hplanes _).mpr ⟨surveyed, hmem, rfl⟩
    exact ⟨region, hregion, heq ▸ hplane⟩

theorem exists_residual_iff : (∃ node ∈ r.envelope.nodes, node.intent = .uncoveredResidual) ↔
    KeepsDynamicTail C V host raw scope := by
  rw [KeepsDynamicTail, ← r.exists_plane_iff]
  constructor
  · rintro ⟨node, hnode, hintent⟩
    obtain ⟨hmem, hregion, hready⟩ := r.mem_envelope.mp hnode
    rcases mem_shapeEnvelope.mp hmem with rfl | ⟨-, rfl | ⟨shape, -, rfl⟩⟩ | ⟨-, shape, -, rfl⟩ |
      ⟨hdisposition, rfl⟩
    · cases hintent
    · cases hintent
    · cases hintent
    · cases hintent
    · refine ⟨hdisposition, fun h => ?_, hregion⟩
      cases hready h
  · rintro ⟨hdisposition, hready, hregion⟩
    exact ⟨_, r.mem_envelope.mpr ⟨mem_shapeEnvelope.mpr (.inr (.inr (.inr ⟨hdisposition, rfl⟩))),
      hregion, fun h => absurd h hready⟩, rfl⟩

/-- **The strict level** says that no tail is kept and that the request asked for verified
    captures. -/
theorem achieved_strict_iff :
    r.plan.guaranteeEnvelope.achievedPerformance = .strictNoSurpriseJit ↔
      raw.warmupPolicy.verifyCudaGraphCapture = true ∧ ¬ KeepsDynamicTail C V host raw scope := by
  have hlevel : ∀ residual verified : Bool,
      (if !residual && verified then GuaranteeLevel.strictNoSurpriseJit
        else if !residual then .shapeBoundedAot else .warmupBounded) = .strictNoSurpriseJit ↔
      verified = true ∧ residual = false := by decide
  have hresidual : r.envelope.nodes.any (·.intent = .uncoveredResidual) = false ↔
      ¬ KeepsDynamicTail C V host raw scope := by
    rw [← r.exists_residual_iff, ← Bool.not_eq_true, List.any_eq_true]
    simp only [decide_eq_true_eq]
  rw [← hresidual]
  exact hlevel _ _

/-! ### Risks -/

/-- A lazy compile is at risk for each surface that applies, unless it affects no region, and for
    the tail. -/
theorem lazyCompile_free_iff :
    (∀ risk ∈ r.plan.guaranteeEnvelope.residualRisks,
        risk.hazardClass ≠ .residualLazyCompile) ↔
      (∀ surface ∈ applicableSurfaces (raw.normalize C) r.expanded r.survey,
        scope.isUnscoped = false ∧ ∀ name ∈ surface.affectedRegions, ¬ r.HasRegion name) ∧
      ¬ KeepsDynamicTail C V host raw scope := by
  have hrisks : r.plan.guaranteeEnvelope.residualRisks = residualRisks (raw.normalize C)
      r.envelope r.expanded r.survey r.regions scope := rfl
  rw [hrisks, residualRisks, ← r.exists_residual_iff]
  simp only [List.forall_mem_append, List.forall_mem_map]
  refine (and_iff_left ?_).trans (and_congr ?_ ?_)
  · -- reuse across machines is a risk of another kind
    split <;> simp
  · refine forall_congr' fun surface => ?_
    simp only [List.mem_filter, Bool.or_eq_true, List.any_eq_true, decide_eq_true_eq, HasRegion,
      ne_eq, not_true_eq_false, imp_false, not_and, not_or, not_exists, Bool.not_eq_true]
  · split
    case isTrue h => simpa using h
    case isFalse h => simpa using h

/-- Without a scope the body of the model is selected. -/
theorem hasRegion_of_isUnscoped (h : scope.isUnscoped = true) :
    r.HasRegion "transformer_block_body" := by
  have hseam : transformerBlockBody.toRegionSeam ∈ regionSeams := List.mem_cons_self
  rw [← seams_of_survey r.surveyed] at hseam
  obtain ⟨surveyed, hmem, hseam⟩ := List.mem_map.mp hseam
  have hbinding : surveyed.backendBinding = .primary := congrArg (·.backendBinding) hseam
  have hcandidate : surveyed.regionalCompileCandidate = true :=
    congrArg (·.regionalCompileCandidate) hseam
  simp only [BuildScope.isUnscoped, BuildScope.hasSubsetSelectors, Bool.and_eq_true,
    Bool.not_eq_true', Bool.or_eq_false_iff, Bool.not_eq_false'] at h
  obtain ⟨⟨⟨⟨⟨⟨hregions, hartifacts⟩, hfamilies⟩, htopologies⟩, hcaches⟩, hwarmups⟩, -⟩ := h
  refine ⟨_, r.mem_regions.mpr ⟨surveyed, hmem, ?_, rfl⟩, congrArg (·.canonicalName) hseam⟩
  simp [regionSelected, BuildScope.allowsRegion, BuildScope.allowsCacheNamespace,
    BuildScope.allowsWarmupScope, BuildScope.allowsRankDisposition,
    BuildScope.allowsBackendFamily, backendBindingIsAdmissible, hbinding, hcandidate, hregions,
    hartifacts, hfamilies, htopologies, hcaches, hwarmups]

theorem inductor_applicable (h : r.HasRegion "moe_specialty_path") :
    inductorCustomOpFallback ∈ applicableSurfaces (raw.normalize C) r.expanded r.survey := by
  obtain ⟨region, hregion, hname⟩ := h
  obtain ⟨seam, hseam, hcanonical, hfamily, -⟩ := r.exists_seam hregion
  have hbinding : ∀ seam ∈ regionSeams, seam.canonicalName = "moe_specialty_path" →
      seam.backendBinding = .fixed .aotInductor := by decide
  rw [hbinding seam hseam (hcanonical.trans hname)] at hfamily
  have hmem := r.family_mem hregion
  rw [hfamily] at hmem
  obtain ⟨candidate, hcandidate, hcandidateFamily⟩ := List.mem_map.mp hmem
  refine r.mem_applicableSurfaces.mpr ⟨by simp [residualJitSurfaces], ?_, ?_⟩
  · exact List.any_eq_true.mpr ⟨candidate, hcandidate, decide_eq_true hcandidateFamily⟩
  · have hcontext : topologyContextRequiresDistributedRanks
        inductorCustomOpFallback.topologyContext = false := by
      simp only [topologyContextRequiresDistributedRanks, contains, toList_asciiLowercase,
        inductorCustomOpFallback, String.toList_append, String.reduceToList]
      decide +kernel
    rw [surfaceIsTopologyApplicable, topologyContradiction, hcontext, Bool.and_false]
    rfl

/-- The regions other than the KV cache update are affected by a surface that applies. -/
theorem eq_update_of_unaffected
    (h : ∀ surface ∈ applicableSurfaces (raw.normalize C) r.expanded r.survey,
      ∀ name ∈ surface.affectedRegions, ¬ r.HasRegion name) {name : String}
    (hname : r.HasRegion name) : name = "kv_cache_update" := by
  obtain ⟨region, hregion, rfl⟩ := id hname
  obtain ⟨seam, hseam, hcanonical, -⟩ := r.exists_seam hregion
  have hnames : ∀ seam ∈ regionSeams, seam.canonicalName = "kv_cache_update" ∨
      seam.canonicalName ∈ guardDroppedDynamicShapes.affectedRegions ∨
      seam.canonicalName = "moe_specialty_path" := by decide
  have hcases := hnames seam hseam
  rw [hcanonical] at hcases
  rcases hcases with hupdate | hguard | hmoe
  · exact hupdate
  · exact absurd hname (h _ r.guard_applicable _ hguard)
  · rw [hmoe] at hname
    exact absurd hname (h _ (r.inductor_applicable hname) _ List.mem_cons_self)

theorem exists_hasRegion : ∃ name, r.HasRegion name := by
  obtain ⟨region, hregion⟩ := List.exists_mem_of_ne_nil _ r.regions_ne_nil
  exact ⟨region.name, region, hregion, rfl⟩

/-- **Surfaces.** None is left exactly in the plans for the KV cache update that FlashInfer does not
    tune on several ranks. -/
theorem surface_free_iff :
    (∀ surface ∈ applicableSurfaces (raw.normalize C) r.expanded r.survey,
      scope.isUnscoped = false ∧ ∀ name ∈ surface.affectedRegions, ¬ r.HasRegion name) ↔
      FreeOfSurfaces C V host raw scope := by
  simp only [FreeOfSurfaces, r.mem_selectedRegions, r.primaryFamily_eq, Option.some.injEq]
  constructor
  · intro h
    have hupdate : ∀ name, r.HasRegion name → name = "kv_cache_update" := fun _ hname =>
      r.eq_update_of_unaffected (fun surface hsurface => (h surface hsurface).2) hname
    refine ⟨hupdate, fun hprimary => ?_⟩
    by_contra hranks
    obtain ⟨name, hname⟩ := r.exists_hasRegion
    have hregion := hupdate name hname ▸ hname
    exact (h _ (r.flashinfer_applicable_iff.mpr ⟨hprimary, hranks⟩)).2 _ List.mem_cons_self hregion
  · rintro ⟨hupdate, hranks⟩ surface hsurface
    constructor
    · rw [← Bool.not_eq_true]
      intro hunscoped
      have hname := hupdate _ (r.hasRegion_of_isUnscoped hunscoped)
      revert hname
      decide
    · intro name hname hregion
      rw [hupdate name hregion] at hname
      -- the tuning of FlashInfer is the one surface that affects the KV cache update
      have htuning : ∀ surface ∈ residualJitSurfaces,
          "kv_cache_update" ∈ surface.affectedRegions → surface = flashinferTacticAutotune := by
        intro surface hmem haffected
        simp only [residualJitSurfaces, List.mem_cons, List.not_mem_nil, or_false] at hmem
        rcases hmem with rfl | rfl | rfl | rfl
        · rfl
        all_goals exact absurd haffected (by decide)
      cases htuning surface (r.mem_applicableSurfaces.mp hsurface).1 hname
      obtain ⟨hprimary, hdistributed⟩ := r.flashinfer_applicable_iff.mp hsurface
      exact hdistributed (hranks hprimary)

/-! ### Shapes and coverage -/

/-- The exact shapes of the envelope are those that the level warms up, in a plane of some region
    that the readiness asks for. -/
theorem exists_exactShape_iff {shape : ShapePoint} :
    (∃ node ∈ r.envelope.nodes, node.exactShape = some shape) ↔
      ((r.optimization.includePerformanceWarmup = true ∧ shape ∈ raw.shapePolicy.hotShapes) ∨
        (r.optimization.includeCudaGraphs = true ∧ shape ∈ raw.shapePolicy.cudaGraphShapes)) ∧
      (∃ region ∈ r.regions, shape.plane ∈ region.shapePlanes) ∧
      (scope.readiness = some .correctness → shape.plane = .correctness) := by
  have hhot : shape ∈ (raw.normalize C).shapePolicy.hotShapes ↔
      shape ∈ raw.shapePolicy.hotShapes := mem_dedup.trans (sort_perm _).mem_iff
  have hgraph : shape ∈ (raw.normalize C).shapePolicy.cudaGraphShapes ↔
      shape ∈ raw.shapePolicy.cudaGraphShapes := mem_dedup.trans (sort_perm _).mem_iff
  rw [← hhot, ← hgraph]
  constructor
  · rintro ⟨node, hnode, hshape⟩
    obtain ⟨hmem, hregion, hready⟩ := r.mem_envelope.mp hnode
    rcases mem_shapeEnvelope.mp hmem with rfl | ⟨hlevel, rfl | ⟨shape', hshape', rfl⟩⟩ |
      ⟨hlevel, shape', hshape', rfl⟩ | ⟨-, rfl⟩
    · cases hshape
    · cases hshape
    · cases hshape
      exact ⟨.inl ⟨hlevel, hshape'⟩, hregion, hready⟩
    · cases hshape
      exact ⟨.inr ⟨hlevel, hshape'⟩, hregion, hready⟩
    · cases hshape
  · rintro ⟨⟨hlevel, hmem⟩ | ⟨hlevel, hmem⟩, hregion, hready⟩
    · exact ⟨hotShapeNode "hot" shape r.expanded.primary.family, r.mem_envelope.mpr
        ⟨mem_shapeEnvelope.mpr (.inr (.inl ⟨hlevel, .inr ⟨shape, hmem, rfl⟩⟩)), hregion, hready⟩,
        rfl⟩
    · exact ⟨hotShapeNode "cuda-graph" shape .cudaGraphs, r.mem_envelope.mpr
        ⟨mem_shapeEnvelope.mpr (.inr (.inr (.inl ⟨hlevel, shape, hmem, rfl⟩))), hregion, hready⟩,
        rfl⟩

/-- The names that the envelope covers have an obligation, but for early serving. -/
theorem covered_iff (htail : ¬ KeepsDynamicTail C V host raw scope) {owner : CompileRegion}
    (howner : owner ∈ r.regions) (hplane : .correctness ∈ owner.shapePlanes) :
    (∀ name ∈ r.plan.guaranteeEnvelope.coveredShapes, ∃ o ∈ r.obligations, o.nodeName = name) ↔
      scope.readiness ≠ some .earlyServe := by
  have hcovered : r.plan.guaranteeEnvelope.coveredShapes = r.envelope.nodes.map (·.name) := rfl
  rw [hcovered, List.forall_mem_map]
  constructor
  · intro h hready
    obtain ⟨node, hnode, -⟩ := r.exists_correctness_node howner hplane
    obtain ⟨o, ho, -⟩ := h node hnode
    exact r.not_warmsUp_of_earlyServe hready ⟨o, ho, rfl⟩
  · intro hready node hnode
    have hintent : node.intent ≠ .uncoveredResidual := fun hintent =>
      htail (r.exists_residual_iff.mp ⟨node, hnode, hintent⟩)
    obtain ⟨-, ⟨region, hregion, hmem⟩, -⟩ := r.mem_envelope.mp hnode
    obtain ⟨o, ho, hname, -⟩ := r.exists_obligation hready hnode hintent hregion (.inl hmem)
    exact ⟨o, ho, hname⟩

/-- The planes of a plan for the KV cache update. -/
theorem shapePlanes_of_update (hfree : FreeOfSurfaces C V host raw scope) {region : CompileRegion}
    (hregion : region ∈ r.regions) : region.shapePlanes = kvCacheUpdate.shapePlanes := by
  have hname := hfree.1 _ (r.mem_selectedRegions.mpr ⟨region, hregion, rfl⟩)
  obtain ⟨seam, hseam, hcanonical, -, hplanes, -⟩ := r.exists_seam hregion
  have hupdate : ∀ seam ∈ regionSeams, seam.canonicalName = "kv_cache_update" →
      seam.shapePlanes = kvCacheUpdate.shapePlanes := by decide
  rw [hplanes]
  exact hupdate seam hseam (hcanonical.trans hname)

theorem shapes_enveloped_iff (hfree : FreeOfSurfaces C V host raw scope) :
    (∀ shape ∈ raw.shapePolicy.hotShapes ++ raw.shapePolicy.cudaGraphShapes,
      ∃ node ∈ r.envelope.nodes, node.exactShape = some shape) ↔ WarmsShapes raw scope := by
  obtain ⟨owner, howner⟩ := List.exists_mem_of_ne_nil _ r.regions_ne_nil
  have hplanes : ∀ plane : CoveragePlane, (∃ region ∈ r.regions, plane ∈ region.shapePlanes) ↔
      plane ∈ kvCacheUpdate.shapePlanes := by
    intro plane
    constructor
    · rintro ⟨region, hregion, hplane⟩
      exact r.shapePlanes_of_update hfree hregion ▸ hplane
    · exact fun hplane => ⟨owner, howner, r.shapePlanes_of_update hfree howner ▸ hplane⟩
  simp only [r.exists_exactShape_iff, hplanes]
  rfl

end Resolution

/-- **The strict level is justified** if it is not claimed, or if the plan is for the KV cache
    update alone, warms up every shape of the request and is not served early. -/
theorem strict_no_surprise_jit_iff {C : Canon} {V : Vllm} {host : PlannerHostSnapshot}
    {raw : RawRequest} {scope : BuildScope} {outcome : PlanningOutcome}
    (h : resolveScoped C V host raw scope = .ok outcome) :
    (outcome.plan.guaranteeEnvelope.achievedPerformance = .strictNoSurpriseJit →
      (∀ risk ∈ outcome.plan.guaranteeEnvelope.residualRisks,
        risk.hazardClass ≠ .residualLazyCompile) ∧
      (∀ shape ∈ raw.shapePolicy.hotShapes ++ raw.shapePolicy.cudaGraphShapes,
        ∃ node ∈ outcome.plan.shapeEnvelope.nodes, node.exactShape = some shape) ∧
      (∀ name ∈ outcome.plan.guaranteeEnvelope.coveredShapes,
        ∃ o ∈ outcome.plan.warmupObligations, o.nodeName = name)) ↔
      raw.warmupPolicy.verifyCudaGraphCapture = false ∨ KeepsDynamicTail C V host raw scope ∨
        (FreeOfSurfaces C V host raw scope ∧ WarmsShapes raw scope ∧
          scope.readiness ≠ some .earlyServe) := by
  obtain ⟨r, rfl⟩ := Resolution.exists_of_ok h
  have hstrict := r.achieved_strict_iff
  by_cases hverify : raw.warmupPolicy.verifyCudaGraphCapture = false
  · refine iff_of_true (fun hachieved => ?_) (.inl hverify)
    rw [(hstrict.mp hachieved).1] at hverify
    cases hverify
  by_cases htail : KeepsDynamicTail C V host raw scope
  · exact iff_of_true (fun hachieved => absurd htail (hstrict.mp hachieved).2) (.inr (.inl htail))
  -- From here on the level is claimed.
  rw [Bool.not_eq_false] at hverify
  simp only [hverify, htail, reduceCtorEq, false_or]
  refine (forall_prop_of_true (hstrict.mpr ⟨hverify, htail⟩)).trans ?_
  have hrisks := r.lazyCompile_free_iff.trans
    ((and_iff_left htail).trans r.surface_free_iff)
  refine (and_congr_left' hrisks).trans (and_congr_right fun hfree => ?_)
  obtain ⟨owner, howner⟩ := List.exists_mem_of_ne_nil _ r.regions_ne_nil
  have hplane : .correctness ∈ owner.shapePlanes := by
    rw [r.shapePlanes_of_update hfree howner]
    decide
  exact and_congr (r.shapes_enveloped_iff hfree) (r.covered_iff htail howner hplane)

/-- The plan of prebuilt artifacts claims the strict level and is justified. -/
theorem strict_no_surprise_jit_prebuilt :
    prebuiltPlan.outcome.plan.guaranteeEnvelope.achievedPerformance = .strictNoSurpriseJit ∧
    (∀ risk ∈ prebuiltPlan.outcome.plan.guaranteeEnvelope.residualRisks,
      risk.hazardClass ≠ .residualLazyCompile) ∧
    (∀ name ∈ prebuiltPlan.outcome.plan.guaranteeEnvelope.coveredShapes,
      ∃ o ∈ prebuiltPlan.outcome.plan.warmupObligations, o.nodeName = name) := by
  have hstrict := prebuiltPlan.achieved_strict_iff.mpr ⟨rfl, fun htail => nomatch htail.1⟩
  have hfree : FreeOfSurfaces amdExecutor.canon amdExecutor.vllm prebuiltHost prebuiltRequest
      updateScope := by
    refine ⟨fun name hname => ?_, fun _ => rfl⟩
    obtain ⟨region, hregion, rfl⟩ := prebuiltPlan.mem_selectedRegions.mp hname
    cases List.mem_singleton.mp hregion
    rfl
  obtain ⟨hrisks, -, hcovered⟩ := (strict_no_surprise_jit_iff prebuiltPlan.resolveScoped_eq).mpr
    (.inr (.inr ⟨hfree, nofun, nofun⟩)) hstrict
  exact ⟨hstrict, hrisks, hcovered⟩

/-- The sample for AMD, with verified captures. -/
def verifiedTarget : AmdTarget :=
  { AmdTarget.standard ⟨1, 1, 1⟩ with warmupPolicy := ⟨0, true⟩ }

/-- With the regions of the guard surface the level is claimed beside the risk that it denies. -/
theorem strict_no_surprise_jit_unjustified :
    resolveScoped amdExecutor.canon amdExecutor.vllm amdHost (amdRequest verifiedTarget) bodyScope =
      .ok (amdPlanFor verifiedTarget).outcome ∧
    (amdPlanFor verifiedTarget).outcome.plan.guaranteeEnvelope.achievedPerformance =
      .strictNoSurpriseJit ∧
    ∃ risk ∈ (amdPlanFor verifiedTarget).outcome.plan.guaranteeEnvelope.residualRisks,
      risk.hazardClass = .residualLazyCompile := by
  refine ⟨(amdPlanFor verifiedTarget).resolveScoped_eq,
    (amdPlanFor verifiedTarget).achieved_strict_iff.mpr ⟨rfl, fun htail => nomatch htail.1⟩, ?_⟩
  by_contra hnone
  simp only [not_exists, not_and] at hnone
  have hprefill : (amdPlanFor verifiedTarget).HasRegion "prefill_attention" :=
    ⟨_, List.mem_cons_self, rfl⟩
  exact (((amdPlanFor verifiedTarget).lazyCompile_free_iff.mp hnone).1 _
    (amdPlanFor verifiedTarget).guard_applicable).2 _ (by decide) hprefill

end Sock.Engine
