/-
  Scoped plans against the plan of the whole request.

  * `BuildScope.allows`: all selectors of a scope, on a region of a plan.
  * `Assembly.limited_eq`: the backends do not depend on the scope, so neither does what a region is
    compiled to; `Assembly.mem_regions_iff`: the scope keeps the regions that it allows.
  * `scoped_subclosure`: a scoped plan is a part of the whole one.
-/
import Sock.Core.Pretty
import Sock.Engine.Valid

namespace Sock.Engine

open Lib Sock.Core Fallible

/-- The region satisfies every selector of the scope. -/
def BuildScope.allows (scope : BuildScope) (region : CompileRegion) : Bool :=
  scope.allowsRegion region.name && scope.allowsCacheNamespace region.cacheNamespace &&
    scope.allowsWarmupScope region.warmupScope &&
    scope.allowsRankDisposition region.rankDisposition &&
    scope.allowsBackendFamily region.family

theorem BuildScope.allowsArtifactScope_unscoped (name : String) :
    BuildScope.unscoped.allowsArtifactScope name = true := rfl

/-- What `compile_regions` asks of a region without its scope. -/
theorem regionSelected_eq (C : Canon) (selected : BackendSelection) (scope : BuildScope)
    (surveyed : AdapterCompileRegion) : regionSelected selected scope surveyed =
      (regionSelected selected .unscoped surveyed &&
        scope.allows (compileRegion C selected surveyed)) := by
  have hunscoped : regionSelected selected .unscoped surveyed =
      (surveyed.regionalCompileCandidate &&
        backendBindingIsAdmissible surveyed.backendBinding selected) := by
    simp [regionSelected, BuildScope.unscoped, BuildScope.allowsRegion,
      BuildScope.allowsCacheNamespace, BuildScope.allowsWarmupScope,
      BuildScope.allowsRankDisposition, BuildScope.allowsBackendFamily]
  rw [hunscoped, Bool.eq_iff_iff]
  simp only [regionSelected, BuildScope.allows, compileRegion, Bool.and_eq_true]
  tauto

namespace Assembly

variable {C : Canon} {V : Vllm} {host : PlannerHostSnapshot} {raw : RawRequest}
  {scope scope' : BuildScope} (r : Assembly C V host raw scope) (r' : Assembly C V host raw scope')

theorem survey_eq : r.survey = r'.survey :=
  Except.ok.inj (r.surveyed.symm.trans r'.surveyed)

/-- The backends do not depend on the scope. -/
theorem limited_eq : r.limited = r'.limited := by
  have hviable : r.viable = r'.viable := by
    have h := r.viable_eq
    rw [survey_eq r r'] at h
    exact Except.ok.inj (h.symm.trans r'.viable_eq)
  rw [limited, limited, hviable]
  rfl

/-- The scope keeps the regions that it allows. -/
theorem mem_regions_iff (whole : Assembly C V host raw .unscoped) {region : CompileRegion} :
    region ∈ r.regions ↔ region ∈ whole.regions ∧ scope.allows region = true := by
  rw [mem_regions, mem_regions, survey_eq r whole, limited_eq r whole]
  constructor
  · rintro ⟨surveyed, hmem, hselected, rfl⟩
    rw [regionSelected_eq C, Bool.and_eq_true] at hselected
    exact ⟨⟨surveyed, hmem, hselected.1, rfl⟩, hselected.2⟩
  · rintro ⟨⟨surveyed, hmem, hselected, rfl⟩, hallows⟩
    refine ⟨surveyed, hmem, ?_, rfl⟩
    rw [regionSelected_eq C, hselected, hallows]
    rfl

/-- The regions of the scoped plan. -/
theorem regions_perm (whole : Assembly C V host raw .unscoped) :
    r.regions.Perm (whole.regions.filter scope.allows) := by
  refine (List.perm_ext_iff_of_nodup (.of_map _ r.nodup_regionNames)
    ((List.Nodup.of_map _ whole.nodup_regionNames).filter _)).mpr fun region => ?_
  rw [List.mem_filter, mem_regions_iff r whole]

end Assembly

/-- What a requirement asks for, apart from what it was derived with. -/
structure SameArtifact (q q' : ArtifactRequirement) : Prop where
  artifactClass : q.artifactClass = q'.artifactClass
  scope : q.scope = q'.scope
  backend : q.backend = q'.backend
  acquisition : q.acquisition = q'.acquisition
  portability : q.portability = q'.portability
  rankDisposition : q.rankDisposition = q'.rankDisposition

section Requirements

variable {C : Canon} {normalized : NormalizedRequest} {witnesses : List CapabilityWitness}
  {envelope : ShapeEnvelope}

/-- The requirements of a region ask for the same artifacts in every envelope. -/
theorem exists_sameArtifact_regionRequirements {selected : BackendSelection}
    {region : CompileRegion} {q : ArtifactRequirement}
    (h : q ∈ regionRequirements C normalized witnesses envelope selected region)
    (witnesses' : List CapabilityWitness) (envelope' : ShapeEnvelope) :
    ∃ q' ∈ regionRequirements C normalized witnesses' envelope' selected region,
      SameArtifact q q' := by
  simp only [regionRequirements, List.mem_pair, exists_eq_or_imp, exists_eq_left] at h ⊢
  rcases h with rfl | rfl
  · exact .inl ⟨rfl, rfl, rfl, rfl, rfl, rfl⟩
  · exact .inr ⟨rfl, rfl, rfl, rfl, rfl, rfl⟩

theorem sameArtifact_captureRequirement (witnesses' : List CapabilityWitness)
    (envelope' : ShapeEnvelope) :
    SameArtifact (captureRequirement C normalized witnesses envelope)
      (captureRequirement C normalized witnesses' envelope') :=
  ⟨rfl, rfl, rfl, rfl, rfl, rfl⟩

end Requirements

namespace Assembly

variable {C : Canon} {V : Vllm} {host : PlannerHostSnapshot} {raw : RawRequest}
  {scope : BuildScope} (r : Assembly C V host raw scope)

/-- A requirement of the scoped plan is one of a region that the whole plan has too, compiled by the
    same backends; only the envelope that it is bounded by differs. -/
theorem exists_sameArtifact (whole : Assembly C V host raw .unscoped) {q : ArtifactRequirement}
    (h : q ∈ r.requirements) : ∃ q' ∈ whole.requirements, SameArtifact q q' := by
  have hexpanded : r.expanded = whole.expanded := by
    rw [expanded_eq_limited, expanded_eq_limited, limited_eq r whole]
  rcases (mem_artifactRequirements ..).mp h with
    ⟨region, hregion, -, hq⟩ | ⟨⟨hgraphs, hdecode, -⟩, rfl⟩
  · rw [hexpanded] at hq
    obtain ⟨q', hq', hsame⟩ :=
      exists_sameArtifact_regionRequirements hq whole.witnesses whole.envelope
    have hmem : region ∈ whole.regions := ((mem_regions_iff r whole).mp hregion).1
    exact ⟨q', (mem_artifactRequirements ..).mpr
      (.inl ⟨region, hmem, BuildScope.allowsArtifactScope_unscoped _, hq'⟩), hsame⟩
  · obtain ⟨region, hregion, hname⟩ := List.any_eq_true.mp hdecode
    have hany : whole.regions.any (·.name = "decode_attention") = true :=
      List.any_eq_true.mpr ⟨region, ((mem_regions_iff r whole).mp hregion).1, hname⟩
    have hcapture : captureRequirement C (raw.normalize C) whole.witnesses whole.envelope ∈
        whole.requirements := (mem_artifactRequirements ..).mpr
      (.inr ⟨⟨hgraphs, hany, BuildScope.allowsArtifactScope_unscoped _⟩, rfl⟩)
    exact ⟨_, hcapture, sameArtifact_captureRequirement ..⟩

end Assembly

/-- **Scoped plans.** If a scoped request and the whole one resolve, every requirement of the
    scoped plan has its counterpart in the whole one, the scoped regions are the regions of the
    whole plan that satisfy all selectors, and the primary backend is the same. -/
theorem scoped_subclosure {C : Canon} {V : Vllm} {host : PlannerHostSnapshot} {raw : RawRequest}
    {scope : BuildScope} {narrowed whole : PlanningOutcome}
    (hscoped : resolveScoped C V host raw scope = .ok narrowed)
    (hwhole : resolve C V host raw = .ok whole) :
    (∀ q ∈ narrowed.plan.artifactRequirements,
      ∃ q' ∈ whole.plan.artifactRequirements, SameArtifact q q') ∧
    narrowed.plan.compileRegions.Perm (whole.plan.compileRegions.filter scope.allows) ∧
    narrowed.plan.selectedBackends.primary = whole.plan.selectedBackends.primary := by
  obtain ⟨r, rfl⟩ := Resolution.exists_of_ok hscoped
  obtain ⟨w, rfl⟩ := Resolution.exists_of_ok hwhole
  refine ⟨fun q hq => r.exists_sameArtifact w.toAssembly hq, r.regions_perm w.toAssembly, ?_⟩
  show r.expanded.primary = w.expanded.primary
  rw [Assembly.expanded_eq_limited, Assembly.expanded_eq_limited,
    Assembly.limited_eq r.toAssembly w.toAssembly]

/-! ### The whole sample -/

section Amd

variable (C : Canon) (target : AmdTarget)

/-- The sample without a scope. -/
def amdWholeAssembly : Assembly C vendoredVllm amdHost (amdRequest target) .unscoped where
  survey := vendoredSurvey
  viable := tritonSelection
  expanded := tritonSelection
  surveyed := survey_vendoredVllm
  viable_eq := selectBackends_amd C target
  regions_ne_nil := by
    intro h
    cases h
  expanded_eq := rfl

/-- Its regions. -/
def amdWholeRegions : List CompileRegion :=
  [kvCacheUpdate, prefillAttention, transformerBlockBody].map fun region =>
    compileRegion C tritonSelection (region.located fun _ pattern => (anchorLine pattern).getD 0)

theorem issues_amdWhole (hC : C.CollisionFree) (hblank : C.NonBlank) :
    (amdWholeAssembly C target).plan.issues = [] := by
  have henvelope : (amdWholeAssembly C target).envelope = ⟨[correctnessRange]⟩ := rfl
  have hobligations : (amdWholeAssembly C target).obligations.Perm ((amdWholeRegions C).map
      (warmupObligation ((amdRequest target).normalize C) (.fromLevel .o0) correctnessRange)) :=
    sort_perm _
  have hrequirements : (amdWholeAssembly C target).requirements.Perm
      ((amdWholeRegions C).flatMap (regionRequirements C ((amdRequest target).normalize C)
        (amdWholeAssembly C target).witnesses ⟨[correctnessRange]⟩ tritonSelection)) :=
    (sort_perm _).trans (.of_eq rfl)
  refine Assembly.issues_eq_nil_of_range _ hC hblank (congrArg _ henvelope) hobligations
    hrequirements rfl (by decide) (fun h => by cases h) List.mem_cons_self ?_
    (of_decide_eq_true rfl)
  show ["warmup:correctness-range:kv_cache_update", "warmup:correctness-range:prefill_attention",
    "warmup:correctness-range:transformer_block_body"].Nodup
  decide

end Amd

/-- The sample for two of its regions, and the whole sample. -/
theorem scoped_subclosure_amd : ∃ narrowed whole,
    resolveScoped .ideal vendoredVllm amdHost (amdRequest (.standard ⟨1, 1, 1⟩)) bodyScope =
      .ok narrowed ∧
    resolve .ideal vendoredVllm amdHost (amdRequest (.standard ⟨1, 1, 1⟩)) = .ok whole ∧
    narrowed.plan.compileRegions.Perm (whole.plan.compileRegions.filter bodyScope.allows) := by
  let target : AmdTarget := .standard ⟨1, 1, 1⟩
  let narrowed := amdResolution .ideal target Canon.ideal_collisionFree Canon.ideal_nonBlank
  let whole : Resolution .ideal vendoredVllm amdHost (amdRequest target) .unscoped :=
    ⟨amdWholeAssembly .ideal target,
      issues_amdWhole .ideal target Canon.ideal_collisionFree Canon.ideal_nonBlank⟩
  exact ⟨_, _, narrowed.resolveScoped_eq, whole.resolveScoped_eq,
    (scoped_subclosure narrowed.resolveScoped_eq whole.resolveScoped_eq).2.1⟩

end Sock.Engine
