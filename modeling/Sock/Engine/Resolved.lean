/-
  What a resolved plan is made of.

  * `regionSeams`: every survey has the regions of the adapter's table (`seams_of_survey`), whose
    names, kinds and domains are distinct.
  * `Assembly`: the survey and the selections that a plan is assembled from, and its parts.
  * `Assembly.find?_regions`: a region of the plan is found under its name.
  * `Assembly.nodup_classScope`: a plan has one requirement for each class and scope.
  * `Resolution`: an assembly whose plan passes its checks; `Resolution.exists_of_ok`.
  * `Resolution.nodup_nodeNames`: the nodes of the graph have distinct names, since the plan
    passed its own check.
-/
import Sock.Lib.Buckets
import Sock.Engine.Planner

namespace Sock.Engine

open Lib Sock.Core Fallible

/-! ## The survey -/

/-- The regions as the adapter's table describes them. -/
def regionSeams : List RegionSeam := regionTable.map (·.toRegionSeam)

theorem toRegionSeam_of_region {V : Vllm} {a : AnchoredRegion} {region : AdapterCompileRegion}
    (h : V.region a = .ok region) : region.toRegionSeam = a.toRegionSeam := by
  obtain ⟨evidence, -, h⟩ := bind_eq_ok.mp h
  cases h
  rfl

section Survey

variable {V : Vllm} {survey : AdapterSurvey}

/-- A survey has the regions and the tables of the adapter. -/
theorem tables_of_survey (h : V.survey = .ok survey) :
    survey.compileRegions.map (·.toRegionSeam) = regionSeams ∧
      survey.residualJitSurfaces = residualJitSurfaces ∧ survey.diagnostics = diagnostics := by
  obtain ⟨regions, hregions, h⟩ := bind_eq_ok.mp h
  cases h
  exact ⟨map_of_mapM_ok (fun _ _ => toRegionSeam_of_region) hregions, rfl, rfl⟩

theorem seams_of_survey (h : V.survey = .ok survey) :
    survey.compileRegions.map (·.toRegionSeam) = regionSeams := (tables_of_survey h).1

theorem mem_regionSeams (h : V.survey = .ok survey) {region : AdapterCompileRegion}
    (hregion : region ∈ survey.compileRegions) : region.toRegionSeam ∈ regionSeams := by
  rw [← seams_of_survey h]
  exact List.mem_map_of_mem hregion

end Survey

theorem nodup_canonicalName : (regionSeams.map (·.canonicalName)).Nodup := by decide

theorem nodup_kind : (regionSeams.map (·.kind)).Nodup := by decide

theorem nodup_invalidationDomain : (regionSeams.map (·.invalidationDomain)).Nodup := by decide

/-! ## Assemblies -/

/-- The steps of a resolution up to the plan's own checks. -/
structure Assembly (C : Canon) (V : Vllm) (host : PlannerHostSnapshot) (raw : RawRequest)
    (scope : BuildScope) where
  survey : AdapterSurvey
  /-- The backends that are viable for the request. -/
  viable : BackendSelection
  /-- The backends with those of the regions. -/
  expanded : BackendSelection
  surveyed : V.survey = .ok survey
  viable_eq : selectBackends (raw.normalize C)
    (capabilityWitnesses host (raw.normalize C) survey) (backendRegistry (raw.normalize C)) =
      .ok viable
  regions_ne_nil : compileRegions C
    (limitSecondary (.fromLevel raw.optimizationPolicy.level) viable) survey scope ≠ []
  expanded_eq : expandSelectedBackends (raw.normalize C)
    (capabilityWitnesses host (raw.normalize C) survey) (backendRegistry (raw.normalize C))
    (limitSecondary (.fromLevel raw.optimizationPolicy.level) viable)
    (compileRegions C (limitSecondary (.fromLevel raw.optimizationPolicy.level) viable)
      survey scope) = .ok expanded

namespace Assembly

variable {C : Canon} {V : Vllm} {host : PlannerHostSnapshot} {raw : RawRequest}
  {scope : BuildScope} (r : Assembly C V host raw scope)

/-! ### The parts of the plan -/

/-- The level's envelope. -/
def optimization (_ : Assembly C V host raw scope) : OptimizationEnvelope :=
  .fromLevel raw.optimizationPolicy.level

/-- The backends that the level compiles for. -/
def limited : BackendSelection := limitSecondary r.optimization r.viable

def witnesses : List CapabilityWitness := capabilityWitnesses host (raw.normalize C) r.survey

def regions : List CompileRegion := compileRegions C r.limited r.survey scope

def envelope : ShapeEnvelope :=
  scopedShapeEnvelope (shapeEnvelope (raw.normalize C) r.expanded r.optimization) r.regions scope

def requirements : List ArtifactRequirement :=
  artifactRequirements C (raw.normalize C) r.witnesses r.envelope r.expanded r.regions
    r.optimization scope

def obligations : List WarmupObligation :=
  warmupObligations (raw.normalize C) r.envelope r.regions r.optimization scope

def nodes : List MaterializationNode := graphNodes C raw.topology r.requirements r.obligations

def plan : ResolvedBuildPlan :=
  assemblePlan C (raw.normalize C) r.survey r.witnesses (backendRegistry (raw.normalize C))
    r.expanded r.regions scope

def outcome : PlanningOutcome where
  plan := r.plan
  closure := ⟨r.plan.planIdentity, r.plan.guaranteeEvidence.artifactManifest⟩
  verification := r.plan.validate
  adapterSurvey := r.survey

/-! ### Regions -/

theorem mem_regions {region : CompileRegion} : region ∈ r.regions ↔
    ∃ surveyed ∈ r.survey.compileRegions, regionSelected r.limited scope surveyed = true ∧
      compileRegion C r.limited surveyed = region := by
  rw [regions, compileRegions, (sort_perm _).mem_iff, List.mem_map]
  simp only [List.mem_filter, and_assoc]

theorem nodup_regionNames : (r.regions.map (·.name)).Nodup := by
  have hseams : (r.survey.compileRegions.map (·.canonicalName)).Nodup := by
    have h := nodup_canonicalName
    rw [← seams_of_survey r.surveyed, List.map_map] at h
    exact h
  rw [regions, compileRegions, ((sort_perm _).map _).nodup_iff, List.map_map]
  exact hseams.sublist (List.filter_sublist.map _)

/-- A region is found under its name. -/
theorem find?_regions {region : CompileRegion} (h : region ∈ r.regions) :
    r.regions.find? (·.name = region.name) = some region :=
  find?_eq_some_of_unique h (by simp) fun region' h' hname =>
    List.inj_on_of_nodup_map r.nodup_regionNames h' h (of_decide_eq_true hname)

theorem toRegionSeam_injOn {surveyed surveyed' : AdapterCompileRegion}
    (h : surveyed ∈ r.survey.compileRegions) (h' : surveyed' ∈ r.survey.compileRegions)
    (hseam : surveyed.toRegionSeam = surveyed'.toRegionSeam) : surveyed = surveyed' := by
  have hnodup : (r.survey.compileRegions.map (·.toRegionSeam)).Nodup := by
    rw [seams_of_survey r.surveyed]
    exact .of_map _ nodup_kind
  exact List.inj_on_of_nodup_map hnodup h h' hseam

/-- Regions of a plan with one invalidation domain are one region. -/
theorem eq_of_invalidationDomain {region region' : CompileRegion} (h : region ∈ r.regions)
    (h' : region' ∈ r.regions) (hdomain : region.invalidationDomain = region'.invalidationDomain) :
    region = region' := by
  obtain ⟨surveyed, hs, -, rfl⟩ := r.mem_regions.mp h
  obtain ⟨surveyed', hs', -, rfl⟩ := r.mem_regions.mp h'
  rw [r.toRegionSeam_injOn hs hs' (List.inj_on_of_nodup_map nodup_invalidationDomain
    (mem_regionSeams r.surveyed hs) (mem_regionSeams r.surveyed hs') hdomain)]

/-! ### Requirements -/

/-- A plan has one requirement for each class and scope. -/
theorem nodup_classScope : (r.requirements.map fun q => (q.artifactClass, q.scope)).Nodup := by
  rw [requirements, artifactRequirements, ((sort_perm _).map _).nodup_iff, List.map_append,
    List.map_flatMap]
  change (List.flatMap (fun region : CompileRegion =>
    [(ArtifactClass.compiledGraph, region.name), (.tritonBinary, region.name)]) _ ++ _).Nodup
  refine List.Nodup.append ?_ ?_ ?_
  · refine List.nodup_flatMap.mpr ⟨fun region _ => by simp, ?_⟩
    refine (List.Pairwise.filter _ (List.pairwise_map.mp r.nodup_regionNames)).imp ?_
    intro region region' hne
    simp [Function.onFun, List.Disjoint, hne]
  · split <;> simp
  · -- no region is built as a capture
    split
    · rintro ⟨artifactClass, name⟩ hregion hcapture
      obtain ⟨region, -, hregion⟩ := List.mem_flatMap.mp hregion
      cases List.mem_singleton.mp hcapture
      simp [captureRequirement, artifactRequirement] at hregion
    · simp

theorem eq_of_classScope {q q' : ArtifactRequirement} (h : q ∈ r.requirements)
    (h' : q' ∈ r.requirements) (hclass : q.artifactClass = q'.artifactClass)
    (hscope : q.scope = q'.scope) : q = q' :=
  List.inj_on_of_nodup_map r.nodup_classScope h h' (Prod.ext hclass hscope)

/-- The scope of a requirement is a region of the plan, and the requirement is one of its two or
    the capture. -/
theorem mem_requirements {q : ArtifactRequirement} (h : q ∈ r.requirements) :
    ∃ region ∈ r.regions, region.name = q.scope ∧
      (q ∈ regionRequirements C (raw.normalize C) r.witnesses r.envelope r.expanded region ∨
        q = captureRequirement C (raw.normalize C) r.witnesses r.envelope) := by
  rcases (mem_artifactRequirements ..).mp h with ⟨region, hregion, -, hq⟩ | ⟨⟨-, hdecode, -⟩, rfl⟩
  · have hscope : region.name = q.scope := by
      rw [regionRequirements, List.mem_pair] at hq
      rcases hq with rfl | rfl <;> rfl
    exact ⟨region, hregion, hscope, .inl hq⟩
  · obtain ⟨region, hregion, hname⟩ := List.any_eq_true.mp hdecode
    exact ⟨region, hregion, of_decide_eq_true hname, .inr rfl⟩

end Assembly

/-! ## Resolutions -/

/-- A resolution that succeeded: the assembled plan passes its checks. -/
structure Resolution (C : Canon) (V : Vllm) (host : PlannerHostSnapshot) (raw : RawRequest)
    (scope : BuildScope) extends Assembly C V host raw scope where
  valid : toAssembly.plan.issues = []

namespace Resolution

variable {C : Canon} {V : Vllm} {host : PlannerHostSnapshot} {raw : RawRequest}
  {scope : BuildScope} (r : Resolution C V host raw scope)

theorem resolveScoped_eq : resolveScoped C V host raw scope = .ok r.outcome :=
  resolveScoped_eq_ok.mpr ⟨r.survey, r.viable, r.expanded, r.surveyed, r.viable_eq,
    r.regions_ne_nil, r.expanded_eq, checkPlan_eq_ok.mpr ⟨r.valid, rfl⟩⟩

theorem exists_of_ok {outcome : PlanningOutcome}
    (h : resolveScoped C V host raw scope = .ok outcome) :
    ∃ r : Resolution C V host raw scope, outcome = r.outcome := by
  obtain ⟨survey, viable, expanded, hsurvey, hviable, hregions, hexpanded, hchecked⟩ :=
    resolveScoped_eq_ok.mp h
  obtain ⟨hvalid, rfl⟩ := checkPlan_eq_ok.mp hchecked
  exact ⟨⟨⟨survey, viable, expanded, hsurvey, hviable, hregions, hexpanded⟩, hvalid⟩, rfl⟩

theorem nodup_nodeNames : (r.nodes.map (·.name)).Nodup :=
  ((ResolvedBuildPlan.graphIssues_eq_nil _).mp
    ((ResolvedBuildPlan.issues_eq_nil _).mp r.valid).2.2.2.2.2.1).2

end Resolution

end Sock.Engine
