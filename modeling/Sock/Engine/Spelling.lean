/-
  The spelling of NVIDIA architectures.

  * `respellArchitecture`: `sm90` is written `sm_90`, which has no class.
  * `BackendFamily.runsOn`: the architectures witness what a backend requires;
    `viableBackends_withArches`: under other architectures the viable backends are those that still
    run.
  * `Assembly.exists_withArches`, `Assembly.issues_withArches`: if the backends that the level
    compiles for are the same, so is the plan, apart from what names the environment.
  * `respelling_keeps_shape`: the shape of a plan is kept if its backends still run.
-/
import Sock.Engine.Closure

namespace Sock.Engine

open Lib Sock.Core Fallible

/-! ## Spellings -/

/-- `smNN` with an underscore; other names are left alone. -/
def respellArchitecture (arch : String) : String :=
  match stripPrefix "sm" arch with
  | some number =>
      if number ≠ "" ∧ number.toList.all (·.isDigit) then "sm_" ++ number else arch
  | none => arch

/-- The request for other architectures. -/
def withArches (raw : RawRequest) (arches : List String) : RawRequest :=
  { raw with environment := { raw.environment with gpuArches := arches } }

theorem withArches_self (raw : RawRequest) : withArches raw raw.environment.gpuArches = raw := rfl

/-- The request with every `smNN` respelled. -/
def respell (raw : RawRequest) : RawRequest :=
  withArches raw (raw.environment.gpuArches.map respellArchitecture)

/-- A respelled name has no class. -/
theorem respellArchitecture_cases (arch : String) : respellArchitecture arch = arch ∨
    parseNvidiaArchitectureClass (respellArchitecture arch) = none := by
  unfold respellArchitecture
  split
  case h_2 => exact .inl rfl
  case h_1 number _ =>
    split
    case isFalse => exact .inl rfl
    case isTrue =>
      have htrim : (trim ("sm_" ++ number)).toList =
          's' :: 'm' :: '_' :: number.toList.rdropWhile isWhiteSpace := by
        have hs : isWhiteSpace 's' = false := by decide
        have hunderscore : isWhiteSpace '_' = false := by decide
        simp [trim, List.rdropWhile, List.dropWhile_append, hs, hunderscore]
      exact .inr (parseNvidiaArchitectureClass_underscore htrim)

theorem hasArchitecture_respell {environment : RequestedEnvironment}
    {feature : NvidiaArchitectureClass → Bool}
    (h : hasArchitecture { environment with
      gpuArches := environment.gpuArches.map respellArchitecture } feature = true) :
    hasArchitecture environment feature = true := by
  simp only [hasArchitecture, List.any_map, List.any_eq_true, Function.comp_apply] at h ⊢
  obtain ⟨arch, hmem, hfeature⟩ := h
  rcases respellArchitecture_cases arch with hsame | hnone
  · exact ⟨arch, hmem, hsame ▸ hfeature⟩
  · rw [hnone] at hfeature
    cases hfeature

/-! ## What the architectures witness -/

/-- The accelerator has what the backend requires of it. -/
def runsOn (environment : RequestedEnvironment) : BackendFamily → Bool
  | .flashInfer | .triton => true
  | .aotInductor => environment.acceleratorVendor = .nvidia &&
      hasArchitecture environment (·.supportsTma)
  | .cudaGraphs => environment.acceleratorVendor = .nvidia &&
      hasArchitecture environment (·.supportsCudaGraphs)

theorem runsOn_canonicalize (environment : RequestedEnvironment) (family : BackendFamily) :
    runsOn environment.canonicalize family = runsOn environment family := by
  have harch : ∀ feature, hasArchitecture environment.canonicalize feature =
      hasArchitecture environment feature := by
    intro feature
    rw [Bool.eq_iff_iff]
    simp only [hasArchitecture, RequestedEnvironment.canonicalize, List.any_eq_true, mem_dedup,
      (sort_perm _).mem_iff]
  cases family <;> first | rfl | exact congrArg (_ && ·) (harch _)

/-- The keys that backends require, and when they are witnessed. -/
def witnessed (host : PlannerHostSnapshot) (environment : RequestedEnvironment) (key : String) :
    Bool :=
  if key = "flashinfer.prebuilt" then host.flashinferPrebuiltAvailable
  else if key = "nvidia.tma" then runsOn environment .aotInductor
  else runsOn environment .cudaGraphs

theorem any_nvidiaWitnesses (contract : AcceleratorRuntimeContract)
    (environment : RequestedEnvironment) {key : String}
    (hkey : key ∈ ["flashinfer.prebuilt", "nvidia.tma", "cuda.graphs"]) :
    (nvidiaWitnesses contract environment).any (·.key = key) =
      (key = "nvidia.tma" && hasArchitecture environment (·.supportsTma) ||
        key = "cuda.graphs" && hasArchitecture environment (·.supportsCudaGraphs)) := by
  have hite : ∀ (c : Bool) (w : CapabilityWitness),
      (if c then [w] else []).any (·.key = key) = (c && decide (w.key = key)) := by
    intro c w
    cases c <;> simp
  have hite' : ∀ (c : Bool) (w : CapabilityWitness),
      (if c then [] else [w]).any (·.key = key) = (!c && decide (w.key = key)) := by
    intro c w
    cases c <;> simp
  simp only [nvidiaWitnesses, List.any_append, hite, hite', witness]
  simp only [List.mem_cons, List.not_mem_nil, or_false] at hkey
  rcases hkey with rfl | rfl | rfl <;> simp

theorem any_capabilityWitnesses {host : PlannerHostSnapshot} {normalized : NormalizedRequest}
    {survey : AdapterSurvey} (hsurvey : survey.diagnostics = diagnostics) {key : String}
    (hkey : key ∈ ["flashinfer.prebuilt", "nvidia.tma", "cuda.graphs"]) :
    (capabilityWitnesses host normalized survey).any (·.key = key) =
      witnessed host normalized.environment key := by
  have hdiagnostics : (survey.diagnostics.map diagnosticWitness).any (·.key = key) = false := by
    rw [hsurvey, List.any_map, List.any_eq_false]
    intro d hd heq
    exact key_diagnosticWitness hd (of_decide_eq_true heq ▸ hkey)
  have hprebuilt : (if host.flashinferPrebuiltAvailable then
      [witness "flashinfer.prebuilt" "available" "host-discovery"] else []).any (·.key = key) =
      (host.flashinferPrebuiltAvailable && decide (key = "flashinfer.prebuilt")) := by
    cases host.flashinferPrebuiltAvailable <;> simp [witness, eq_comm]
  have hnvidia : (if normalized.environment.acceleratorVendor = .nvidia then
      nvidiaWitnesses host.runtimeContract normalized.environment else []).any (·.key = key) =
      (decide (normalized.environment.acceleratorVendor = .nvidia) &&
        (key = "nvidia.tma" && hasArchitecture normalized.environment (·.supportsTma) ||
          key = "cuda.graphs" && hasArchitecture normalized.environment
            (·.supportsCudaGraphs))) := by
    split
    case isTrue h => rw [any_nvidiaWitnesses _ _ hkey, h]; rfl
    case isFalse h => simp [h]
  rw [capabilityWitnesses, (sort_perm _).any_eq, List.any_append, List.any_append,
    List.any_append, hdiagnostics, hprebuilt, hnvidia]
  simp only [List.mem_cons, List.not_mem_nil, or_false] at hkey
  rcases hkey with rfl | rfl | rfl <;> simp [witness, witnessed, runsOn]

/-- What a backend requires of its environment. -/
theorem requiredWitnesses_eq {capability : BackendCapability} (h : capability ∈ capabilityTable) :
    capability.requiredWitnesses = match capability.family with
      | .flashInfer => ["flashinfer.prebuilt"]
      | .triton => []
      | .aotInductor => ["nvidia.tma"]
      | .cudaGraphs => ["cuda.graphs"] := by
  revert capability
  decide

section Viable

variable {C : Canon} {host : PlannerHostSnapshot} {raw : RawRequest} {arches : List String}
  {survey : AdapterSurvey}

theorem mem_preferredFamilies {family : BackendFamily} :
    family ∈ (raw.normalize C).backendPolicy.preferredFamilies ↔
      family ∈ raw.backendPolicy.preferredFamilies := by
  show family ∈ raw.backendPolicy.canonicalize.preferredFamilies ↔ _
  rw [BackendPolicy.canonicalize, mem_dedup, (sort_perm _).mem_iff]

/-- The architectures decide on an acquisition by the witnesses only. -/
theorem admissibleProof?_withArches (witnesses : List CapabilityWitness)
    (capability : BackendCapability) :
    admissibleProof? ((withArches raw arches).normalize C) witnesses capability =
      admissibleProof? (raw.normalize C) witnesses capability := rfl

/-- A backend that the architectures do not support has no admissible proof. -/
theorem admissibleProof?_eq_none (hsurvey : survey.diagnostics = diagnostics)
    {capability : BackendCapability} (h : capability ∈ capabilityTable)
    (hruns : runsOn raw.environment capability.family = false) :
    admissibleProof? (raw.normalize C) (capabilityWitnesses host (raw.normalize C) survey)
      capability = none := by
  rw [← runsOn_canonicalize] at hruns
  have hmissing : ∃ key ∈ capability.requiredWitnesses,
      (capabilityWitnesses host (raw.normalize C) survey).any (·.key = key) = false := by
    have hrequired := requiredWitnesses_eq h
    cases hfamily : capability.family <;> simp only [hfamily] at hruns hrequired
    case flashInfer => cases hruns
    case triton => cases hruns
    case aotInductor =>
      refine ⟨"nvidia.tma", hrequired ▸ List.mem_cons_self, ?_⟩
      rw [any_capabilityWitnesses hsurvey (by simp)]
      simp [witnessed, RawRequest.normalize, RawRequest.canonicalize, hruns]
    case cudaGraphs =>
      refine ⟨"cuda.graphs", hrequired ▸ List.mem_cons_self, ?_⟩
      rw [any_capabilityWitnesses hsurvey (by simp)]
      simp [witnessed, RawRequest.normalize, RawRequest.canonicalize, hruns]
  obtain ⟨key, hkey, hnone⟩ := hmissing
  refine List.find?_eq_none.mpr fun proof hproof hverdict => ?_
  obtain ⟨acquisition, -, rfl⟩ := List.mem_map.mp hproof
  obtain ⟨w, hw, hwkey⟩ :=
    (verdict_eq_admissible_iff.mp (of_decide_eq_true hverdict)).2.2.1 key hkey
  exact List.any_eq_false.mp hnone w hw (decide_eq_true hwkey)

/-- A backend that both lists of architectures support has the same proof. -/
theorem admissibleProof?_eq (hsurvey : survey.diagnostics = diagnostics)
    {capability : BackendCapability} (h : capability ∈ capabilityTable)
    (hruns : runsOn raw.environment capability.family = true)
    (hruns' : runsOn (withArches raw arches).environment capability.family = true) :
    admissibleProof? ((withArches raw arches).normalize C)
      (capabilityWitnesses host ((withArches raw arches).normalize C) survey) capability =
    admissibleProof? (raw.normalize C) (capabilityWitnesses host (raw.normalize C) survey)
      capability := by
  rw [admissibleProof?_withArches]
  rw [← runsOn_canonicalize] at hruns hruns'
  refine admissibleProof?_congr fun key hkey => ?_
  rw [any_capabilityWitnesses hsurvey (mem_requiredWitnesses h hkey),
    any_capabilityWitnesses hsurvey (mem_requiredWitnesses h hkey)]
  rw [requiredWitnesses_eq h] at hkey
  cases hfamily : capability.family <;> simp only [hfamily] at hruns hruns' hkey
  case flashInfer => cases List.mem_singleton.mp hkey; rfl
  case triton => cases hkey
  all_goals
    cases List.mem_singleton.mp hkey
    simp [witnessed, RawRequest.normalize, RawRequest.canonicalize, hruns, hruns']

/-- Under architectures that support no backend anew, the viable backends are those that still
    run. -/
theorem viableBackends_withArches (hsurvey : survey.diagnostics = diagnostics)
    (hsub : ∀ family ∈ raw.backendPolicy.preferredFamilies,
      runsOn (withArches raw arches).environment family = true →
      runsOn raw.environment family = true) :
    viableBackends ((withArches raw arches).normalize C)
      (capabilityWitnesses host ((withArches raw arches).normalize C) survey)
      (backendRegistry ((withArches raw arches).normalize C)) =
    (viableBackends (raw.normalize C) (capabilityWitnesses host (raw.normalize C) survey)
      (backendRegistry (raw.normalize C))).filter
        fun candidate => runsOn (withArches raw arches).environment candidate.family := by
  rw [viableBackends, viableBackends, List.filter_filterMap]
  refine List.filterMap_congr fun family hpreferred => ?_
  have hregistry : backendRegistry ((withArches raw arches).normalize C) =
      backendRegistry (raw.normalize C) := rfl
  rw [hregistry]
  cases hentry : (backendRegistry (raw.normalize C)).entries.find? (·.family = family) with
  | none => rfl
  | some capability =>
      have hmem := (mem_registry.mp (List.mem_of_find?_eq_some hentry)).1
      have hfamily : capability.family = family := by simpa using List.find?_some hentry
      simp only [Option.bind_eq_bind, Option.bind_some]
      cases hruns : runsOn (withArches raw arches).environment family with
      | true =>
          have hruns' := hsub family
            ((@mem_preferredFamilies C (withArches raw arches) family).mp hpreferred) hruns
          rw [admissibleProof?_eq hsurvey hmem (hfamily ▸ hruns') (hfamily ▸ hruns)]
          cases admissibleProof? (raw.normalize C)
              (capabilityWitnesses host (raw.normalize C) survey) capability with
          | none => rfl
          | some proof => exact (Option.filter_some_pos (by exact hruns)).symm
      | false =>
          rw [admissibleProof?_eq_none hsurvey hmem (hfamily ▸ hruns)]
          cases admissibleProof? (raw.normalize C)
              (capabilityWitnesses host (raw.normalize C) survey) capability with
          | none => rfl
          | some proof => exact (Option.filter_some_neg (by exact Bool.not_eq_true _ ▸ hruns)).symm

end Viable

/-- The part of a requirement that does not depend on the environment. -/
def artifactShape (q : ArtifactRequirement) : ArtifactClass × String × RankDisposition :=
  (q.artifactClass, q.scope, q.rankDisposition)

/-- The shapes of the requirements come from the regions, the level and the scope. -/
theorem artifactShape_perm (C : Canon) (normalized : NormalizedRequest)
    (witnesses : List CapabilityWitness) (envelope : ShapeEnvelope) (selected : BackendSelection)
    (regions : List CompileRegion) (optimization : OptimizationEnvelope) (scope : BuildScope) :
    ((artifactRequirements C normalized witnesses envelope selected regions optimization
      scope).map artifactShape).Perm
    (((regions.filter fun region => scope.allowsArtifactScope region.name).flatMap fun region =>
        [(.compiledGraph, region.name, region.rankDisposition),
          (.tritonBinary, region.name, region.rankDisposition)]) ++
      if optimization.includeCudaGraphs ∧ regions.any (·.name = "decode_attention") ∧
          scope.allowsArtifactScope "decode_attention" then
        [(.cudaGraphCapture, "decode_attention", .rankLocal)] else []) := by
  refine ((sort_perm _).map _).trans (.of_eq ?_)
  rw [List.map_append, List.map_flatMap, apply_ite (List.map artifactShape)]
  rfl

namespace Assembly

variable {C : Canon} {V : Vllm} {host : PlannerHostSnapshot} {raw : RawRequest}
  {scope : BuildScope} {arches : List String} (r : Assembly C V host raw scope)

/-- The steps of the resolution for other architectures, if they lead to the same backends. -/
theorem exists_withArches {viable : BackendSelection}
    (hviable : selectBackends ((withArches raw arches).normalize C)
      (capabilityWitnesses host ((withArches raw arches).normalize C) r.survey)
      (backendRegistry ((withArches raw arches).normalize C)) = .ok viable)
    (hlimited : limitSecondary r.optimization viable = r.limited) :
    ∃ r' : Assembly C V host (withArches raw arches) scope, r'.limited = r.limited := by
  refine ⟨⟨r.survey, viable, r.limited, r.surveyed, hviable, ?_, ?_⟩, hlimited⟩
  · show compileRegions C (limitSecondary r.optimization viable) r.survey scope ≠ []
    rw [hlimited]
    exact r.regions_ne_nil
  · show expandSelectedBackends _ _ _ (limitSecondary r.optimization viable)
      (compileRegions C (limitSecondary r.optimization viable) r.survey scope) = _
    rw [hlimited]
    exact expandSelectedBackends_of_mem fun _ hregion => r.family_mem_limited hregion

variable {r} {r' : Assembly C V host (withArches raw arches) scope}
  (hlimited : r'.limited = r.limited)

include hlimited

theorem regions_withArches : r'.regions = r.regions := by
  have hsurvey : r'.survey = r.survey := Except.ok.inj (r'.surveyed.symm.trans r.surveyed)
  rw [regions, regions, hlimited, hsurvey]

theorem expanded_withArches : r'.expanded = r.expanded := by
  rw [expanded_eq_limited, expanded_eq_limited, hlimited]

theorem envelope_withArches : r'.envelope = r.envelope := by
  rw [envelope, envelope, expanded_withArches hlimited, regions_withArches hlimited]
  rfl

theorem obligations_withArches : r'.obligations = r.obligations := by
  rw [obligations, obligations, envelope_withArches hlimited, regions_withArches hlimited]
  rfl

theorem artifactShape_withArches :
    (r'.requirements.map artifactShape).Perm (r.requirements.map artifactShape) := by
  refine (artifactShape_perm ..).trans ?_
  rw [regions_withArches hlimited]
  exact (artifactShape_perm ..).symm

/-- Neither the checks of the plan nor its counts read the architectures. -/
theorem issues_withArches (hC : C.CollisionFree) (hblank : C.NonBlank) :
    r'.plan.issues = [] ↔ r.plan.issues = [] := by
  have henvelope := envelope_withArches hlimited
  have hobligations := obligations_withArches hlimited
  have hplan : r'.plan.shapeEnvelope = r.plan.shapeEnvelope := henvelope
  have htargets : r'.plan.targetIssues = r.plan.targetIssues := by
    have hcorrectness : r'.plan.guaranteeEnvelope.achievedCorrectness =
        r.plan.guaranteeEnvelope.achievedCorrectness := by
      show (if r'.envelope.nodes.any _ then _ else _) = _
      rw [henvelope]
      rfl
    have hperformance : r'.plan.guaranteeEnvelope.achievedPerformance =
        r.plan.guaranteeEnvelope.achievedPerformance := by
      show (if !r'.envelope.nodes.any _ && _ then _
        else if !r'.envelope.nodes.any _ then _ else _) = _
      rw [henvelope]
      rfl
    unfold ResolvedBuildPlan.targetIssues
    rw [hcorrectness, hperformance]
    rfl
  have hwarmup : r'.plan.warmupIssues = r.plan.warmupIssues := by
    have hmissing : r'.plan.missingWarmup = r.plan.missingWarmup := by
      unfold ResolvedBuildPlan.missingWarmup
      rw [hplan, show r'.plan.warmupObligations = r.plan.warmupObligations from hobligations]
    unfold ResolvedBuildPlan.warmupIssues
    rw [hmissing]
    rfl
  have hjit : r'.plan.residualJitIssues = r.plan.residualJitIssues := by
    unfold ResolvedBuildPlan.residualJitIssues ResolvedBuildPlan.residualShapeNodes
    rw [hplan]
    rfl
  have hlength : r'.requirements.length = r.requirements.length := by
    simpa using (artifactShape_withArches hlimited).length_eq
  have hlocal : r'.requirements.countP (·.rankDisposition = .rankLocal) =
      r.requirements.countP (·.rankDisposition = .rankLocal) := by
    have h := (artifactShape_withArches hlimited).countP_eq (·.2.2 = .rankLocal)
    rwa [List.countP_map, List.countP_map] at h
  rw [r'.issues_eq_nil_iff hblank, r.issues_eq_nil_iff hblank, r'.nodup_nodeNames_iff hC,
    r.nodup_nodeNames_iff hC, r'.budgetIssues_eq_nil_iff, r.budgetIssues_eq_nil_iff, htargets,
    hwarmup, hjit, hobligations, hlength, hlocal]
  rfl

end Assembly

/-! ## Shapes of plans -/

/-- Both requests fail, or both resolve to the same backend families, region names and classes and
    scopes of artifacts. -/
inductive SameShape : Except PlanError PlanningOutcome → Except PlanError PlanningOutcome → Prop
  | failed {e e' : PlanError} : SameShape (.error e) (.error e')
  | resolved {outcome outcome' : PlanningOutcome}
      (families : outcome.plan.selectedBackends.candidates.map (·.family) =
        outcome'.plan.selectedBackends.candidates.map (·.family))
      (regions : outcome.plan.compileRegions.map (·.name) =
        outcome'.plan.compileRegions.map (·.name))
      (artifacts : (outcome.plan.artifactRequirements.map fun q => (q.artifactClass, q.scope)).Perm
        (outcome'.plan.artifactRequirements.map fun q => (q.artifactClass, q.scope))) :
      SameShape (.ok outcome) (.ok outcome')

theorem SameShape.families_eq {outcome outcome' : PlanningOutcome}
    (h : SameShape (.ok outcome) (.ok outcome')) :
    outcome.plan.selectedBackends.candidates.map (·.family) =
      outcome'.plan.selectedBackends.candidates.map (·.family) := by
  cases h with
  | resolved families => exact families

theorem Assembly.sameShape {C : Canon} {V : Vllm} {host : PlannerHostSnapshot} {raw : RawRequest}
    {scope : BuildScope} {arches : List String} {r : Assembly C V host raw scope}
    {r' : Assembly C V host (withArches raw arches) scope} (hlimited : r'.limited = r.limited) :
    SameShape (.ok r.outcome) (.ok r'.outcome) := by
  refine .resolved ?_ ?_ ?_
  · show r.expanded.candidates.map _ = r'.expanded.candidates.map _
    rw [expanded_withArches hlimited]
  · show r.regions.map _ = r'.regions.map _
    rw [regions_withArches hlimited]
  · have h := (artifactShape_withArches hlimited).map fun shape => (shape.1, shape.2.1)
    rw [List.map_map, List.map_map] at h
    exact h.symm

section Shapes

variable {C : Canon} {V : Vllm} {host : PlannerHostSnapshot} {raw : RawRequest}
  {scope : BuildScope} {arches : List String}

/-- A plan is resolved for other architectures too if they lead to the same backends. -/
theorem Resolution.exists_withArches (r : Resolution C V host raw scope) (hC : C.CollisionFree)
    (hblank : C.NonBlank) {viable : BackendSelection}
    (hviable : selectBackends ((withArches raw arches).normalize C)
      (capabilityWitnesses host ((withArches raw arches).normalize C) r.survey)
      (backendRegistry ((withArches raw arches).normalize C)) = .ok viable)
    (hlimited : limitSecondary r.optimization viable = r.limited) :
    ∃ r' : Resolution C V host (withArches raw arches) scope, r'.limited = r.limited := by
  obtain ⟨r', h⟩ := r.toAssembly.exists_withArches hviable hlimited
  exact ⟨⟨r', (Assembly.issues_withArches h hC hblank).mpr r.valid⟩, h⟩

/-- A viable backend is preferred and runs on the architectures of the request. -/
theorem Assembly.runsOn_viable (r : Assembly C V host raw scope) {candidate : BackendCandidate}
    (h : candidate ∈ r.viable.candidates) :
    candidate.family ∈ raw.backendPolicy.preferredFamilies ∧
      runsOn raw.environment candidate.family = true := by
  rw [← (selectBackends_eq_ok_iff.mp r.viable_eq).2] at h
  constructor
  · obtain ⟨family, hpreferred, h⟩ := List.mem_filterMap.mp h
    obtain ⟨capability, -, h⟩ := Option.bind_eq_some_iff.mp h
    obtain ⟨proof, -, h⟩ := Option.bind_eq_some_iff.mp h
    cases h
    exact mem_preferredFamilies.mp hpreferred
  · have hself := @viableBackends_withArches C host raw raw.environment.gpuArches r.survey
      (tables_of_survey r.surveyed).2.2 fun _ _ hruns => hruns
    rw [withArches_self] at hself
    rw [hself] at h
    exact (List.mem_filter.mp h).2

/-- The selection for architectures on which the backends still run that the level compiles for. -/
theorem Assembly.exists_selection (r : Assembly C V host raw scope)
    (hsub : ∀ family ∈ raw.backendPolicy.preferredFamilies,
      runsOn (withArches raw arches).environment family = true →
      runsOn raw.environment family = true)
    (hruns : ∀ candidate ∈ r.limited.candidates,
      runsOn (withArches raw arches).environment candidate.family = true) :
    ∃ viable, selectBackends ((withArches raw arches).normalize C)
      (capabilityWitnesses host ((withArches raw arches).normalize C) r.survey)
      (backendRegistry ((withArches raw arches).normalize C)) = .ok viable ∧
    limitSecondary r.optimization viable = r.limited := by
  have hselect := selectBackends_eq_ok_iff.mp r.viable_eq
  have hprimary : runsOn (withArches raw arches).environment r.viable.primary.family = true := by
    rw [← r.primary_eq, r.expanded_eq_limited]
    exact hruns _ List.mem_cons_self
  refine ⟨⟨r.viable.primary, r.viable.secondary.filter fun candidate =>
    runsOn (withArches raw arches).environment candidate.family⟩, ?_, ?_⟩
  · refine selectBackends_eq_ok_iff.mpr ⟨hselect.1, ?_⟩
    rw [viableBackends_withArches (tables_of_survey r.surveyed).2.2 hsub, hselect.2]
    exact List.filter_cons_of_pos hprimary
  · unfold limited limitSecondary at hruns ⊢
    split
    case isTrue hlevel =>
      rw [if_pos hlevel] at hruns
      rw [List.filter_eq_self.mpr fun candidate hmem => hruns _ (List.mem_cons_of_mem _ hmem)]
    case isFalse => rfl

end Shapes

section Respelling

variable {C : Canon} {V : Vllm} {host : PlannerHostSnapshot} {raw : RawRequest}
  {scope : BuildScope}

theorem runsOn_respell {family : BackendFamily}
    (h : runsOn (respell raw).environment family = true) :
    runsOn raw.environment family = true := by
  cases family
  case flashInfer => rfl
  case triton => rfl
  all_goals
    obtain ⟨hvendor, harch⟩ := (Bool.and_eq_true _ _).mp h
    exact (Bool.and_eq_true _ _).mpr ⟨hvendor, hasArchitecture_respell harch⟩

/-- A plan whose backends still run is resolved for the respelled request too. -/
theorem Resolution.exists_respell (r : Resolution C V host raw scope) (hC : C.CollisionFree)
    (hblank : C.NonBlank)
    (hruns : ∀ candidate ∈ r.limited.candidates,
      runsOn (respell raw).environment candidate.family = true) :
    ∃ r' : Resolution C V host (respell raw) scope, r'.limited = r.limited := by
  obtain ⟨viable, hviable, hlimited⟩ :=
    r.toAssembly.exists_selection (fun _ _ => runsOn_respell) hruns
  exact r.exists_withArches hC hblank hviable hlimited

/-- A plan of the respelled request is one of the request, if no preferred backend is lost. -/
theorem Resolution.exists_of_respell (r' : Resolution C V host (respell raw) scope)
    (hC : C.CollisionFree) (hblank : C.NonBlank)
    (hkept : ∀ family ∈ raw.backendPolicy.preferredFamilies,
      runsOn raw.environment family = true → runsOn (respell raw).environment family = true) :
    ∃ r : Resolution C V host raw scope, r.limited = r'.limited := by
  have hruns : ∀ candidate ∈ r'.limited.candidates,
      runsOn (withArches (respell raw) raw.environment.gpuArches).environment candidate.family =
        true := by
    intro candidate hmem
    exact runsOn_respell (r'.runsOn_viable (candidates_limitSecondary hmem)).2
  obtain ⟨viable, hviable, hlimited⟩ :=
    @Assembly.exists_selection C V host (respell raw) scope raw.environment.gpuArches
      r'.toAssembly hkept hruns
  exact @Resolution.exists_withArches C V host (respell raw) scope raw.environment.gpuArches r' hC
    hblank viable hviable hlimited

/-- The backends that the request selects at its level. -/
def selectedFamilies (C : Canon) (V : Vllm) (host : PlannerHostSnapshot) (raw : RawRequest) :
    List BackendFamily :=
  match viableSelection C V host raw with
  | none => []
  | some (_, viable) =>
      (limitSecondary (.fromLevel raw.optimizationPolicy.level) viable).candidates.map (·.family)

/-- **Spelling.** Respelling the architectures keeps the success of a request and the shape of its
    plan if every preferred backend still runs; a request that resolves keeps them exactly when
    every backend that it selects does. -/
theorem respelling_keeps_shape (hC : C.CollisionFree) (hblank : C.NonBlank) :
    ((∀ family ∈ raw.backendPolicy.preferredFamilies, runsOn raw.environment family = true →
        runsOn (respell raw).environment family = true) →
      SameShape (resolveScoped C V host raw scope) (resolveScoped C V host (respell raw) scope)) ∧
    ∀ outcome, resolveScoped C V host raw scope = .ok outcome →
      (SameShape (resolveScoped C V host raw scope) (resolveScoped C V host (respell raw) scope) ↔
        ∀ family ∈ selectedFamilies C V host raw,
          runsOn (respell raw).environment family = true) := by
  constructor
  · intro hkept
    cases hraw : resolveScoped C V host raw scope with
    | ok outcome =>
        obtain ⟨r, rfl⟩ := Resolution.exists_of_ok hraw
        obtain ⟨r', hlimited⟩ := r.exists_respell hC hblank fun candidate hmem =>
          have hviable := r.runsOn_viable (candidates_limitSecondary hmem)
          hkept _ hviable.1 hviable.2
        rw [r'.resolveScoped_eq]
        exact Assembly.sameShape hlimited
    | error e =>
        cases hraw' : resolveScoped C V host (respell raw) scope with
        | error e' => exact .failed
        | ok outcome =>
            obtain ⟨r', -⟩ := Resolution.exists_of_ok hraw'
            obtain ⟨r, -⟩ := r'.exists_of_respell hC hblank hkept
            cases hraw.symm.trans r.resolveScoped_eq
  · intro outcome hraw
    obtain ⟨r, rfl⟩ := Resolution.exists_of_ok hraw
    rw [hraw]
    have hselected : selectedFamilies C V host raw = r.limited.candidates.map (·.family) := by
      rw [selectedFamilies, r.viableSelection_eq]
      rfl
    have hfamilies : r.outcome.plan.selectedBackends.candidates = r.limited.candidates := by
      rw [← r.expanded_eq_limited]
      rfl
    rw [hselected, ← hfamilies]
    constructor
    · intro hshape family hfamily
      cases hraw' : resolveScoped C V host (respell raw) scope with
      | error e =>
          rw [hraw'] at hshape
          cases hshape
      | ok outcome' =>
          obtain ⟨r', rfl⟩ := Resolution.exists_of_ok hraw'
          rw [hraw'] at hshape
          rw [hshape.families_eq] at hfamily
          obtain ⟨candidate, hmem, rfl⟩ := List.mem_map.mp hfamily
          have hlimited : candidate ∈ r'.limited.candidates := by
            rw [← r'.expanded_eq_limited]
            exact hmem
          exact (r'.runsOn_viable (candidates_limitSecondary hlimited)).2
    · intro hruns
      rw [hfamilies] at hruns
      obtain ⟨r', hlimited⟩ := r.exists_respell hC hblank fun candidate hmem =>
        hruns _ (List.mem_map_of_mem hmem)
      rw [r'.resolveScoped_eq]
      exact Assembly.sameShape hlimited

end Respelling

/-! ### Samples -/

/-- Without a backend there is no plan. -/
theorem resolveScoped_eq_error {C : Canon} {V : Vllm} {host : PlannerHostSnapshot}
    {raw : RawRequest} {scope : BuildScope} {survey : AdapterSurvey} {e : PlanError}
    (hsurvey : V.survey = .ok survey)
    (hselect : selectBackends (raw.normalize C)
      (capabilityWitnesses host (raw.normalize C) survey) (backendRegistry (raw.normalize C)) =
        .error e) : resolveScoped C V host raw scope = .error e := by
  simp only [resolveScoped, surveyOrFail_eq_ok.mpr hsurvey, bind, Except.bind, hselect]

/-- The architecture of the sample is not recognized with an underscore. -/
theorem runsOn_respell_nvidia : runsOn (respell nvidiaRequest).environment .cudaGraphs = false := by
  decide

/-- The sample for `sm90` resolves; for `sm_90` no backend is left. -/
theorem respelling_loses_backend :
    (∃ outcome, resolveScoped .ideal vendoredVllm nvidiaHost nvidiaRequest (guardScope true) =
      .ok outcome) ∧
    resolveScoped .ideal vendoredVllm nvidiaHost (respell nvidiaRequest) (guardScope true) =
      .error (.validation "no admissible backend remained after legality filtering") ∧
    ¬ SameShape
      (resolveScoped .ideal vendoredVllm nvidiaHost nvidiaRequest (guardScope true))
      (resolveScoped .ideal vendoredVllm nvidiaHost (respell nvidiaRequest) (guardScope true)) := by
  have hplan := (nvidiaPlan true).resolveScoped_eq
  have hviable : viableBackends ((respell nvidiaRequest).normalize .ideal)
      (capabilityWitnesses nvidiaHost ((respell nvidiaRequest).normalize .ideal) vendoredSurvey)
      (backendRegistry ((respell nvidiaRequest).normalize .ideal)) = [] := by
    have hselected := (selectBackends_eq_ok_iff.mp (nvidiaAssembly .ideal true).viable_eq).2
    have h := @viableBackends_withArches .ideal nvidiaHost nvidiaRequest
      (nvidiaRequest.environment.gpuArches.map respellArchitecture) vendoredSurvey
      (tables_of_survey survey_vendoredVllm).2.2 fun _ _ => runsOn_respell
    refine h.trans ?_
    rw [show viableBackends _ (capabilityWitnesses nvidiaHost _ vendoredSurvey) _ = _
      from hselected]
    exact List.filter_cons_of_neg (ne_true_of_eq_false runsOn_respell_nvidia)
  have hrespelled : resolveScoped .ideal vendoredVllm nvidiaHost (respell nvidiaRequest)
      (guardScope true) =
        .error (.validation "no admissible backend remained after legality filtering") := by
    have hselect : selectBackends ((respell nvidiaRequest).normalize .ideal)
        (capabilityWitnesses nvidiaHost ((respell nvidiaRequest).normalize .ideal) vendoredSurvey)
        (backendRegistry ((respell nvidiaRequest).normalize .ideal)) =
          .error (.validation "no admissible backend remained after legality filtering") := by
      rw [selectBackends, if_pos (of_decide_eq_true rfl), hviable]
    exact resolveScoped_eq_error survey_vendoredVllm hselect
  refine ⟨⟨_, hplan⟩, hrespelled, ?_⟩
  rw [hrespelled, show resolveScoped .ideal vendoredVllm nvidiaHost nvidiaRequest _ = _ from hplan]
  intro h
  cases h

section Hopper

variable (C : Canon)

/-- The request of the sample for Triton. -/
def hopperRequest : RawRequest :=
  { nvidiaRequest with backendPolicy := (amdRequest (.standard ⟨1, 1, 1⟩)).backendPolicy }

def hopperAssembly : Assembly C vendoredVllm nvidiaHost hopperRequest bodyScope where
  survey := vendoredSurvey
  viable := tritonSelection
  expanded := tritonSelection
  surveyed := survey_vendoredVllm
  viable_eq := rfl
  regions_ne_nil := by
    intro h
    cases h
  expanded_eq := rfl

theorem issues_hopper (hC : C.CollisionFree) (hblank : C.NonBlank) :
    (hopperAssembly C).plan.issues = [] := by
  have henvelope : (hopperAssembly C).envelope = ⟨[correctnessRange]⟩ := rfl
  have hobligations : (hopperAssembly C).obligations.Perm ((amdRegions C).map
      (warmupObligation (hopperRequest.normalize C) (.fromLevel .o0) correctnessRange)) :=
    sort_perm _
  refine Assembly.issues_eq_nil_of_range _ hC hblank (congrArg _ henvelope) hobligations
    (sort_perm _) rfl (by decide) (fun h => by cases h) List.mem_cons_self ?_
    (of_decide_eq_true rfl)
  show ["warmup:correctness-range:prefill_attention",
    "warmup:correctness-range:transformer_block_body"].Nodup
  decide

end Hopper

/-- A request for Triton resolves, and so does its respelling, with the same shape. -/
theorem respelling_keeps_shape_triton :
    (∃ outcome, resolveScoped .ideal vendoredVllm nvidiaHost hopperRequest bodyScope =
      .ok outcome) ∧
    respell hopperRequest ≠ hopperRequest ∧
    SameShape (resolveScoped .ideal vendoredVllm nvidiaHost hopperRequest bodyScope)
      (resolveScoped .ideal vendoredVllm nvidiaHost (respell hopperRequest) bodyScope) := by
  have hplan : Resolution .ideal vendoredVllm nvidiaHost hopperRequest bodyScope :=
    ⟨hopperAssembly .ideal,
      issues_hopper .ideal Canon.ideal_collisionFree Canon.ideal_nonBlank⟩
  have hkept : ∀ family ∈ hopperRequest.backendPolicy.preferredFamilies,
      runsOn hopperRequest.environment family = true →
        runsOn (respell hopperRequest).environment family = true := by decide
  refine ⟨⟨_, hplan.resolveScoped_eq⟩, ?_, ?_⟩
  · intro h
    have harches : (respell hopperRequest).environment.gpuArches =
        hopperRequest.environment.gpuArches := by rw [h]
    revert harches
    decide
  · exact (respelling_keeps_shape Canon.ideal_collisionFree Canon.ideal_nonBlank).1 hkept

end Sock.Engine
