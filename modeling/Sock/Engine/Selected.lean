/-
  What the selection of backends guarantees.

  * `Admitted`: a candidate with an admissible proof for a capability of the registry.
  * `admitted_of_selectBackends`: every selected backend is admitted.
  * `verdict_eq_admissible_iff`, `Admitted.entry`: what an admissible proof says, and the entry of
    the registry behind it.
  * `Assembly.expanded_eq_limited`: a region is compiled by a backend that was selected before it,
    so the regions bring none in.
  * `Assembly.witness_available`: what a backend requires of the environment is witnessed as
    available.
-/
import Sock.Engine.Resolved

namespace Sock.Engine

open Lib Sock.Core Fallible

section Admitted

variable {normalized : NormalizedRequest} {witnesses : List CapabilityWitness}
  {registry : BackendCapabilityRegistry}

/-- The candidate has an admissible proof for a capability of the registry. -/
def Admitted (normalized : NormalizedRequest) (witnesses : List CapabilityWitness)
    (registry : BackendCapabilityRegistry) (candidate : BackendCandidate) : Prop :=
  ∃ capability proof, registry.entries.find? (·.family = candidate.family) = some capability ∧
    admissibleProof? normalized witnesses capability = some proof ∧
    candidate = backendCandidate candidate.family proof

theorem admitted_of_viableBackends {candidate : BackendCandidate}
    (h : candidate ∈ viableBackends normalized witnesses registry) :
    Admitted normalized witnesses registry candidate := by
  obtain ⟨family, -, h⟩ := List.mem_filterMap.mp h
  obtain ⟨capability, hcapability, h⟩ := Option.bind_eq_some_iff.mp h
  obtain ⟨proof, hproof, h⟩ := Option.bind_eq_some_iff.mp h
  cases h
  exact ⟨capability, proof, hcapability, hproof, rfl⟩

/-- The selection is the list of viable backends, which a supported platform has. -/
theorem selectBackends_eq_ok_iff {selected : BackendSelection} :
    selectBackends normalized witnesses registry = .ok selected ↔
      (normalized.environment.operatingSystem = .linux ∧
        normalized.environment.acceleratorVendor ∈ [.nvidia, .amd]) ∧
      viableBackends normalized witnesses registry = selected.candidates := by
  unfold selectBackends
  split
  case isFalse hplatform =>
    rw [iff_false_right (fun h => hplatform h.1)]
    intro h
    cases h
  case isTrue hplatform =>
    rw [and_iff_right hplatform]
    cases viableBackends normalized witnesses registry with
    | nil => simp [BackendSelection.candidates]
    | cons primary secondary =>
        cases selected
        simp [BackendSelection.candidates]

theorem admitted_of_selectBackends {selected : BackendSelection}
    (h : selectBackends normalized witnesses registry = .ok selected) :
    ∀ candidate ∈ selected.candidates, Admitted normalized witnesses registry candidate := by
  intro candidate hmem
  rw [← (selectBackends_eq_ok_iff.mp h).2] at hmem
  exact admitted_of_viableBackends hmem

/-- The selection for one preferred family that is admissible. -/
theorem selectBackends_single {family : BackendFamily} {capability : BackendCapability}
    {proof : BackendAdmissibilityProof}
    (hplatform : normalized.environment.operatingSystem = .linux ∧
      normalized.environment.acceleratorVendor ∈ [.nvidia, .amd])
    (hfamilies : normalized.backendPolicy.preferredFamilies = [family])
    (hentry : registry.entries.find? (·.family = family) = some capability)
    (hproof : admissibleProof? normalized witnesses capability = some proof) :
    selectBackends normalized witnesses registry = .ok ⟨backendCandidate family proof, []⟩ := by
  refine selectBackends_eq_ok_iff.mpr ⟨hplatform, ?_⟩
  simp only [viableBackends, hfamilies, List.filterMap_cons, List.filterMap_nil, hentry,
    Option.bind_eq_bind, Option.bind_some, hproof]
  rfl

theorem candidates_limitSecondary {optimization : OptimizationEnvelope}
    {selected : BackendSelection} {candidate : BackendCandidate}
    (h : candidate ∈ (limitSecondary optimization selected).candidates) :
    candidate ∈ selected.candidates := by
  unfold limitSecondary at h
  split at h
  · exact h
  · cases List.mem_singleton.mp h
    exact List.mem_cons_self

/-- Families that have a candidate bring none in. -/
theorem foldlM_expandCandidates_of_mem {families : List BackendFamily}
    {candidates : List BackendCandidate}
    (h : ∀ family ∈ families, family ∈ candidates.map (·.family)) :
    families.foldlM (expandCandidates normalized witnesses registry) candidates =
      .ok candidates := by
  induction families with
  | nil => rfl
  | cons family families ih =>
      obtain ⟨candidate, hmem, hfamily⟩ := List.mem_map.mp (h family List.mem_cons_self)
      have hstep : expandCandidates normalized witnesses registry candidates family =
          .ok candidates := by
        unfold expandCandidates
        rw [if_pos (List.any_eq_true.mpr ⟨candidate, hmem, decide_eq_true hfamily⟩)]
      exact bind_eq_ok.mpr
        ⟨candidates, hstep, ih fun f hf => h f (List.mem_cons_of_mem _ hf)⟩

/-- Regions of selected families bring no backend in. -/
theorem expandSelectedBackends_of_mem {selected : BackendSelection} {regions : List CompileRegion}
    (h : ∀ region ∈ regions, region.family ∈ selected.candidates.map (·.family)) :
    expandSelectedBackends normalized witnesses registry selected regions = .ok selected := by
  refine bind_eq_ok.mpr ⟨selected.candidates, foldlM_expandCandidates_of_mem ?_, rfl⟩
  intro family hfamily
  obtain ⟨region, hregion, rfl⟩ := List.mem_map.mp hfamily
  exact h region hregion

end Admitted

/-! ## What an admitted backend has -/

section Capabilities

variable {normalized : NormalizedRequest} {witnesses : List CapabilityWitness}
  {candidate : BackendCandidate}

/-- The registry is the part of the table that supports the environment. -/
theorem mem_registry {entry : BackendCapability} : entry ∈ (backendRegistry normalized).entries ↔
    entry ∈ capabilityTable ∧
      normalized.environment.operatingSystem ∈ entry.supportedOperatingSystems ∧
      normalized.environment.acceleratorVendor ∈ entry.supportedAcceleratorVendors := by
  rw [backendRegistry, (sortBy_perm _ _).mem_iff, List.mem_filter, decide_eq_true_eq]

/-- The registry has one entry for each family. -/
theorem eq_of_mem_registry {entry entry' : BackendCapability}
    (h : entry ∈ (backendRegistry normalized).entries)
    (h' : entry' ∈ (backendRegistry normalized).entries) (hfamily : entry.family = entry'.family) :
    entry = entry' := by
  have hnodup : (capabilityTable.map (·.family)).Nodup := by decide
  exact List.inj_on_of_nodup_map hnodup (mem_registry.mp h).1 (mem_registry.mp h').1 hfamily

/-- An acquisition is admissible if the environment is supported, no witness is missing and the
    packaging strategy has nothing against it. -/
theorem verdict_eq_admissible_iff {capability : BackendCapability}
    {acquisition : ArtifactAcquisition} :
    (backendProof normalized witnesses capability acquisition).verdict = .admissible ↔
      normalized.environment.operatingSystem ∈ capability.supportedOperatingSystems ∧
      normalized.environment.acceleratorVendor ∈ capability.supportedAcceleratorVendors ∧
      (∀ key ∈ capability.requiredWitnesses, ∃ w ∈ witnesses, w.key = key) ∧
      packagingRejections normalized.backendPolicy.packagingStrategy acquisition = [] := by
  have hverdict : ∀ reasons : List String,
      (if reasons.isEmpty then AdmissibilityVerdict.admissible else .rejected) = .admissible ↔
        reasons = [] := by
    intro reasons
    cases reasons <;> simp
  simp only [backendProof, hverdict, List.append_eq_nil_iff, ite_eq_left_iff, List.map_eq_nil_iff,
    List.filter_eq_nil_iff, Bool.not_eq_true', Bool.not_eq_false, List.any_eq_true,
    decide_eq_true_eq, and_assoc, reduceCtorEq, imp_false, not_not]

/-- A proof reads the witnesses that the capability requires only. -/
theorem admissibleProof?_congr {witnesses' : List CapabilityWitness}
    {capability : BackendCapability}
    (h : ∀ key ∈ capability.requiredWitnesses,
      witnesses.any (·.key = key) = witnesses'.any (·.key = key)) :
    admissibleProof? normalized witnesses capability =
      admissibleProof? normalized witnesses' capability := by
  have hpresent := List.filter_congr h
  have hmissing := List.filter_congr fun key hkey => congrArg Bool.not (h key hkey)
  have hproof : backendProof normalized witnesses capability =
      backendProof normalized witnesses' capability := by
    funext acquisition
    simp only [backendProof, hpresent, hmissing]
  rw [admissibleProof?, admissibleProof?, backendProofs, backendProofs, hproof]

/-- The entry of the registry behind an admitted candidate. -/
theorem Admitted.entry
    (h : Admitted normalized witnesses (backendRegistry normalized) candidate) :
    ∃ entry ∈ (backendRegistry normalized).entries, entry.family = candidate.family ∧
      candidate.acquisition ∈ entry.allowedAcquisitions ∧
      candidate.admissibility =
        backendProof normalized witnesses entry candidate.acquisition ∧
      candidate.admissibility.verdict = .admissible := by
  obtain ⟨entry, proof, hfind, hproof, hcandidate⟩ := h
  obtain ⟨acquisition, hallowed, rfl⟩ := List.mem_map.mp (List.mem_of_find?_eq_some hproof)
  have hverdict : (backendProof normalized witnesses entry acquisition).verdict =
      .admissible := by simpa using List.find?_some hproof
  have hfamily : entry.family = candidate.family := by simpa using List.find?_some hfind
  have hacquisition : candidate.acquisition = acquisition := by
    rw [hcandidate]
    rfl
  have hadmissibility : candidate.admissibility =
      backendProof normalized witnesses entry acquisition := by
    rw [hcandidate]
    rfl
  rw [hacquisition, hadmissibility]
  exact ⟨entry, List.mem_of_find?_eq_some hfind, hfamily, hallowed, rfl, hverdict⟩

/-- The capability behind an admitted candidate: its requirements are the candidate's, and each
    has a witness. -/
theorem Admitted.capability
    (h : Admitted normalized witnesses (backendRegistry normalized) candidate) :
    ∃ capability ∈ capabilityTable, capability.family = candidate.family ∧
      candidate.admissibility.requiredWitnesses = capability.requiredWitnesses ∧
      candidate.admissibility.verdict = .admissible ∧
      ∀ key ∈ capability.requiredWitnesses, ∃ w ∈ witnesses, w.key = key := by
  obtain ⟨entry, hentry, hfamily, -, hproof, hverdict⟩ := h.entry
  refine ⟨entry, (mem_registry.mp hentry).1, hfamily, ?_, hverdict, ?_⟩
  · rw [hproof]
    rfl
  · rw [hproof] at hverdict
    exact (verdict_eq_admissible_iff.mp hverdict).2.2.1

/-- CUDA graphs are admitted with a local build only. -/
theorem Admitted.acquisition_cudaGraphs
    (h : Admitted normalized witnesses (backendRegistry normalized) candidate)
    (hfamily : candidate.family = .cudaGraphs) : candidate.acquisition = .localAotBuild := by
  obtain ⟨entry, hentry, hcapability, hallowed, -⟩ := h.entry
  have htable : ∀ c ∈ capabilityTable, c.family = .cudaGraphs →
      c.allowedAcquisitions = [.localAotBuild] := by decide
  rw [htable entry (mem_registry.mp hentry).1 (hcapability.trans hfamily)] at hallowed
  exact List.mem_singleton.mp hallowed

/-- FlashInfer is admitted with its prebuilt binaries only. -/
theorem Admitted.flashinferPrebuilt
    (h : Admitted normalized witnesses (backendRegistry normalized) candidate)
    (hfamily : candidate.family = .flashInfer) :
    ∃ w ∈ witnesses, w.key = "flashinfer.prebuilt" := by
  obtain ⟨capability, hmem, hcapability, -, -, hwitnesses⟩ := h.capability
  rw [hfamily] at hcapability
  have htable : ∀ c ∈ capabilityTable, c.family = .flashInfer →
      "flashinfer.prebuilt" ∈ c.requiredWitnesses := by decide
  exact hwitnesses _ (htable capability hmem hcapability)

/-- The witnesses that backends require. -/
theorem mem_requiredWitnesses {capability : BackendCapability} (h : capability ∈ capabilityTable)
    {key : String} (hkey : key ∈ capability.requiredWitnesses) :
    key ∈ ["flashinfer.prebuilt", "nvidia.tma", "cuda.graphs"] := by
  revert key
  revert capability
  decide

/-- No diagnostic witnesses what a backend requires. -/
theorem key_diagnosticWitness {diagnostic : AdapterDiagnostic} (h : diagnostic ∈ diagnostics) :
    (diagnosticWitness diagnostic).key ∉ ["flashinfer.prebuilt", "nvidia.tma", "cuda.graphs"] := by
  revert diagnostic
  decide +kernel

end Capabilities

/-- A region takes its acquisition from the candidate of its family: the default is for families
    that are not selected. -/
theorem exists_regionAcquisition {selected : BackendSelection} {family : BackendFamily}
    (h : family ∈ selected.candidates.map (·.family)) :
    ∃ candidate ∈ selected.candidates, candidate.family = family ∧
      regionAcquisition family selected = candidate.acquisition := by
  unfold regionAcquisition
  split
  case isTrue hprimary => exact ⟨selected.primary, List.mem_cons_self, hprimary, rfl⟩
  case isFalse hprimary =>
    have hsecondary : family ∈ selected.secondary.map (·.family) :=
      (List.mem_cons.mp h).resolve_left (Ne.symm hprimary)
    cases hfind : selected.secondary.find? (·.family = family) with
    | some candidate =>
        exact ⟨candidate, List.mem_cons_of_mem _ (List.mem_of_find?_eq_some hfind),
          by simpa using List.find?_some hfind, rfl⟩
    | none =>
        obtain ⟨candidate, hmem, hfamily⟩ := List.mem_map.mp hsecondary
        exact absurd (decide_eq_true hfamily) (List.find?_eq_none.mp hfind candidate hmem)

namespace Assembly

variable {C : Canon} {V : Vllm} {host : PlannerHostSnapshot} {raw : RawRequest}
  {scope : BuildScope} (r : Assembly C V host raw scope)

/-- A region is compiled by the primary backend, or by another one that the level compiles for. -/
theorem family_mem_limited {region : CompileRegion} (h : region ∈ r.regions) :
    region.family ∈ r.limited.candidates.map (·.family) := by
  obtain ⟨surveyed, -, hselected, rfl⟩ := r.mem_regions.mp h
  have hadmissible : backendBindingIsAdmissible surveyed.backendBinding r.limited = true := by
    simp only [regionSelected, Bool.and_eq_true] at hselected
    exact hselected.1.2
  show resolveBackendBinding surveyed.backendBinding r.limited ∈ _
  cases hbinding : surveyed.backendBinding with
  | primary => exact List.mem_map_of_mem List.mem_cons_self
  | fixed family =>
      rw [hbinding, backendBindingIsAdmissible, Bool.or_eq_true] at hadmissible
      rcases hadmissible with hprimary | hsecondary
      · exact List.mem_map.mpr ⟨_, List.mem_cons_self, of_decide_eq_true hprimary⟩
      · obtain ⟨candidate, hmem, hfamily⟩ := List.any_eq_true.mp hsecondary
        exact List.mem_map.mpr
          ⟨candidate, List.mem_cons_of_mem _ hmem, of_decide_eq_true hfamily⟩

/-- The regions bring no backend in. -/
theorem expanded_eq_limited : r.expanded = r.limited :=
  Except.ok.inj (r.expanded_eq.symm.trans
    (expandSelectedBackends_of_mem fun _ hregion => r.family_mem_limited hregion))

theorem admitted {candidate : BackendCandidate} (h : candidate ∈ r.expanded.candidates) :
    Admitted (raw.normalize C) r.witnesses (backendRegistry (raw.normalize C)) candidate := by
  rw [expanded_eq_limited] at h
  exact admitted_of_selectBackends r.viable_eq candidate (candidates_limitSecondary h)

theorem family_mem {region : CompileRegion} (h : region ∈ r.regions) :
    region.family ∈ r.expanded.candidates.map (·.family) := by
  rw [expanded_eq_limited]
  exact r.family_mem_limited h

/-- The primary backend is the first viable one. -/
theorem primary_eq : r.expanded.primary = r.viable.primary := by
  rw [expanded_eq_limited, limited, limitSecondary]
  split <;> rfl

/-- What a backend requires of the environment is witnessed as available. -/
theorem witness_available {w : CapabilityWitness} (h : w ∈ r.witnesses)
    (hkey : w.key ∈ ["flashinfer.prebuilt", "nvidia.tma", "cuda.graphs"]) :
    w.value = "available" := by
  have hnvidia : ∀ w ∈ nvidiaWitnesses host.runtimeContract (raw.normalize C).environment,
      w.key ∈ ["flashinfer.prebuilt", "nvidia.tma", "cuda.graphs"] → w.value = "available" := by
    unfold nvidiaWitnesses
    simp only [List.forall_mem_append]
    refine ⟨⟨⟨⟨⟨⟨?_, ?_⟩, ?_⟩, ?_⟩, ?_⟩, ?_⟩, ?_⟩ <;> split <;> simp [witness]
  revert w
  rw [witnesses, capabilityWitnesses]
  intro w h
  rw [(sort_perm _).mem_iff] at h
  revert w
  simp only [List.forall_mem_append]
  refine ⟨⟨⟨?_, ?_⟩, ?_⟩, ?_⟩
  · simp [witness]
  · split <;> simp [witness]
  · split
    · exact hnvidia
    · simp
  · intro w hw hkey
    obtain ⟨d, hd, rfl⟩ := List.mem_map.mp hw
    rw [(tables_of_survey r.surveyed).2.2] at hd
    exact absurd hkey (key_diagnosticWitness hd)

end Assembly

end Sock.Engine
