/-
  Which of its own checks an assembled plan can fail.

  * `Assembly.issues_eq_nil_iff`: the guarantee targets, the warmup coverage, the names of the
    graph's nodes, the residual JIT policy and the budgets. Every other check passes by
    construction: selected backends, manifest, proofs, witnesses, runtime-JIT evidence, gates,
    trace and decision.
  * `Assembly.nodup_nodeNames_iff`: node names repeat only where two obligations have one name.
-/
import Sock.Engine.Graph
import Sock.Engine.Selected

namespace Sock.Engine

open Lib Sock.Core Fallible

namespace Assembly

open ResolvedBuildPlan

variable {C : Canon} {V : Vllm} {host : PlannerHostSnapshot} {raw : RawRequest}
  {scope : BuildScope} (r : Assembly C V host raw scope)

/-! ## Checks that always pass -/

/-- The seam behind a region of the plan. -/
theorem exists_seam {region : CompileRegion} (h : region ∈ r.regions) :
    ∃ seam ∈ regionSeams, seam.canonicalName = region.name ∧
      region.family = resolveBackendBinding seam.backendBinding r.limited ∧
      region.shapePlanes = seam.shapePlanes ∧ region.rankDisposition = seam.rankDisposition := by
  obtain ⟨surveyed, hs, -, rfl⟩ := r.mem_regions.mp h
  exact ⟨surveyed.toRegionSeam, mem_regionSeams r.surveyed hs, rfl, rfl, rfl, rfl⟩

/-- The decode region is captured in CUDA graphs. -/
theorem family_of_decode {region : CompileRegion} (h : region ∈ r.regions)
    (hname : region.name = "decode_attention") : region.family = .cudaGraphs := by
  obtain ⟨seam, hseam, hcanonical, hfamily, -⟩ := r.exists_seam h
  have hbinding : ∀ seam ∈ regionSeams, seam.canonicalName = "decode_attention" →
      seam.backendBinding = .fixed .cudaGraphs := by decide
  rw [hfamily, hbinding seam hseam (hcanonical.trans hname)]
  rfl

theorem name_ne_empty {region : CompileRegion} (h : region ∈ r.regions) : region.name ≠ "" := by
  obtain ⟨seam, hseam, hcanonical, -⟩ := r.exists_seam h
  have hnames : ∀ seam ∈ regionSeams, seam.canonicalName ≠ "" := by decide
  rw [← hcanonical]
  exact hnames seam hseam

/-- The backend and the acquisition of a requirement are those of a selected candidate. -/
theorem exists_candidate {q : ArtifactRequirement} (h : q ∈ r.requirements) :
    ∃ candidate ∈ r.expanded.candidates, candidate.family = q.backend ∧
      q.acquisition = candidate.acquisition := by
  obtain ⟨region, hregion, hname, hq | rfl⟩ := r.mem_requirements h
  · have hsource : q.backend = region.family ∧
        q.acquisition = regionAcquisition region.family r.expanded := by
      rw [regionRequirements, List.mem_pair] at hq
      rcases hq with rfl | rfl <;> exact ⟨rfl, rfl⟩
    rw [hsource.1, hsource.2]
    exact exists_regionAcquisition (r.family_mem hregion)
  · -- The capture's acquisition is fixed, and it is the only one that its family is admitted with.
    have hfamily := r.family_mem hregion
    rw [r.family_of_decode hregion hname] at hfamily
    obtain ⟨candidate, hmem, hfamily⟩ := List.mem_map.mp hfamily
    exact ⟨candidate, hmem, hfamily, ((r.admitted hmem).acquisition_cudaGraphs hfamily).symm⟩

/-- The backend of a requirement is selected. -/
theorem backend_mem {q : ArtifactRequirement} (h : q ∈ r.requirements) :
    q.backend ∈ r.expanded.candidates.map (·.family) := by
  obtain ⟨candidate, hmem, hfamily, -⟩ := r.exists_candidate h
  exact List.mem_map.mpr ⟨candidate, hmem, hfamily⟩

theorem primary_admitted : Admitted (raw.normalize C) r.witnesses
    (backendRegistry (raw.normalize C)) r.expanded.primary := r.admitted List.mem_cons_self

theorem capabilityWitnesses_plan :
    r.plan.guaranteeEvidence.capabilityWitnesses = r.witnesses := by
  rw [plan, assemblePlan]

theorem selectionIssues_eq_nil : r.plan.selectionIssues = [] := by
  have hregions : r.plan.widened CompileRegion.name CompileRegion.family r.plan.compileRegions =
      [] := by
    rw [widened, List.map_eq_nil_iff, List.filter_eq_nil_iff]
    intro region hregion
    simp only [decide_eq_true_eq, not_not]
    exact r.family_mem hregion
  have hartifacts : r.plan.widened ArtifactRequirement.scope ArtifactRequirement.backend
      r.plan.artifactRequirements = [] := by
    rw [widened, List.map_eq_nil_iff, List.filter_eq_nil_iff]
    intro q hq
    simp only [decide_eq_true_eq, not_not]
    exact r.backend_mem hq
  have hflashinfer : ¬ (r.plan.selectedBackends.primary.family = .flashInfer ∧
      ∀ w ∈ r.plan.guaranteeEvidence.capabilityWitnesses, w.key ≠ "flashinfer.prebuilt") := by
    rw [r.capabilityWitnesses_plan]
    rintro ⟨hfamily, hnone⟩
    obtain ⟨w, hw, hkey⟩ := r.primary_admitted.flashinferPrebuilt hfamily
    exact hnone w hw hkey
  unfold selectionIssues
  simp only [hregions, hartifacts, List.append_eq_nil_iff, issueIf_eq_nil,
    List.isEmpty_nil, Bool.not_true, decide_eq_false_iff_not]
  exact ⟨⟨trivial, trivial⟩, hflashinfer⟩

theorem manifestIssues_eq_nil : r.plan.manifestIssues = [] := by
  have hmanifest : r.plan.guaranteeEvidence.artifactManifest = r.plan.expectedArtifactManifest :=
    rfl
  unfold manifestIssues
  simp only [hmanifest, List.append_eq_nil_iff, issueIf_eq_nil,
    List.any_eq_false, ne_eq, not_true_eq_false, decide_false, and_true, decide_eq_true_eq]
  intro entry hentry
  obtain ⟨q, hq, rfl⟩ := List.mem_map.mp hentry
  obtain ⟨region, hregion, hname, -⟩ := r.mem_requirements hq
  show q.scope ≠ ""
  rw [← hname]
  exact r.name_ne_empty hregion

/-- The obligations of the nodes and the regions that need them. -/
def neededWarmup : List WarmupObligation :=
  (r.envelope.nodes.filter (·.intent ≠ .uncoveredResidual)).flatMap fun node =>
    (r.regions.filter (needsWarmup r.optimization node)).map
      (warmupObligation (raw.normalize C) r.optimization node)

theorem obligations_eq :
    r.obligations = sort (r.neededWarmup.filter fun o => scope.readiness.all (·.keeps o)) := by
  rw [obligations, warmupObligations]
  cases scope.readiness with
  | none => exact congrArg sort (List.filter_eq_self.mpr fun _ _ => rfl).symm
  | some readiness => rfl

theorem obligations_perm :
    r.obligations.Perm (r.neededWarmup.filter fun o => scope.readiness.all (·.keeps o)) := by
  rw [obligations_eq]
  exact sort_perm _

theorem mem_neededWarmup {o : WarmupObligation} : o ∈ r.neededWarmup ↔
    ∃ node ∈ r.envelope.nodes, node.intent ≠ .uncoveredResidual ∧ ∃ region ∈ r.regions,
      needsWarmup r.optimization node region = true ∧
      warmupObligation (raw.normalize C) r.optimization node region = o := by
  simp only [neededWarmup, List.mem_flatMap, List.mem_map, List.mem_filter, decide_eq_true_eq,
    and_assoc]

/-- The obligations are those of the nodes and the regions that need them, as far as the readiness
    keeps them. -/
theorem mem_obligations {o : WarmupObligation} : o ∈ r.obligations ↔
    o ∈ r.neededWarmup ∧ scope.readiness.all (·.keeps o) = true := by
  rw [r.obligations_perm.mem_iff, List.mem_filter]

theorem warmupProofIssues_eq_nil : r.plan.warmupProofIssues = [] := by
  unfold warmupProofIssues
  rw [List.flatMap_eq_nil_iff]
  intro o ho
  obtain ⟨node, -, -, region, -, -, rfl⟩ :=
    r.mem_neededWarmup.mp (r.mem_obligations.mp ho).1
  simp [warmupObligation, warmupProof]

/-- A requirement that needs a witness has it: its backend is admitted with it. -/
theorem failClosed {q : ArtifactRequirement} (h : q ∈ r.requirements) :
    q.admissibility.failClosed = true := by
  have hbackend := r.backend_mem h
  have hproof : q.admissibility.failClosed = decide
      ((if q.backend = .flashInfer ∧ q.acquisition = .vendorPrebuilt then
        ["flashinfer.prebuilt"] else []).length =
      ((if q.backend = .flashInfer ∧ q.acquisition = .vendorPrebuilt then
        ["flashinfer.prebuilt"] else []).filter fun key =>
          r.witnesses.any (·.key = key)).length) := by
    obtain ⟨region, -, -, hq | rfl⟩ := r.mem_requirements h
    · rw [regionRequirements, List.mem_pair] at hq
      rcases hq with rfl | rfl <;> rfl
    · rfl
  rw [hproof, decide_eq_true_eq]
  split
  case isFalse => rfl
  case isTrue hflashinfer =>
    rw [hflashinfer.1, List.mem_map] at hbackend
    obtain ⟨candidate, hcandidate, hfamily⟩ := hbackend
    obtain ⟨w, hw, hkey⟩ := (r.admitted hcandidate).flashinferPrebuilt hfamily
    have hany : r.witnesses.any (·.key = "flashinfer.prebuilt") = true :=
      List.any_eq_true.mpr ⟨w, hw, decide_eq_true hkey⟩
    simp [hany]

theorem admissibilityIssues_eq_nil : r.plan.admissibilityIssues = [] := by
  obtain ⟨-, -, -, -, hverdict, -⟩ := r.primary_admitted.capability
  unfold admissibilityIssues
  rw [List.append_eq_nil_iff, List.flatMap_eq_nil_iff]
  refine ⟨?_, fun q hq => ?_⟩
  · rw [issueIf_eq_nil, decide_eq_false_iff_not, not_not]
    exact hverdict
  · rw [r.failClosed hq]
    rfl

theorem witnessIssues_eq_nil : r.plan.witnessIssues = [] := by
  obtain ⟨capability, hcapability, -, hrequired, -, hwitnesses⟩ := r.primary_admitted.capability
  have hkeys : r.plan.selectedBackends.primary.admissibility.requiredWitnesses =
      capability.requiredWitnesses := hrequired
  rw [witnessIssues, hkeys, List.flatMap_eq_nil_iff]
  intro key hkey
  rw [witnessIssue, r.capabilityWitnesses_plan]
  cases hfind : r.witnesses.find? (·.key = key) with
  | none =>
      obtain ⟨w, hw, hwkey⟩ := hwitnesses key hkey
      have hnone := List.find?_eq_none.mp hfind w hw
      simp [hwkey] at hnone
  | some w =>
      have hwkey : w.key = key := by simpa using List.find?_some hfind
      have hvalue := r.witness_available (List.mem_of_find?_eq_some hfind)
        (hwkey ▸ mem_requiredWitnesses hcapability hkey)
      dsimp only
      rw [hvalue, issueIf_eq_nil]
      decide +kernel

/-- The evidence of an applicable surface names only what the plan has. -/
theorem evidenceIssues_eq_nil {surface : ResidualRuntimeJitSurface}
    (h : surface ∈ applicableSurfaces (raw.normalize C) r.expanded r.survey) :
    r.plan.evidenceIssues (surfaceEvidence C (raw.normalize C) r.expanded r.regions r.obligations
      r.requirements surface) = [] := by
  rw [applicableSurfaces, List.mem_filter, (tables_of_survey r.surveyed).2.1] at h
  obtain ⟨htable, happlies⟩ := h
  have htopology : topologyContradiction (raw.normalize C) surface = false := by
    simpa [surfaceIsTopologyApplicable] using (of_decide_eq_true happlies).2
  have htriggers : ∀ surface ∈ residualJitSurfaces, surface.triggerInputs ≠ [] := by decide
  have hbounded : (boundedBy C (raw.normalize C) r.expanded r.regions r.obligations
      r.requirements surface) ≠ [] := by
    obtain ⟨input, inputs, hinput⟩ := List.exists_cons_of_ne_nil (htriggers surface htable)
    refine List.ne_nil_of_mem (a := "trigger:" ++ input) ?_
    simp only [boundedBy, mem_dedup, (sort_perm _).mem_iff, List.mem_append]
    exact .inl (.inl (.inl (.inr (List.mem_map.mpr ⟨input, hinput ▸ List.mem_cons_self, rfl⟩))))
  unfold evidenceIssues unknownIssues
  simp only [List.append_eq_nil_iff, List.flatMap_eq_nil_iff, issueIf_eq_nil,
    decide_eq_false_iff_not, not_not, surfaceEvidence, contradictionReasons, htopology]
  refine ⟨⟨⟨⟨by simpa using hbounded, rfl⟩, ?_⟩, ?_⟩, ?_⟩
  · intro name hname
    obtain ⟨region, hregion, heq⟩ := List.any_eq_true.mp (List.mem_filter.mp hname).2
    exact List.mem_map.mpr ⟨region, hregion, of_decide_eq_true heq⟩
  · intro name hname
    obtain ⟨q, hq, heq⟩ := List.any_eq_true.mp (List.mem_filter.mp hname).2
    exact List.mem_map.mpr ⟨q, hq, of_decide_eq_true heq⟩
  · intro proofId hproof
    obtain ⟨name, -, hproof⟩ := List.mem_flatMap.mp hproof
    obtain ⟨o, ho, rfl⟩ := List.mem_map.mp hproof
    exact List.mem_map.mpr ⟨o, (List.mem_filter.mp ho).1, rfl⟩

theorem runtimeJitIssues_eq_nil : r.plan.runtimeJitIssues = [] := by
  have hevidence : r.plan.guaranteeEvidence.runtimeJitEvidence =
      ((applicableSurfaces (raw.normalize C) r.expanded r.survey).filter fun surface =>
        r.regions.any (·.name ∈ surface.affectedRegions) ||
          surface.backendFamily = "torch.compile").map
      (surfaceEvidence C (raw.normalize C) r.expanded r.regions r.obligations r.requirements) :=
    rfl
  unfold runtimeJitIssues
  rw [hevidence, List.append_eq_nil_iff, List.flatMap_eq_nil_iff]
  refine ⟨?_, fun evidence hmem => ?_⟩
  · -- the guard surface of torch.compile applies to every plan
    have hguard : guardDroppedDynamicShapes ∈
        (applicableSurfaces (raw.normalize C) r.expanded r.survey).filter fun surface =>
          r.regions.any (·.name ∈ surface.affectedRegions) ||
            surface.backendFamily = "torch.compile" := by
      rw [List.mem_filter, applicableSurfaces, List.mem_filter, (tables_of_survey r.surveyed).2.1]
      refine ⟨⟨by simp [residualJitSurfaces], ?_⟩, ?_⟩
      · simp [surfaceApplies, guardDroppedDynamicShapes, surfaceIsTopologyApplicable,
          topologyContradiction]
      · simp [guardDroppedDynamicShapes]
    rw [issueIf_eq_nil, decide_eq_false_iff_not, List.isEmpty_iff,
      List.map_eq_nil_iff]
    exact fun hnil => List.ne_nil_of_mem hguard hnil.2
  · obtain ⟨surface, hsurface, rfl⟩ := List.mem_map.mp hmem
    exact r.evidenceIssues_eq_nil (List.mem_of_mem_filter hsurface)

theorem validate_rewritePass {name : String} {phase : RewritePhase}
    {inputs outputs invariants rules assumptions : List String} {before after : CanonicalHash}
    (hname : isBlank name = false) (hbefore : isBlank before.asStr = false)
    (hafter : isBlank after.asStr = false) (hinputs : inputs.isEmpty = false)
    (houtputs : outputs.isEmpty = false) :
    (rewritePass name phase inputs outputs invariants before after rules assumptions).validate =
      .ok () := by
  have hfind : invariants.find? (fun i => decide (i ∉ invariants)) = none :=
    List.find?_eq_none.mpr fun i hi => by simp [hi]
  unfold PassTrace.validate rewritePass
  dsimp only
  rw [if_neg (by simp [hname]), if_neg (by simp [hbefore, hafter]), if_neg (by simp [hinputs]),
    if_neg (by simp [houtputs]), hfind]
  rfl

theorem rewriteIssues_eq_nil (hC : C.NonBlank) : r.plan.rewriteIssues = [] := by
  have hash : ∀ {α : Type} [Serialize α] (a : α), isBlank (C.canonicalHash a).asStr = false :=
    fun a => hC (toValue a)
  unfold rewriteIssues
  rw [List.flatMap_eq_nil_iff]
  intro pass hpass
  have hvalid : pass.validate = .ok () := by
    revert pass
    show ∀ pass ∈ rewriteTrace C (raw.normalize C) r.expanded r.regions r.envelope r.requirements
      r.obligations _ _ r.survey, pass.validate = .ok ()
    unfold rewriteTrace
    simp only [List.forall_mem_cons]
    have hrequest : isBlank (raw.normalize C).identity.asStr = false := hash _
    exact ⟨validate_rewritePass (by decide) hrequest hrequest rfl rfl,
      validate_rewritePass (by decide) hrequest hrequest rfl rfl,
      validate_rewritePass (by decide) hrequest hrequest rfl rfl,
      validate_rewritePass (by decide) hrequest (hash r.expanded) rfl rfl,
      validate_rewritePass (by decide) (hash r.expanded) (hash r.regions) rfl rfl,
      validate_rewritePass (by decide) (hash r.regions) (hash r.envelope) rfl rfl,
      validate_rewritePass (by decide) (hash r.envelope) (hash r.obligations) rfl rfl,
      validate_rewritePass (by decide) (hash r.obligations)
        (hash r.plan.materializationGraph) rfl rfl,
      validate_rewritePass (by decide) (hash r.plan.materializationGraph)
        (hash r.plan.guaranteeEnvelope) rfl rfl,
      validate_rewritePass (by decide) (hash r.plan.guaranteeEnvelope) (hash r.requirements)
        rfl rfl, by simp⟩
  rw [hvalid]

theorem asStr_injective {family family' : BackendFamily} (h : family.asStr = family'.asStr) :
    family = family' := by
  revert h
  cases family <;> cases family' <;> decide

theorem decisionIssues_eq_nil : r.plan.decisionIssues = [] := by
  unfold decisionIssues
  rw [List.flatMap_eq_nil_iff]
  intro entry hentry
  obtain ⟨capability, -, rfl⟩ := List.mem_map.mp hentry
  rw [List.append_eq_nil_iff, issueIf_eq_nil, issueIf_eq_nil,
    decide_eq_false_iff_not, decide_eq_false_iff_not, not_not]
  constructor
  · show (r.expanded.candidates.find? (·.family = capability.family)).isSome =
      decide (capability.family.asStr ∈ (r.expanded.candidates.map (·.family)).map (·.asStr))
    rw [Bool.eq_iff_iff, decide_eq_true_eq, List.find?_isSome, List.map_map, List.mem_map]
    refine exists_congr fun candidate => and_congr_right fun _ => ?_
    rw [decide_eq_true_eq]
    exact ⟨fun h => congrArg _ h, asStr_injective⟩
  · -- a warmup scope of the family is a region of the family
    rintro ⟨hreachable, hregions, hartifacts⟩
    simp only [decisionEntry] at hreachable hregions hartifacts
    rw [hregions, hartifacts, Bool.not_true, Bool.false_or, Bool.false_or, Bool.not_eq_true',
      List.isEmpty_eq_false_iff] at hreachable
    have hwarmups : ((r.obligations.filter fun o => r.regions.any fun region =>
        region.name = o.regionName ∧ region.family = capability.family).map (·.regionName)) ≠
        [] := hreachable
    obtain ⟨name, hname⟩ := List.exists_mem_of_ne_nil _ hwarmups
    obtain ⟨o, ho, -⟩ := List.mem_map.mp hname
    obtain ⟨region, hregion, hfamily⟩ := List.any_eq_true.mp (List.mem_filter.mp ho).2
    have hmem : region ∈ r.regions.filter (·.family = capability.family) :=
      List.mem_filter.mpr ⟨hregion, decide_eq_true (of_decide_eq_true hfamily).2⟩
    rw [List.isEmpty_iff, List.map_eq_nil_iff] at hregions
    exact List.ne_nil_of_mem hmem hregions

/-! ## The checks that depend on the request -/

/-- **Validation.** An assembled plan passes its checks exactly when its targets, its warmup
    coverage, its node names, its residual JIT and its budgets pass. -/
theorem issues_eq_nil_iff (hC : C.NonBlank) : r.plan.issues = [] ↔
    r.plan.targetIssues = [] ∧ r.plan.warmupIssues = [] ∧ (r.nodes.map (·.name)).Nodup ∧
      r.plan.residualJitIssues = [] ∧ r.plan.budgetIssues = [] := by
  have hfrontier : ∀ name ∈ r.plan.materializationGraph.earlyServeFrontier,
      name ∈ r.plan.materializationGraph.nodes.map (·.name) := by
    intro name hname
    obtain ⟨o, ho, rfl⟩ := List.mem_map.mp hname
    exact List.mem_map.mpr ⟨_, mem_graphNodes.mpr (.inr (.inr ⟨o, List.mem_of_mem_filter ho,
      rfl⟩)), rfl⟩
  have hgraph : r.plan.graphIssues = [] ↔ (r.nodes.map (·.name)).Nodup := by
    rw [graphIssues_eq_nil]
    exact and_iff_right hfrontier
  have hgates : gateIssues = [] := rfl
  rw [issues_eq_nil, hgraph]
  simp only [r.selectionIssues_eq_nil, r.manifestIssues_eq_nil, r.warmupProofIssues_eq_nil,
    r.admissibilityIssues_eq_nil, r.witnessIssues_eq_nil, r.runtimeJitIssues_eq_nil,
    hgates, r.rewriteIssues_eq_nil hC, r.decisionIssues_eq_nil, true_and, and_true]

/-! ## Node names -/

/-- The name of a requirement's node has its hash. -/
theorem handle_inj (hC : C.CollisionFree) {q q' : ArtifactRequirement} {kind : String}
    (h : kind ++ q.artifactClass.asStr ++ ":" ++ (C.canonicalHash q).asStr =
      kind ++ q'.artifactClass.asStr ++ ":" ++ (C.canonicalHash q').asStr) : q = q' := by
  have hcolon : ∀ c : ArtifactClass, ':' ∉ c.asStr.toList := by
    intro c
    cases c <;> decide
  have hlists := congrArg String.toList h
  simp only [String.toList_append, List.append_assoc, List.append_cancel_left_eq] at hlists
  have hhash := (append_cons_inj (hcolon _) (hcolon _) hlists).2
  exact hC.eq_of_canonicalHash (congrArg CanonicalHash.mk (String.toList_inj.mp hhash))

/-- The nodes of one requirement have distinct names. -/
theorem nodup_requirementNodes (q : ArtifactRequirement) :
    ((requirementNodes C raw.topology q).map (·.name)).Nodup := by
  have hne : artifactNodeHandle C q ≠ fanoutNodeHandle C q := by
    intro h
    have hhead := congrArg (·.toList.head?) h
    simp [artifactNodeHandle, fanoutNodeHandle] at hhead
  rw [requirementNodes]
  split
  · simpa [artifactNode, fanoutNode] using hne
  · simp

/-- A node's name is that of a requirement, of its fanout or of an obligation. -/
theorem name_requirementNodes {q : ArtifactRequirement} {name : String}
    (h : name ∈ (requirementNodes C raw.topology q).map (·.name)) :
    name = artifactNodeHandle C q ∨ name = fanoutNodeHandle C q := by
  rw [requirementNodes] at h
  split at h
  · simpa [artifactNode, fanoutNode] using h
  · exact .inl (by simpa [artifactNode] using h)

theorem nodup_nodeNames_iff (hC : C.CollisionFree) :
    (r.nodes.map (·.name)).Nodup ↔ (r.obligations.map (·.handle)).Nodup := by
  have hhandles : (r.obligations.map (warmupNode C raw.topology r.requirements)).map (·.name) =
      r.obligations.map (·.handle) := by
    rw [List.map_map]
    rfl
  have hrequirements : ((r.requirements.flatMap (requirementNodes C raw.topology)).map
      (·.name)).Nodup := by
    rw [List.map_flatMap]
    refine List.nodup_flatMap.mpr ⟨fun q _ => nodup_requirementNodes q, ?_⟩
    have hnodup : r.requirements.Nodup := .of_map _ r.nodup_classScope
    refine hnodup.imp fun {q q'} hne name hname hname' => hne ?_
    -- the kind of node is the first letter of its name
    rcases name_requirementNodes hname with rfl | rfl <;>
      rcases name_requirementNodes hname' with h | h
    · exact handle_inj hC h
    · have hhead := congrArg (·.toList.head?) h
      simp [artifactNodeHandle, fanoutNodeHandle] at hhead
    · have hhead := congrArg (·.toList.head?) h
      simp [artifactNodeHandle, fanoutNodeHandle] at hhead
    · exact handle_inj hC h
  have hdisjoint : ((r.requirements.flatMap (requirementNodes C raw.topology)).map
      (·.name)).Disjoint (r.obligations.map (·.handle)) := by
    intro name hname hhandle
    rw [List.map_flatMap] at hname
    obtain ⟨q, -, hname⟩ := List.mem_flatMap.mp hname
    obtain ⟨o, -, rfl⟩ := List.mem_map.mp hhandle
    rcases name_requirementNodes hname with h | h <;>
    · have hhead := congrArg (·.toList.head?) h
      simp [WarmupObligation.handle, artifactNodeHandle, fanoutNodeHandle] at hhead
  rw [nodes, graphNodes, List.map_append, hhandles, List.nodup_append']
  exact ⟨fun h => h.2.1, fun h => ⟨hrequirements, h, hdisjoint⟩⟩

/-! ## Plans for one range -/

theorem budgetIssues_eq_nil_iff : r.plan.budgetIssues = [] ↔
    (r.obligations.map (·.stepCount)).sum % 2 ^ 32 ≤ r.optimization.maxWarmupSteps ∧
      r.requirements.length ≤ r.optimization.artifactBudget.maxArtifactCount ∧
      r.requirements.countP (·.rankDisposition = .rankLocal) ≤
        r.optimization.artifactBudget.maxRankLocalArtifacts := by
  unfold budgetIssues budgetIssue
  simp only [List.append_eq_nil_iff, issueIf_eq_nil, decide_eq_false_iff_not,
    not_lt, and_assoc]
  rfl

/-- An envelope of one node is covered by an obligation for it. -/
theorem missingWarmup_eq_nil {node : ShapeEnvelopeNode} (henvelope : r.envelope.nodes = [node])
    (hmem : node.name ∈ r.obligations.map (·.nodeName)) : r.plan.missingWarmup = [] := by
  refine List.filter_eq_nil_iff.mpr fun name hname => ?_
  have hnames : r.plan.shapeEnvelope.nodes.map (·.name) = [node.name] := by
    rw [show r.plan.shapeEnvelope.nodes = [node] from henvelope]
    rfl
  rw [mem_dedup, (sort_perm _).mem_iff, hnames] at hname
  cases List.mem_singleton.mp hname
  exact fun h => (of_decide_eq_true h).1 hmem

/-- No shape is left to the runtime, and the policy is coherent. -/
theorem residualJitIssues_eq_nil {node : ShapeEnvelopeNode} (henvelope : r.envelope.nodes = [node])
    (hintent : node.intent ≠ .uncoveredResidual)
    (hpolicy : raw.backendPolicy.runtimeJitPolicy.disposition = .shapeBounded →
      raw.backendPolicy.packagingStrategy = .preferPrebuiltThenAotThenJit) :
    r.plan.residualJitIssues = [] := by
  have hnodes : r.plan.shapeEnvelope.nodes = [node] := henvelope
  have hresidual : r.plan.residualShapeNodes = 0 := by
    rw [residualShapeNodes, hnodes, List.countP_singleton]
    simp [hintent]
  unfold residualJitIssues
  rw [hresidual]
  simp only [List.append_eq_nil_iff, issueIf_eq_nil, decide_eq_false_iff_not,
    not_and, ne_eq, not_not, not_lt, Nat.zero_le, Nat.lt_irrefl, and_true, false_implies, true_and]
  exact hpolicy

/-- A plan for one range passes its checks if its obligations have distinct names and its budgets
    are kept. -/
theorem issues_eq_nil_of_range (hC : C.CollisionFree) (hblank : C.NonBlank)
    {node : ShapeEnvelopeNode} (henvelope : r.envelope.nodes = [node])
    {obligations : List WarmupObligation} (hobligations : r.obligations.Perm obligations)
    {requirements : List ArtifactRequirement} (hrequirements : r.requirements.Perm requirements)
    (htargets : r.plan.targetIssues = []) (hintent : node.intent ≠ .uncoveredResidual)
    (hpolicy : raw.backendPolicy.runtimeJitPolicy.disposition = .shapeBounded →
      raw.backendPolicy.packagingStrategy = .preferPrebuiltThenAotThenJit)
    (hcovered : node.name ∈ obligations.map (·.nodeName))
    (hnames : (obligations.map (·.handle)).Nodup)
    (hbudgets : (obligations.map (·.stepCount)).sum % 2 ^ 32 ≤ r.optimization.maxWarmupSteps ∧
      requirements.length ≤ r.optimization.artifactBudget.maxArtifactCount ∧
      requirements.countP (·.rankDisposition = .rankLocal) ≤
        r.optimization.artifactBudget.maxRankLocalArtifacts) : r.plan.issues = [] := by
  rw [r.issues_eq_nil_iff hblank, r.nodup_nodeNames_iff hC, r.budgetIssues_eq_nil_iff,
    (hobligations.map _).nodup_iff, (hobligations.map _).sum_nat, hrequirements.length_eq,
    hrequirements.countP_eq]
  refine ⟨htargets, ?_, hnames, r.residualJitIssues_eq_nil henvelope hintent hpolicy, hbudgets⟩
  rw [warmupIssues, r.missingWarmup_eq_nil henvelope ((hobligations.map _).mem_iff.mpr hcovered)]
  rfl

end Assembly

/-! ## A plan that validates -/

/-- The lines of the vendored engine that anchor the regions. -/
def anchorLines : List (String × Nat) :=
  [("The layers in the models are repeated with some patterns", 1198),
    ("self.decode_cudagraph_max_bs", 118), ("self.use_full_cuda_graph", 114),
    ("_warm_sparse_swa_prefill_metadata_kernel", 99),
    ("_warm_prefill_chunk_metadata_kernel", 139),
    ("Warm DSv4 sparse-MLA mixed prefill+decode attention", 223),
    ("run_mixed_prefill_decode_warmup", 17), ("deep MoE/TP graphs", 776),
    ("_VLLM_FALLBACK_NAMESPACE_PREFIXES", 795)]

def anchorLine (pattern : String) : Option Nat := anchorLines.lookup pattern

def vendoredVllm : Vllm where
  root := "engine/../vllm"
  revision := "commit 978de8335305fe99b610109254e7e3037a735948"
  anchor := fun file pattern => match anchorLine pattern with
    | some line => .ok line
    | none => .error (.missingPattern file pattern)

def vendoredSurvey : AdapterSurvey :=
  vendoredVllm.located fun _ pattern => (anchorLine pattern).getD 0

theorem survey_vendoredVllm : vendoredVllm.survey = .ok vendoredSurvey :=
  Vllm.survey_eq_located (by decide +kernel)

/-- A Linux host with one AMD accelerator. -/
def amdHost : PlannerHostSnapshot where
  operatingSystem := .linux
  acceleratorVendor := .amd
  gpuArches := ["gfx1100"]
  cudaVersion := ""
  driverVersion := ""
  pythonAbi := "cp312"
  libcAbi := "glibc-2.39"
  flashinferPrebuiltAvailable := false
  deviceCount := 1

/-- What the requests for that host differ in. -/
structure AmdTarget where
  model : ModelRef
  kvLayoutPolicy : KvLayoutPolicy
  engineSource : EngineSource
  topology : ExecutionTopology
  warmupPolicy : WarmupPolicy

/-- A model with the standard layout. -/
def AmdTarget.standard (topology : ExecutionTopology) : AmdTarget :=
  ⟨⟨"models/base", "main"⟩, .standard, ⟨"release", "0.8.0"⟩, topology, ⟨0, false⟩⟩

/-- A request for that host at the lowest level. -/
def amdRequest (target : AmdTarget) : RawRequest where
  engine := .vllm
  model := target.model
  engineSource := target.engineSource
  environment := ⟨.linux, .amd, ["gfx1100"], "", "", "cp312", "glibc-2.39"⟩
  topology := target.topology
  kvLayoutPolicy := target.kvLayoutPolicy
  backendPolicy := ⟨[.triton], .preferPrebuiltThenAot, ⟨.forbidden, 0⟩, ⟨.advisory, .failOpen⟩,
    ⟨.advisory, .failOpen⟩⟩
  shapePolicy := ⟨⟨1, 8, 1, 4096⟩, ⟨1, 8, 1, 4096⟩, [], []⟩
  cachePolicy := ⟨"default", false⟩
  warmupPolicy := target.warmupPolicy
  optimizationPolicy := ⟨.o0⟩
  layeredConfig := []

/-- Two of the regions. -/
def bodyScope : BuildScope :=
  { BuildScope.unscoped with regionNames := ["transformer_block_body", "prefill_attention"] }

/-- The selected backend. -/
def tritonCandidate : BackendCandidate :=
  backendCandidate .triton
    { verdict := .admissible
      family := .triton
      acquisition := .localAotBuild
      packagingStrategy := .preferPrebuiltThenAot
      requiredWitnesses := []
      satisfiedWitnesses := []
      rejectedReasons := []
      provenance :=
        [⟨"vllm-adapter-survey",
          "Triton regional compilation remains legal for vLLM attention and warmup paths"⟩] }

def tritonSelection : BackendSelection := ⟨tritonCandidate, []⟩

section Amd

variable (C : Canon) (target : AmdTarget)

theorem selectBackends_amd : selectBackends ((amdRequest target).normalize C)
    (capabilityWitnesses amdHost ((amdRequest target).normalize C) vendoredSurvey)
    (backendRegistry ((amdRequest target).normalize C)) = .ok tritonSelection := rfl

def amdAssembly : Assembly C vendoredVllm amdHost (amdRequest target) bodyScope where
  survey := vendoredSurvey
  viable := tritonSelection
  expanded := tritonSelection
  surveyed := survey_vendoredVllm
  viable_eq := selectBackends_amd C target
  regions_ne_nil := by
    intro h
    cases h
  expanded_eq := rfl

/-- The regions of the plan. -/
def amdRegions : List CompileRegion :=
  [prefillAttention, transformerBlockBody].map fun region =>
    compileRegion C tritonSelection (region.located fun _ pattern => (anchorLine pattern).getD 0)

/-- The one node of its envelope. -/
def correctnessRange : ShapeEnvelopeNode :=
  ⟨"correctness-range", .correctness, .symbolicRange, ⟨1, 8, 1, 4096⟩, none, [.triton]⟩

theorem regions_amd : (amdAssembly C target).regions = amdRegions C := rfl

theorem envelope_amd : (amdAssembly C target).envelope = ⟨[correctnessRange]⟩ := rfl

/-- The obligations: the range in each region. -/
theorem obligations_perm_amd : (amdAssembly C target).obligations.Perm
    ((amdRegions C).map (warmupObligation ((amdRequest target).normalize C) (.fromLevel .o0)
      correctnessRange)) :=
  sort_perm _

theorem requirements_perm_amd : (amdAssembly C target).requirements.Perm
    ((amdRegions C).flatMap (regionRequirements C ((amdRequest target).normalize C)
      (amdAssembly C target).witnesses ⟨[correctnessRange]⟩ tritonSelection)) := by
  refine (sort_perm _).trans (.of_eq ?_)
  rfl

/-- The compiled graph of a region. -/
def amdGraph (region : AnchoredRegion) : ArtifactRequirement :=
  let region := compileRegion C tritonSelection
    (region.located fun _ pattern => (anchorLine pattern).getD 0)
  regionRequirement C ((amdRequest target).normalize C) (amdAssembly C target).witnesses
    ⟨[correctnessRange]⟩ tritonSelection region .compiledGraph 24000000 2500 220
    ["compiled graph ownership follows vLLM cache namespace " ++ region.cacheNamespace,
      "region " ++ region.name ++ " is bounded by the selected shape envelope"]

theorem compare_of_scope {q q' : ArtifactRequirement}
    (hclass : compare q.artifactClass q'.artifactClass = .eq)
    (hbackend : compare q.backend q'.backend = .eq)
    (hacquisition : compare q.acquisition q'.acquisition = .eq)
    (hscope : compare q.scope q'.scope = .lt) : compare q q' = .lt := by
  show (compare q.artifactClass q'.artifactClass).then ((compare q.backend q'.backend).then
    ((compare q.acquisition q'.acquisition).then ((compare q.scope q'.scope).then _))) = _
  rw [hclass, hbackend, hacquisition, hscope]
  rfl

/-- The graph of the prefill comes before that of the transformer body. -/
theorem sublist_requirements_amd :
    [amdGraph C target prefillAttention, amdGraph C target transformerBlockBody].Sublist
      (amdAssembly C target).requirements := by
  have hscope : compare "prefill_attention" "transformer_block_body" = .lt := by decide
  have hcompare : compare (amdGraph C target prefillAttention)
      (amdGraph C target transformerBlockBody) = .lt := compare_of_scope rfl rfl rfl hscope
  exact @sublist_sortBy_cons _ compare _ _ [_, amdGraph C target transformerBlockBody, _]
    (by rw [hcompare]; rfl) (by simp)

theorem issues_amd (hC : C.CollisionFree) (hblank : C.NonBlank) :
    (amdAssembly C target).plan.issues = [] := by
  refine Assembly.issues_eq_nil_of_range _ hC hblank (congrArg _ (envelope_amd C target))
    (obligations_perm_amd C target) (requirements_perm_amd C target) rfl (by decide)
    (fun h => by cases h) List.mem_cons_self ?_ (of_decide_eq_true rfl)
  show ["warmup:correctness-range:prefill_attention",
    "warmup:correctness-range:transformer_block_body"].Nodup
  decide

def amdResolution (hC : C.CollisionFree) (hblank : C.NonBlank) :
    Resolution C vendoredVllm amdHost (amdRequest target) bodyScope :=
  ⟨amdAssembly C target, issues_amd C target hC hblank⟩

end Amd

end Sock.Engine
