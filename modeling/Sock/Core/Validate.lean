/-
  Validation of a plan (`ResolvedBuildPlan::validate`, core/src/model.rs) and its report
  (core/src/verification.rs).

  The source pushes its issues one check after the other; here each check is a list of issues
  and `issues` puts them in the source's order. `status` is `failed` exactly when there is an
  issue (`validate_passed_iff`): every issue is an error.

  The sum of the warmup steps is a 32-bit sum that wraps.
-/
import Mathlib.Algebra.GroupWithZero.Nat
import Sock.Core.Plan

namespace Sock.Core

open Lib

/-! ## The report -/

structure OperatorGate where
  command : String
  compileFree : Bool
  forbiddenQueues : List QueueKind
  rationale : String
  deriving DecidableEq

instance : Serialize OperatorGate := ⟨fun g => .object
  [("command", toValue g.command), ("compile_free", toValue g.compileFree),
    ("forbidden_queues", toValue g.forbiddenQueues), ("rationale", toValue g.rationale)]⟩

structure ValidationIssue where
  severity : ValidationSeverity
  code : String
  message : String
  deriving DecidableEq

instance : Serialize ValidationIssue := ⟨fun i => .object
  [("severity", toValue i.severity), ("code", toValue i.code), ("message", toValue i.message)]⟩

structure VerificationReport where
  level : ValidationLevel
  status : ValidationStatus
  issues : List ValidationIssue
  phaseTimings : List (QueueKind × Option Nat)
  runtimeJitWitnesses : List String
  runtimeJitEvidence : List RuntimeJitEvidence
  operatorGates : List OperatorGate
  deriving DecidableEq

instance : Serialize VerificationReport := ⟨fun r => .object
  [("level", toValue r.level), ("status", toValue r.status), ("issues", toValue r.issues),
    ("phase_timings", toValue r.phaseTimings),
    ("runtime_jit_witnesses", toValue r.runtimeJitWitnesses),
    ("runtime_jit_evidence", toValue r.runtimeJitEvidence),
    ("operator_gates", toValue r.operatorGates)]⟩

def operatorGates : List OperatorGate :=
  [{ command := "verify"
     compileFree := true
     forbiddenQueues := [.compile, .assemble, .artifactIo, .warmup]
     rationale := "Bundle verification must be purely structural and witness-backed; it may " ++
       "not materialize or compile anything." },
   { command := "replay"
     compileFree := true
     forbiddenQueues := [.compile, .assemble, .artifactIo, .warmup]
     rationale := "Replay must consume recorded bundle state only and never perform new " ++
       "artifact, compile, or warmup work." }]

/-! ## Issues -/

/-- An issue of severity `Error`. -/
def errorIssue (code message : String) : ValidationIssue := ⟨.error, code, message⟩

/-- The issue, if the condition holds. -/
def issueIf (b : Bool) (code message : String) : List ValidationIssue :=
  if b then [errorIssue code message] else []

namespace ResolvedBuildPlan

variable (plan : ResolvedBuildPlan)

/-- The families the plan selected. -/
def selectedFamilies : List BackendFamily := plan.selectedBackends.candidates.map (·.family)

/-- The manifest entry a requirement stands for. -/
def manifestEntry (primary : BackendFamily) (requirement : ArtifactRequirement) :
    ArtifactManifestEntry where
  identity := artifactManifestIdentity primary requirement
  artifactClass := requirement.artifactClass
  backend := requirement.backend
  scope := requirement.scope
  admissibility := requirement.admissibility

def expectedArtifactManifest : List ArtifactManifestEntry :=
  plan.artifactRequirements.map (manifestEntry plan.selectedBackends.primary.family)

/-- The items outside the selected backend set, as `scope:family`. -/
def widened {α : Type} (name : α → String) (family : α → BackendFamily) (items : List α) :
    List String :=
  (items.filter (family · ∉ plan.selectedFamilies)).map fun i => name i ++ ":" ++ (family i).debug

def selectionIssues : List ValidationIssue :=
  let regions := plan.widened CompileRegion.name CompileRegion.family plan.compileRegions
  let artifacts :=
    plan.widened ArtifactRequirement.scope ArtifactRequirement.backend plan.artifactRequirements
  issueIf (!regions.isEmpty) "compile_region_backend_out_of_selection"
    ("Compile regions widened beyond the selected backend set: " ++ ", ".intercalate regions) ++
  issueIf (!artifacts.isEmpty) "artifact_backend_out_of_selection"
    ("Artifact requirements widened beyond the selected backend set: " ++
      ", ".intercalate artifacts) ++
  issueIf (plan.selectedBackends.primary.family = .flashInfer ∧
      ∀ w ∈ plan.guaranteeEvidence.capabilityWitnesses, w.key ≠ "flashinfer.prebuilt")
    "missing_flashinfer_witness" "FlashInfer selected without a prebuilt capability witness"

/-- A fail-closed target above the level that was achieved. -/
def unmet (achieved : GuaranteeLevel) (target : GuaranteeTarget) : Bool :=
  achieved.rank < target.level.rank ∧ target.failureMode = .failClosed

def targetIssues : List ValidationIssue :=
  issueIf (unmet plan.guaranteeEnvelope.achievedCorrectness
      plan.guaranteeEnvelope.requestedCorrectness)
    "correctness_target_unmet"
    "Achieved correctness guarantee is below the requested fail-closed target" ++
  issueIf (unmet plan.guaranteeEnvelope.achievedPerformance
      plan.guaranteeEnvelope.requestedPerformance)
    "performance_target_unmet"
    "Achieved performance guarantee is below the requested fail-closed target"

/-- The names of envelope nodes without a warmup obligation, residual nodes apart. A name is
    judged by the first node that has it. -/
def missingWarmup : List String :=
  let names := dedup (sort (plan.shapeEnvelope.nodes.map (·.name)))
  names.filter fun name =>
    name ∉ plan.warmupObligations.map (·.nodeName) ∧
      (plan.shapeEnvelope.nodes.find? (·.name = name)).any (·.intent ≠ .uncoveredResidual)

def warmupIssues : List ValidationIssue :=
  issueIf (!plan.missingWarmup.isEmpty ∧ plan.requestedReadiness ≠ some "early_serve")
    "warmup_incomplete"
    ("Warmup obligations missing for envelope nodes: " ++ ", ".intercalate plan.missingWarmup)

def manifestIssues : List ValidationIssue :=
  issueIf (plan.guaranteeEvidence.artifactManifest.any (·.scope = "")) "artifact_scope_missing"
    "Artifact manifest contains an unscoped artifact" ++
  issueIf (sort plan.guaranteeEvidence.artifactManifest ≠ sort plan.expectedArtifactManifest)
    "artifact_manifest_invalid_reuse"
    "Artifact manifest does not exactly match the canonical artifact requirements."

def warmupProofIssues : List ValidationIssue :=
  plan.warmupObligations.flatMap fun o =>
    issueIf (o.proof.nodeName ≠ o.nodeName ∨ o.proof.regionName ≠ o.regionName)
      "warmup_proof_mismatch"
      ("Warmup proof does not match obligation " ++ o.nodeName ++ ":" ++ o.regionName)

/-- The names that an earlier node already has, once for each repetition. -/
def duplicates : List String → List String → List String
  | _, [] => []
  | seen, name :: names =>
      if name ∈ seen then name :: duplicates seen names else duplicates (name :: seen) names

def graphIssues : List ValidationIssue :=
  let names := plan.materializationGraph.nodes.map (·.name)
  issueIf (plan.materializationGraph.earlyServeFrontier.any (· ∉ names))
    "early_serve_frontier_invalid"
    "Early-serve frontier references unknown materialization nodes" ++
  issueIf (!(duplicates [] names).isEmpty) "materialization_node_duplicate"
    ("Materialization graph contains duplicate node names: " ++
      ", ".intercalate (duplicates [] names))

def residualShapeNodes : Nat :=
  plan.shapeEnvelope.nodes.countP (·.intent = .uncoveredResidual)

def residualJitIssues : List ValidationIssue :=
  let policy := plan.normalizedRequest.backendPolicy
  issueIf (0 < plan.residualShapeNodes ∧ policy.runtimeJitPolicy.disposition = .forbidden)
    "residual_jit_forbidden"
    ("Residual runtime JIT is present while policy requires fail-closed prebuilt/AoT " ++
      "closure.") ++
  issueIf (policy.runtimeJitPolicy.disposition = .shapeBounded ∧
      policy.packagingStrategy ≠ .preferPrebuiltThenAotThenJit)
    "bounded_jit_policy_mismatch"
    ("Shape-bounded residual JIT requires the explicit prebuilt->AoT->bounded-JIT packaging " ++
      "strategy.") ++
  issueIf (policy.runtimeJitPolicy.maxResidualNodeCount < plan.residualShapeNodes)
    "residual_jit_budget_exceeded"
    ("Residual runtime JIT nodes " ++ toString plan.residualShapeNodes ++
      " exceed policy budget " ++ toString policy.runtimeJitPolicy.maxResidualNodeCount)

def totalWarmupSteps : Nat := (plan.warmupObligations.map (·.stepCount)).sum % 2 ^ 32

/-- A count above its budget. -/
def budgetIssue (count budget : Nat) (code what verb : String) : List ValidationIssue :=
  issueIf (budget < count) code
    (what ++ " " ++ toString count ++ " " ++ verb ++ " optimization budget " ++
      toString budget ++ " for " ++ plan.optimizationEnvelope.level.asStr)

def budgetIssues : List ValidationIssue :=
  let budget := plan.optimizationEnvelope.artifactBudget
  plan.budgetIssue plan.totalWarmupSteps plan.optimizationEnvelope.maxWarmupSteps
    "optimization_warmup_budget_exceeded" "Warmup steps" "exceed" ++
  plan.budgetIssue plan.artifactRequirements.length budget.maxArtifactCount
    "optimization_artifact_budget_exceeded" "Artifact count" "exceeds" ++
  plan.budgetIssue (plan.artifactRequirements.countP (·.rankDisposition = .rankLocal))
    budget.maxRankLocalArtifacts "optimization_rank_local_budget_exceeded"
    "Rank-local artifact count" "exceeds"

def admissibilityIssues : List ValidationIssue :=
  let primary := plan.selectedBackends.primary
  issueIf (primary.admissibility.verdict ≠ .admissible) "backend_selection_not_admissible"
    ("Primary backend " ++ primary.family.debug ++ " is not admissible: " ++
      ", ".intercalate primary.admissibility.rejectedReasons) ++
  plan.artifactRequirements.flatMap fun artifact =>
    issueIf (!artifact.admissibility.failClosed) "artifact_not_fail_closed"
      ("Artifact " ++ artifact.scope ++ " does not carry a fail-closed admissibility proof")

/-- A witness the primary backend requires: present, and not a denial. -/
def witnessIssue (key : String) : List ValidationIssue :=
  match plan.guaranteeEvidence.capabilityWitnesses.find? (·.key = key) with
  | some witness =>
      issueIf (asciiLowercase witness.value ∈ ["missing", "absent", "false"])
        "capability_witness_contradiction"
        ("Capability witness " ++ key ++ " contradicts backend admissibility.")
  | none => [errorIssue "capability_witness_missing"
      ("Capability witness " ++ key ++ " required by backend admissibility is missing.")]

def witnessIssues : List ValidationIssue :=
  plan.selectedBackends.primary.admissibility.requiredWitnesses.flatMap plan.witnessIssue

/-- The names that `known` does not have, one issue each. -/
def unknownIssues (known names : List String) (code surface what : String) :
    List ValidationIssue :=
  names.flatMap fun name =>
    issueIf (name ∉ known) code
      ("Runtime-JIT surface " ++ surface ++ " references unknown " ++ what ++ " " ++ name ++ ".")

def evidenceIssues (e : RuntimeJitEvidence) : List ValidationIssue :=
  issueIf e.boundedBy.isEmpty "runtime_jit_evidence_unbounded"
    ("Runtime-JIT surface " ++ e.surfaceName ++
      " is not bounded by any proof or artifact identity.") ++
  issueIf (!e.contradictionReasons.isEmpty) "runtime_jit_evidence_contradiction"
    ("Runtime-JIT surface " ++ e.surfaceName ++ " has contradiction evidence: " ++
      ", ".intercalate e.contradictionReasons) ++
  unknownIssues (plan.compileRegions.map (·.name)) e.affectedRegions
    "runtime_jit_region_unknown" e.surfaceName "compile region" ++
  unknownIssues (plan.artifactRequirements.map (·.scope)) e.requiredArtifacts
    "runtime_jit_artifact_unknown" e.surfaceName "artifact scope" ++
  unknownIssues (plan.warmupObligations.map (·.proof.proofId)) e.requiredWarmupProofs
    "runtime_jit_warmup_unknown" e.surfaceName "warmup proof"

def runtimeJitIssues : List ValidationIssue :=
  issueIf (plan.guaranteeEnvelope.residualRisks.any (·.hazardClass = .residualLazyCompile) ∧
      plan.guaranteeEvidence.runtimeJitEvidence.isEmpty)
    "runtime_jit_evidence_missing"
    ("Residual runtime JIT risk exists but no structured runtime-JIT evidence was " ++
      "captured.") ++
  plan.guaranteeEvidence.runtimeJitEvidence.flatMap plan.evidenceIssues

def gateIssues : List ValidationIssue :=
  operatorGates.flatMap fun gate =>
    issueIf (gate.compileFree ∧ gate.forbiddenQueues.isEmpty) "operator_gate_incomplete"
      ("Operator gate " ++ gate.command ++
        " claims compile-free execution without forbidden queues.")

def rewriteIssues : List ValidationIssue :=
  plan.rewriteTrace.flatMap fun pass =>
    match pass.validate with
    | .ok () => []
    | .error message => [errorIssue "rewrite_pass_contract_violation" message]

def decisionIssues : List ValidationIssue :=
  plan.backendDecision.entries.flatMap fun entry =>
    issueIf (entry.selectedForDeployment ≠
        decide (entry.family.asStr ∈ plan.selectedFamilies.map (·.asStr)))
      "backend_decision_selection_mismatch"
      ("Backend decision entry " ++ entry.family.asStr ++
        " disagrees with selected backend set.") ++
    issueIf (entry.reachableFromMaterializationPlan ∧ entry.reachableCompileRegions.isEmpty ∧
        entry.reachableArtifactScopes.isEmpty)
      "backend_decision_plan_reachability_unbacked"
      ("Backend decision entry " ++ entry.family.asStr ++
        " claims plan reachability without compile regions or artifact scopes.")

/-- All issues, in the order in which the checks are made. -/
def issues : List ValidationIssue :=
  plan.selectionIssues ++ plan.targetIssues ++ plan.warmupIssues ++ plan.manifestIssues ++
    plan.warmupProofIssues ++ plan.graphIssues ++ plan.residualJitIssues ++ plan.budgetIssues ++
    plan.admissibilityIssues ++ plan.witnessIssues ++ plan.runtimeJitIssues ++ gateIssues ++
    plan.rewriteIssues ++ plan.decisionIssues

def validate : VerificationReport where
  level := .witnessBacked
  status := if plan.issues.any (·.severity = .error) then .failed else .passed
  issues := plan.issues
  phaseTimings := plan.materializationGraph.waves.map fun w =>
    (w.queue, w.estimate.expectedCompileMs)
  runtimeJitWitnesses := (plan.guaranteeEnvelope.residualRisks.filter
    (·.hazardClass = .residualLazyCompile)).map (·.summary)
  runtimeJitEvidence := plan.guaranteeEvidence.runtimeJitEvidence
  operatorGates := operatorGates

/-! ## Every issue is an error -/

/-- Every issue of the list is an error. -/
def AllErrors (l : List ValidationIssue) : Prop := ∀ i ∈ l, i.severity = .error

@[simp] theorem allErrors_nil : AllErrors [] := fun _ h => by cases h

@[simp] theorem allErrors_single (code message : String) :
    AllErrors [errorIssue code message] := by
  intro i hi
  rw [List.mem_singleton.mp hi]
  rfl

@[simp] theorem allErrors_issueIf (b : Bool) (code message : String) :
    AllErrors (issueIf b code message) := by
  unfold issueIf
  split
  · exact allErrors_single code message
  · exact allErrors_nil

@[simp] theorem allErrors_append {l l' : List ValidationIssue} :
    AllErrors (l ++ l') ↔ AllErrors l ∧ AllErrors l' := by
  simp only [AllErrors, List.mem_append, or_imp, forall_and]

@[simp] theorem allErrors_flatMap {α : Type} {f : α → List ValidationIssue} {l : List α} :
    AllErrors (l.flatMap f) ↔ ∀ a ∈ l, AllErrors (f a) := by
  simp only [AllErrors, List.mem_flatMap]
  constructor
  · exact fun h a ha i hi => h i ⟨a, ha, hi⟩
  · rintro h i ⟨a, ha, hi⟩
    exact h a ha i hi

@[simp] theorem allErrors_witnessIssue (key : String) : AllErrors (plan.witnessIssue key) := by
  unfold witnessIssue
  split <;> simp

theorem allErrors_rewriteIssues : AllErrors plan.rewriteIssues := by
  simp only [rewriteIssues, allErrors_flatMap]
  intro pass _
  split <;> simp

theorem allErrors_issues : AllErrors plan.issues := by
  simp [issues, selectionIssues, targetIssues, warmupIssues, manifestIssues, warmupProofIssues,
    graphIssues, residualJitIssues, budgetIssues, budgetIssue, admissibilityIssues,
    witnessIssues, runtimeJitIssues, evidenceIssues, unknownIssues, gateIssues, decisionIssues,
    allErrors_rewriteIssues]

/-- A plan passes exactly when no check finds an issue. -/
theorem validate_passed_iff : plan.validate.status = .passed ↔ plan.issues = [] := by
  unfold validate
  constructor
  · intro h
    cases hissues : plan.issues with
    | nil => rfl
    | cons i l =>
        have hi : i.severity = .error :=
          plan.allErrors_issues i (hissues ▸ List.mem_cons_self)
        simp [hissues, hi] at h
  · intro h
    simp [h]

/-! ## Checks that pass -/

/-- A plan without issues passes every check. -/
theorem issues_eq_nil : plan.issues = [] ↔
    plan.selectionIssues = [] ∧ plan.targetIssues = [] ∧ plan.warmupIssues = [] ∧
      plan.manifestIssues = [] ∧ plan.warmupProofIssues = [] ∧ plan.graphIssues = [] ∧
      plan.residualJitIssues = [] ∧ plan.budgetIssues = [] ∧ plan.admissibilityIssues = [] ∧
      plan.witnessIssues = [] ∧ plan.runtimeJitIssues = [] ∧ gateIssues = [] ∧
      plan.rewriteIssues = [] ∧ plan.decisionIssues = [] := by
  simp only [issues, List.append_eq_nil_iff, and_assoc]

@[simp] theorem issueIf_eq_nil {b : Bool} {code message : String} :
    issueIf b code message = [] ↔ b = false := by
  cases b <;> simp [issueIf]

theorem duplicates_eq_nil {names seen : List String} :
    duplicates seen names = [] ↔ names.Nodup ∧ ∀ name ∈ names, name ∉ seen := by
  induction names generalizing seen with
  | nil => simp [duplicates]
  | cons name names ih =>
      rw [duplicates]
      split
      case isTrue h => simp [h]
      case isFalse h =>
        rw [ih, List.nodup_cons, List.forall_mem_cons]
        constructor
        · rintro ⟨hnodup, hnot⟩
          refine ⟨⟨fun hmem => hnot name hmem List.mem_cons_self, hnodup⟩, h, ?_⟩
          exact fun n hn hseen => hnot n hn (List.mem_cons_of_mem _ hseen)
        · rintro ⟨⟨hname, hnodup⟩, -, hnot⟩
          refine ⟨hnodup, fun n hn hmem => ?_⟩
          rcases List.mem_cons.mp hmem with rfl | hseen
          · exact hname hn
          · exact hnot n hn hseen

/-- The graph check: the frontier names nodes, and no name occurs twice. -/
theorem graphIssues_eq_nil : plan.graphIssues = [] ↔
    (∀ name ∈ plan.materializationGraph.earlyServeFrontier,
      name ∈ plan.materializationGraph.nodes.map (·.name)) ∧
    (plan.materializationGraph.nodes.map (·.name)).Nodup := by
  simp only [graphIssues, List.append_eq_nil_iff, issueIf_eq_nil, Bool.not_eq_false',
    List.isEmpty_iff, duplicates_eq_nil, List.any_eq_false, decide_eq_true_eq, not_not,
    List.not_mem_nil, not_false_eq_true, implies_true, and_true]

end ResolvedBuildPlan

end Sock.Core
