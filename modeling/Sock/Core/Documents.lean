/-
  The documents that accompany a plan: its structural identity (core/src/identity.rs and
  `structural_identity` of engine/src/planner.rs), the backend decision (core/src/backend.rs),
  the optimization explanation (core/src/optimization.rs), the materialization report
  (core/src/materialization.rs) and the replay proof (core/src/replay.rs).

  * `structuralIdentity`: the hashes of a plan's parts, and the plan identity over them.
  * `BackendDecisionDocument.fromPlan`, `OptimizationExplainDocument.fromPlan`,
    `ReplayProofDocument.fromPlanAndMaterialization`: the documents as derived from the plan.

  The rank product of the replay proof is a 16-bit product that wraps.
-/
import Sock.Core.Validate

namespace Sock.Core

open Lib

/-! ## Structural identity -/

structure AbiFingerprint where
  operatingSystem : OperatingSystem
  acceleratorVendor : AcceleratorVendor
  gpuArches : List String
  cudaVersion : String
  driverVersion : String
  pythonAbi : String
  libcAbi : String
  topology : ExecutionTopology
  deriving DecidableEq

instance : Serialize AbiFingerprint := ⟨fun f => .object
  [("operating_system", toValue f.operatingSystem),
    ("accelerator_vendor", toValue f.acceleratorVendor), ("gpu_arches", toValue f.gpuArches),
    ("cuda_version", toValue f.cudaVersion), ("driver_version", toValue f.driverVersion),
    ("python_abi", toValue f.pythonAbi), ("libc_abi", toValue f.libcAbi),
    ("topology", toValue f.topology)]⟩

instance : LawfulSerialize AbiFingerprint := .of_fields fun _ => rfl

/-- The fingerprint of a normalized request's environment and topology. -/
def NormalizedRequest.abiFingerprint (r : NormalizedRequest) : AbiFingerprint where
  operatingSystem := r.environment.operatingSystem
  acceleratorVendor := r.environment.acceleratorVendor
  gpuArches := r.environment.gpuArches
  cudaVersion := r.environment.cudaVersion
  driverVersion := r.environment.driverVersion
  pythonAbi := r.environment.pythonAbi
  libcAbi := r.environment.libcAbi
  topology := r.topology

structure BackendExtensionFingerprint where
  primaryBackend : BackendFamily
  secondaryBackends : List BackendFamily
  compileRegionBackends : List (String × BackendFamily)
  compileRegionKinds : List (String × String)
  deriving DecidableEq

instance : Serialize BackendExtensionFingerprint := ⟨fun f => .object
  [("primary_backend", toValue f.primaryBackend),
    ("secondary_backends", toValue f.secondaryBackends),
    ("compile_region_backends", toValue f.compileRegionBackends),
    ("compile_region_kinds", toValue f.compileRegionKinds)]⟩

def BackendExtensionFingerprint.fromPlan (selectedBackends : BackendSelection)
    (compileRegions : List CompileRegion) : BackendExtensionFingerprint where
  primaryBackend := selectedBackends.primary.family
  secondaryBackends := selectedBackends.secondary.map (·.family)
  compileRegionBackends := compileRegions.map fun r => (r.name, r.family)
  compileRegionKinds := compileRegions.map fun r => (r.name, r.kind.debug)

structure ArtifactReuseBoundary where
  scope : String
  backend : BackendFamily
  portability : ArtifactPortability
  rankDisposition : RankDisposition
  acquisition : ArtifactAcquisition
  deriving DecidableEq

instance : Serialize ArtifactReuseBoundary := ⟨fun b => .object
  [("scope", toValue b.scope), ("backend", toValue b.backend),
    ("portability", toValue b.portability), ("rank_disposition", toValue b.rankDisposition),
    ("acquisition", toValue b.acquisition)]⟩

structure PortabilityFingerprint where
  cacheNamespace : String
  allowCrossMachineReuse : Bool
  topology : ExecutionTopology
  artifactBoundaries : List ArtifactReuseBoundary
  deriving DecidableEq

instance : Serialize PortabilityFingerprint := ⟨fun f => .object
  [("cache_namespace", toValue f.cacheNamespace),
    ("allow_cross_machine_reuse", toValue f.allowCrossMachineReuse),
    ("topology", toValue f.topology), ("artifact_boundaries", toValue f.artifactBoundaries)]⟩

def PortabilityFingerprint.fromPlan (cacheNamespace : String) (allowCrossMachineReuse : Bool)
    (topology : ExecutionTopology) (artifactRequirements : List ArtifactRequirement) :
    PortabilityFingerprint where
  cacheNamespace := cacheNamespace
  allowCrossMachineReuse := allowCrossMachineReuse
  topology := topology
  artifactBoundaries := artifactRequirements.map fun r =>
    ⟨r.scope, r.backend, r.portability, r.rankDisposition, r.acquisition⟩

/-- The parts of a plan that its structural identity is computed from. -/
structure PlanParts where
  normalized : NormalizedRequest
  backendDecision : BackendDecisionPlan
  backendRegistry : BackendCapabilityRegistry
  capabilityWitnesses : List CapabilityWitness
  compileRegions : List CompileRegion
  shapeEnvelope : ShapeEnvelope
  artifactRequirements : List ArtifactRequirement
  guaranteeEvidence : GuaranteeEvidence
  selectedBackends : BackendSelection
  materializationGraph : MaterializationGraph
  guaranteeEnvelope : GuaranteeEnvelope

def structuralIdentity (C : Canon) (p : PlanParts) : StructuralIdentity :=
  let optimizationIdentity := C.canonicalHash p.normalized.optimizationPolicy
  let backendDecisionIdentity := C.canonicalHash p.backendDecision
  let backendRegistryIdentity := C.canonicalHash p.backendRegistry
  let capabilityIdentity := C.canonicalHash p.capabilityWitnesses
  let abiIdentity := C.canonicalHash p.normalized.abiFingerprint
  let backendExtensionIdentity :=
    C.canonicalHash (BackendExtensionFingerprint.fromPlan p.selectedBackends p.compileRegions)
  let portabilityIdentity := C.canonicalHash (PortabilityFingerprint.fromPlan
    p.normalized.cachePolicy.namespaceName p.normalized.cachePolicy.allowCrossMachineReuse
    p.normalized.topology p.artifactRequirements)
  { requestIdentity := p.normalized.identity
    optimizationIdentity
    backendDecisionIdentity
    backendRegistryIdentity
    shapeEnvelopeIdentity := C.canonicalHash p.shapeEnvelope
    compileRegionIdentity := C.canonicalHash p.compileRegions
    capabilityIdentity
    abiIdentity
    backendExtensionIdentity
    portabilityIdentity
    artifactIdentity := C.canonicalHash p.artifactRequirements
    evidenceIdentity := C.canonicalHash p.guaranteeEvidence
    planIdentity := C.canonicalHash (Value.array
      [toValue optimizationIdentity, toValue backendDecisionIdentity,
        toValue p.selectedBackends, toValue p.compileRegions, toValue p.shapeEnvelope,
        toValue p.artifactRequirements, toValue p.materializationGraph,
        toValue p.guaranteeEnvelope, toValue p.normalized.identity,
        toValue backendRegistryIdentity, toValue capabilityIdentity, toValue abiIdentity,
        toValue backendExtensionIdentity, toValue portabilityIdentity]) }

/-- The parts as a plan holds them. -/
def ResolvedBuildPlan.parts (plan : ResolvedBuildPlan) : PlanParts where
  normalized := plan.normalizedRequest
  backendDecision := plan.backendDecision
  backendRegistry := plan.backendRegistry
  capabilityWitnesses := plan.guaranteeEvidence.capabilityWitnesses
  compileRegions := plan.compileRegions
  shapeEnvelope := plan.shapeEnvelope
  artifactRequirements := plan.artifactRequirements
  guaranteeEvidence := plan.guaranteeEvidence
  selectedBackends := plan.selectedBackends
  materializationGraph := plan.materializationGraph
  guaranteeEnvelope := plan.guaranteeEnvelope

/-- The identity a plan declares. -/
def ResolvedBuildPlan.planIdentity (plan : ResolvedBuildPlan) : CanonicalHash :=
  plan.structuralIdentity.planIdentity

/-! ## Backend decision, rewrite trace and optimization explanation -/

structure BackendDecisionDocument where
  schemaVersion : SchemaVersion
  planIdentity : CanonicalHash
  buildProfileIdentity : CanonicalHash
  entries : List BackendDecisionEntry
  extensionManifests : List BackendExtensionManifest
  deriving DecidableEq

instance : Serialize BackendDecisionDocument := ⟨fun d => .object
  [("schema_version", toValue d.schemaVersion), ("plan_identity", toValue d.planIdentity),
    ("build_profile_identity", toValue d.buildProfileIdentity), ("entries", toValue d.entries),
    ("extension_manifests", toValue d.extensionManifests)]⟩

def BackendDecisionDocument.fromPlan (plan : ResolvedBuildPlan) : BackendDecisionDocument where
  schemaVersion := .current
  planIdentity := plan.planIdentity
  buildProfileIdentity := plan.backendDecision.buildProfileIdentity
  entries := plan.backendDecision.entries
  extensionManifests := plan.backendDecision.extensionManifests

structure RewriteTraceDocument where
  schemaVersion : SchemaVersion
  planIdentity : CanonicalHash
  passes : List PassTrace
  deriving DecidableEq

instance : Serialize RewriteTraceDocument := ⟨fun d => .object
  [("schema_version", toValue d.schemaVersion), ("plan_identity", toValue d.planIdentity),
    ("passes", toValue d.passes)]⟩

structure OptimizationAction where
  category : String
  effect : String
  reason : String
  deriving DecidableEq

instance : Serialize OptimizationAction := ⟨fun a => .object
  [("category", toValue a.category), ("effect", toValue a.effect), ("reason", toValue a.reason)]⟩

structure OptimizationExplainDocument where
  schemaVersion : SchemaVersion
  planIdentity : CanonicalHash
  requestIdentity : CanonicalHash
  optimizationIdentity : CanonicalHash
  level : OptimizationLevel
  profileName : String
  startupBudgetMs : Nat
  maxWarmupSteps : Nat
  artifactBudget : OptimizationArtifactBudget
  phaseBudgets : List OptimizationPhaseBudget
  compileActions : List OptimizationAction
  warmupActions : List OptimizationAction
  autotuneActions : List OptimizationAction
  graphActions : List OptimizationAction
  deriving DecidableEq

instance : Serialize OptimizationExplainDocument := ⟨fun d => .object
  [("schema_version", toValue d.schemaVersion), ("plan_identity", toValue d.planIdentity),
    ("request_identity", toValue d.requestIdentity),
    ("optimization_identity", toValue d.optimizationIdentity), ("level", toValue d.level),
    ("profile_name", toValue d.profileName), ("startup_budget_ms", toValue d.startupBudgetMs),
    ("max_warmup_steps", toValue d.maxWarmupSteps), ("artifact_budget", toValue d.artifactBudget),
    ("phase_budgets", toValue d.phaseBudgets), ("compile_actions", toValue d.compileActions),
    ("warmup_actions", toValue d.warmupActions), ("autotune_actions", toValue d.autotuneActions),
    ("graph_actions", toValue d.graphActions)]⟩

/-- `enabled` or `disabled`. -/
def enabledText (b : Bool) : String := if b then "enabled" else "disabled"

def OptimizationExplainDocument.fromPlan (plan : ResolvedBuildPlan) :
    OptimizationExplainDocument :=
  let envelope := plan.optimizationEnvelope
  { schemaVersion := .current
    planIdentity := plan.planIdentity
    requestIdentity := plan.normalizedRequest.identity
    optimizationIdentity := plan.structuralIdentity.optimizationIdentity
    level := envelope.level
    profileName := envelope.profileName
    startupBudgetMs := envelope.startupBudgetMs
    maxWarmupSteps := envelope.maxWarmupSteps
    artifactBudget := envelope.artifactBudget
    phaseBudgets := envelope.phaseBudgets
    compileActions :=
      [⟨"compile", "secondary_backends=" ++ enabledText envelope.compileSecondaryBackends,
        envelope.level.asStr ++ " keeps compile closure " ++
          (if envelope.compileSecondaryBackends then "open to" else "closed to") ++
          " secondary backend families"⟩,
       ⟨"compile", "compile_regions=" ++ toString plan.compileRegions.length,
        "compile identity is bound to explicit region selection and request policy"⟩]
    warmupActions :=
      [⟨"warmup", "performance_warmup=" ++ enabledText envelope.includePerformanceWarmup,
        envelope.level.asStr ++ " maps to a max_warmup_steps budget of " ++
          toString envelope.maxWarmupSteps⟩,
       ⟨"warmup", "warmup_obligations=" ++ toString plan.warmupObligations.length,
        "warmup is emitted as explicit obligations instead of hidden startup work"⟩]
    autotuneActions :=
      [⟨"autotune", "autotune=" ++ enabledText envelope.enableAutotune,
        "autotune follows the optimization envelope instead of ambient backend defaults"⟩]
    graphActions :=
      [⟨"graph", "cuda_graphs=" ++ enabledText envelope.includeCudaGraphs,
        "graph capture artifacts are materialized only when the chosen optimization level " ++
          "budgets them"⟩] }

/-! ## The materialization report -/

inductive MaterializationDisposition
  | executed | reused
  deriving DecidableEq

instance : Serialize MaterializationDisposition := ⟨fun
  | .executed => .string "executed"
  | .reused => .string "reused"⟩

structure MaterializedArtifactRecord where
  storageKey : String
  manifestIdentity : String
  scope : String
  artifactClass : ArtifactClass
  backend : BackendFamily
  regionStableIdentity : Option CanonicalHash
  regionEquivalenceIdentity : Option CanonicalHash
  cacheSharing : Option RegionCacheSharing
  cacheNamespace : String
  invalidationDomain : String
  acquisition : ArtifactAcquisition
  rankDisposition : RankDisposition
  preferredFanoutStrategy : FanoutStrategy
  disposition : MaterializationDisposition
  relativePath : String
  cacheRelativePath : String
  bytesWritten : Nat
  deserializationMs : Nat
  rankCount : UInt16
  compileMs : Nat
  transferMs : Nat
  rebuildMs : Nat
  sourceAnchors : List SourceAnchor
  deriving DecidableEq

instance : Serialize MaterializedArtifactRecord := ⟨fun r => .object
  [("storage_key", toValue r.storageKey), ("manifest_identity", toValue r.manifestIdentity),
    ("scope", toValue r.scope), ("class", toValue r.artifactClass), ("backend", toValue r.backend),
    ("region_stable_identity", toValue r.regionStableIdentity),
    ("region_equivalence_identity", toValue r.regionEquivalenceIdentity),
    ("cache_sharing", toValue r.cacheSharing), ("cache_namespace", toValue r.cacheNamespace),
    ("invalidation_domain", toValue r.invalidationDomain), ("acquisition", toValue r.acquisition),
    ("rank_disposition", toValue r.rankDisposition),
    ("preferred_fanout_strategy", toValue r.preferredFanoutStrategy),
    ("disposition", toValue r.disposition), ("relative_path", toValue r.relativePath),
    ("cache_relative_path", toValue r.cacheRelativePath), ("bytes_written", toValue r.bytesWritten),
    ("deserialization_ms", toValue r.deserializationMs), ("rank_count", toValue r.rankCount),
    ("compile_ms", toValue r.compileMs), ("transfer_ms", toValue r.transferMs),
    ("rebuild_ms", toValue r.rebuildMs), ("source_anchors", toValue r.sourceAnchors)]⟩

structure MaterializationNodeRecord where
  nodeName : String
  wave : Nat
  kind : MaterializationNodeKind
  queue : QueueKind
  disposition : MaterializationDisposition
  dependencyNodes : List String
  outputs : List String
  relativePath : String
  durationMs : Nat
  bytesWritten : Nat
  deriving DecidableEq

instance : Serialize MaterializationNodeRecord := ⟨fun r => .object
  [("node_name", toValue r.nodeName), ("wave", toValue r.wave), ("kind", toValue r.kind),
    ("queue", toValue r.queue), ("disposition", toValue r.disposition),
    ("dependency_nodes", toValue r.dependencyNodes), ("outputs", toValue r.outputs),
    ("relative_path", toValue r.relativePath), ("duration_ms", toValue r.durationMs),
    ("bytes_written", toValue r.bytesWritten)]⟩

inductive MaterializationSchedulingMode
  | sequential | parallel
  deriving DecidableEq

instance : Serialize MaterializationSchedulingMode := ⟨fun
  | .sequential => .string "sequential"
  | .parallel => .string "parallel"⟩

structure MaterializationWaveRecord where
  waveName : String
  queue : QueueKind
  discipline : QueueDiscipline
  schedulingMode : MaterializationSchedulingMode
  maxParallelism : Nat
  nodeNames : List String
  relativePath : String
  durationMs : Nat
  bytesWritten : Nat
  deriving DecidableEq

instance : Serialize MaterializationWaveRecord := ⟨fun r => .object
  [("wave_name", toValue r.waveName), ("queue", toValue r.queue),
    ("discipline", toValue r.discipline), ("scheduling_mode", toValue r.schedulingMode),
    ("max_parallelism", toValue r.maxParallelism), ("node_names", toValue r.nodeNames),
    ("relative_path", toValue r.relativePath), ("duration_ms", toValue r.durationMs),
    ("bytes_written", toValue r.bytesWritten)]⟩

structure ClosureExpansionRecord where
  requestedRegions : List String
  requestedArtifactScopes : List String
  requestedBackendFamilies : List String
  requestedCacheNamespaces : List String
  requestedWarmupScopes : List String
  expandedRegions : List String
  expandedArtifactScopes : List String
  expandedWarmupScopes : List String
  deterministicallyClosed : Bool
  deriving DecidableEq

instance : Serialize ClosureExpansionRecord := ⟨fun r => .object
  [("requested_regions", toValue r.requestedRegions),
    ("requested_artifact_scopes", toValue r.requestedArtifactScopes),
    ("requested_backend_families", toValue r.requestedBackendFamilies),
    ("requested_cache_namespaces", toValue r.requestedCacheNamespaces),
    ("requested_warmup_scopes", toValue r.requestedWarmupScopes),
    ("expanded_regions", toValue r.expandedRegions),
    ("expanded_artifact_scopes", toValue r.expandedArtifactScopes),
    ("expanded_warmup_scopes", toValue r.expandedWarmupScopes),
    ("deterministically_closed", toValue r.deterministicallyClosed)]⟩

inductive ObservedReadinessLevel
  | earlyServe | correctness | performance
  deriving DecidableEq

instance : Serialize ObservedReadinessLevel := ⟨fun
  | .earlyServe => .string "early_serve"
  | .correctness => .string "correctness"
  | .performance => .string "performance"⟩

structure ReadinessObservation where
  requestedReadiness : ObservedReadinessLevel
  achievedReadiness : ObservedReadinessLevel
  blockingWarmupsComplete : Bool
  earlyServeFrontierComplete : Bool
  deferredWarmupsComplete : Bool
  deriving DecidableEq

instance : Serialize ReadinessObservation := ⟨fun o => .object
  [("requested_readiness", toValue o.requestedReadiness),
    ("achieved_readiness", toValue o.achievedReadiness),
    ("blocking_warmups_complete", toValue o.blockingWarmupsComplete),
    ("early_serve_frontier_complete", toValue o.earlyServeFrontierComplete),
    ("deferred_warmups_complete", toValue o.deferredWarmupsComplete)]⟩

inductive RuntimeJitObservationStatus
  | bounded | contradicted
  deriving DecidableEq

instance : Serialize RuntimeJitObservationStatus := ⟨fun
  | .bounded => .string "bounded"
  | .contradicted => .string "contradicted"⟩

inductive StartupClosureOutcome
  | fullCompileClosure | partialCompileClosure | closureByAssumption
  deriving DecidableEq

instance : Serialize StartupClosureOutcome := ⟨fun
  | .fullCompileClosure => .string "full_compile_closure"
  | .partialCompileClosure => .string "partial_compile_closure"
  | .closureByAssumption => .string "closure_by_assumption"⟩

structure RuntimeJitObservation where
  surfaceName : String
  status : RuntimeJitObservationStatus
  observedArtifacts : List String
  observedWarmupProofs : List String
  contradictionReasons : List String
  deriving DecidableEq

instance : Serialize RuntimeJitObservation := ⟨fun o => .object
  [("surface_name", toValue o.surfaceName), ("status", toValue o.status),
    ("observed_artifacts", toValue o.observedArtifacts),
    ("observed_warmup_proofs", toValue o.observedWarmupProofs),
    ("contradiction_reasons", toValue o.contradictionReasons)]⟩

structure MaterializationExecutionReport where
  schemaVersion : SchemaVersion
  planIdentity : CanonicalHash
  artifactRoot : String
  cacheRoot : String
  nodeRoot : String
  waveRoot : String
  artifactCount : Nat
  executedArtifactCount : Nat
  reusedArtifactCount : Nat
  wallClockMs : Nat
  totalBytesWritten : Nat
  totalCompileMs : Nat
  totalTransferMs : Nat
  totalRebuildMs : Nat
  uniqueArtifactCount : Nat
  duplicateArtifactCount : Nat
  uniqueArtifactBytes : Nat
  duplicateArtifactBytes : Nat
  artifactDeserializationMs : Nat
  duplicateRankLocalCompileCount : Nat
  duplicateRankLocalLoadCount : Nat
  closureExpansion : ClosureExpansionRecord
  closureOutcome : StartupClosureOutcome
  readiness : ReadinessObservation
  runtimeJitObservations : List RuntimeJitObservation
  verifyReplayCompileFree : Bool
  verifyReplayStatus : ValidationStatus
  artifacts : List MaterializedArtifactRecord
  nodes : List MaterializationNodeRecord
  waves : List MaterializationWaveRecord
  deriving DecidableEq

instance : Serialize MaterializationExecutionReport := ⟨fun r => .object
  [("schema_version", toValue r.schemaVersion), ("plan_identity", toValue r.planIdentity),
    ("artifact_root", toValue r.artifactRoot), ("cache_root", toValue r.cacheRoot),
    ("node_root", toValue r.nodeRoot), ("wave_root", toValue r.waveRoot),
    ("artifact_count", toValue r.artifactCount),
    ("executed_artifact_count", toValue r.executedArtifactCount),
    ("reused_artifact_count", toValue r.reusedArtifactCount),
    ("wall_clock_ms", toValue r.wallClockMs), ("total_bytes_written", toValue r.totalBytesWritten),
    ("total_compile_ms", toValue r.totalCompileMs),
    ("total_transfer_ms", toValue r.totalTransferMs),
    ("total_rebuild_ms", toValue r.totalRebuildMs),
    ("unique_artifact_count", toValue r.uniqueArtifactCount),
    ("duplicate_artifact_count", toValue r.duplicateArtifactCount),
    ("unique_artifact_bytes", toValue r.uniqueArtifactBytes),
    ("duplicate_artifact_bytes", toValue r.duplicateArtifactBytes),
    ("artifact_deserialization_ms", toValue r.artifactDeserializationMs),
    ("duplicate_rank_local_compile_count", toValue r.duplicateRankLocalCompileCount),
    ("duplicate_rank_local_load_count", toValue r.duplicateRankLocalLoadCount),
    ("closure_expansion", toValue r.closureExpansion),
    ("closure_outcome", toValue r.closureOutcome), ("readiness", toValue r.readiness),
    ("runtime_jit_observations", toValue r.runtimeJitObservations),
    ("verify_replay_compile_free", toValue r.verifyReplayCompileFree),
    ("verify_replay_status", toValue r.verifyReplayStatus), ("artifacts", toValue r.artifacts),
    ("nodes", toValue r.nodes), ("waves", toValue r.waves)]⟩

/-! ## The replay proof -/

inductive ArtifactRealizationMode
  | rebuiltOnly | reusedOnly | mixed
  deriving DecidableEq

instance : Serialize ArtifactRealizationMode := ⟨fun
  | .rebuiltOnly => .string "rebuilt_only"
  | .reusedOnly => .string "reused_only"
  | .mixed => .string "mixed"⟩

structure CacheCompatibilityRecord where
  storageKey : String
  manifestIdentity : String
  cacheNamespace : String
  scope : String
  backend : String
  deriving DecidableEq

instance : Serialize CacheCompatibilityRecord := ⟨fun r => .object
  [("storage_key", toValue r.storageKey), ("manifest_identity", toValue r.manifestIdentity),
    ("cache_namespace", toValue r.cacheNamespace), ("scope", toValue r.scope),
    ("backend", toValue r.backend)]⟩

structure TopologyReuseRecord where
  scope : String
  rankDisposition : RankDisposition
  rankCount : UInt16
  preferredFanoutStrategy : FanoutStrategy
  deriving DecidableEq

instance : Serialize TopologyReuseRecord := ⟨fun r => .object
  [("scope", toValue r.scope), ("rank_disposition", toValue r.rankDisposition),
    ("rank_count", toValue r.rankCount),
    ("preferred_fanout_strategy", toValue r.preferredFanoutStrategy)]⟩

structure ReplayProofDocument where
  schemaVersion : SchemaVersion
  planIdentity : CanonicalHash
  requestIdentity : CanonicalHash
  compileClosureVerified : Bool
  warmupClosureVerified : Bool
  autotuneClosureVerified : Bool
  cacheArtifactCompatibilityVerified : Bool
  topologyScopedReuseVerified : Bool
  compileClosureArtifacts : List String
  warmupClosureProofs : List String
  autotuneClosureProofs : List String
  cacheCompatibility : List CacheCompatibilityRecord
  topologyReuse : List TopologyReuseRecord
  resultArtifactIdentity : CanonicalHash
  realizationIdentity : CanonicalHash
  realizationMode : ArtifactRealizationMode
  contradictionContract : String
  deriving DecidableEq

instance : Serialize ReplayProofDocument := ⟨fun d => .object
  [("schema_version", toValue d.schemaVersion), ("plan_identity", toValue d.planIdentity),
    ("request_identity", toValue d.requestIdentity),
    ("compile_closure_verified", toValue d.compileClosureVerified),
    ("warmup_closure_verified", toValue d.warmupClosureVerified),
    ("autotune_closure_verified", toValue d.autotuneClosureVerified),
    ("cache_artifact_compatibility_verified", toValue d.cacheArtifactCompatibilityVerified),
    ("topology_scoped_reuse_verified", toValue d.topologyScopedReuseVerified),
    ("compile_closure_artifacts", toValue d.compileClosureArtifacts),
    ("warmup_closure_proofs", toValue d.warmupClosureProofs),
    ("autotune_closure_proofs", toValue d.autotuneClosureProofs),
    ("cache_compatibility", toValue d.cacheCompatibility),
    ("topology_reuse", toValue d.topologyReuse),
    ("result_artifact_identity", toValue d.resultArtifactIdentity),
    ("realization_identity", toValue d.realizationIdentity),
    ("realization_mode", toValue d.realizationMode),
    ("contradiction_contract", toValue d.contradictionContract)]⟩

/-- The rank count the proof expects of a shared artifact. -/
def replayTotalRanks (topology : ExecutionTopology) : UInt16 :=
  topology.tensorParallelism * topology.pipelineParallelism * topology.replicas

def ReplayProofDocument.fromPlanAndMaterialization (C : Canon) (plan : ResolvedBuildPlan)
    (report : MaterializationExecutionReport) : ReplayProofDocument :=
  let autotuned := plan.warmupObligations.filter (·.requiresAutotune)
  let observed (o : WarmupObligation) : Bool := report.nodes.any (·.nodeName = o.handle)
  { schemaVersion := .current
    planIdentity := plan.planIdentity
    requestIdentity := plan.normalizedRequest.identity
    compileClosureVerified := report.closureOutcome = .fullCompileClosure ∧
      report.verifyReplayStatus = .passed
    warmupClosureVerified := plan.warmupObligations.all observed
    autotuneClosureVerified := autotuned.all observed
    cacheArtifactCompatibilityVerified := plan.guaranteeEvidence.artifactManifest.all
      fun expected => report.artifacts.any (·.manifestIdentity = expected.identity)
    topologyScopedReuseVerified := report.artifacts.all fun artifact =>
      match artifact.rankDisposition with
      | .shared => artifact.rankCount = replayTotalRanks plan.normalizedRequest.topology
      | .rankLocal => 1 ≤ artifact.rankCount
    compileClosureArtifacts := plan.guaranteeEvidence.artifactManifest.map (·.identity)
    warmupClosureProofs := plan.warmupObligations.map (·.proof.proofId)
    autotuneClosureProofs := autotuned.map (·.proof.proofId)
    cacheCompatibility := report.artifacts.map fun a =>
      ⟨a.storageKey, a.manifestIdentity, a.cacheNamespace, a.scope, a.backend.asStr⟩
    topologyReuse := report.artifacts.map fun a =>
      ⟨a.scope, a.rankDisposition, a.rankCount, a.preferredFanoutStrategy⟩
    resultArtifactIdentity := C.canonicalHash (report.artifacts.map fun a => Value.array
      [toValue a.manifestIdentity, toValue a.scope, toValue a.artifactClass.asStr,
        toValue a.backend.asStr])
    realizationIdentity := C.canonicalHash (report.artifacts.map fun a => Value.array
      [toValue a.storageKey, toValue a.manifestIdentity, toValue a.disposition,
        toValue a.cacheNamespace, toValue a.rankDisposition])
    realizationMode :=
      match decide (0 < report.executedArtifactCount),
        decide (0 < report.reusedArtifactCount) with
      | true, true => .mixed
      | true, false => .rebuiltOnly
      | false, true => .reusedOnly
      | false, false => .rebuiltOnly
    contradictionContract := "same_requested_plan_requires_same_result_artifact_identity" }

end Sock.Core
