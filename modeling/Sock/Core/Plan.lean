/-
  Resolved build plans: the records of core/src/model.rs, and those of core/src/adapter.rs,
  core/src/backend.rs, core/src/runtime.rs, core/src/verification.rs, core/src/rewrite.rs,
  core/src/identity.rs and core/src/optimization.rs that a plan is made of.

  * Regions, shape envelope, artifact requirements, warmup obligations, materialization graph,
    guarantee envelope and evidence; `ResolvedBuildPlan` holds them together.
  * `OptimizationEnvelope.fromLevel`: the budgets of the four optimization levels.
  * `artifactManifestIdentity`, `artifactNodeHandle`, `fanoutNodeHandle`: the names of a
    requirement in the manifest and in the graph.

  Records that the planner hashes have their JSON value beside them, and records that it sorts
  have the order of their fields. Times, sizes and shape counts are natural numbers; the counts
  of a topology are 16-bit as in the source.
-/
import Sock.Core.Request

namespace Sock.Core

open Lib

/-! ## Names -/

inductive ArtifactClass
  | compiledGraph | tritonBinary | extensionBinary | backendPackageInput | autotuneResult
  | cudaGraphCapture | topologyScopedCache
  deriving DecidableEq, Ord

namespace ArtifactClass

def asStr : ArtifactClass → String
  | .compiledGraph => "compiled-graph"
  | .tritonBinary => "triton-binary"
  | .extensionBinary => "extension-binary"
  | .backendPackageInput => "backend-package-input"
  | .autotuneResult => "autotune-result"
  | .cudaGraphCapture => "cuda-graph-capture"
  | .topologyScopedCache => "topology-scoped-cache"

def debug : ArtifactClass → String
  | .compiledGraph => "CompiledGraph"
  | .tritonBinary => "TritonBinary"
  | .extensionBinary => "ExtensionBinary"
  | .backendPackageInput => "BackendPackageInput"
  | .autotuneResult => "AutotuneResult"
  | .cudaGraphCapture => "CudaGraphCapture"
  | .topologyScopedCache => "TopologyScopedCache"

end ArtifactClass

instance : Serialize ArtifactClass := ⟨fun c => .string c.debug⟩

instance : LawfulSerialize ArtifactClass := .of_names

inductive HazardClass
  | staleCache | backendLegality | residualLazyCompile | topologyMismatch | replayInsufficiency
  deriving DecidableEq

instance : Serialize HazardClass := ⟨fun
  | .staleCache => .string "StaleCache"
  | .backendLegality => .string "BackendLegality"
  | .residualLazyCompile => .string "ResidualLazyCompile"
  | .topologyMismatch => .string "TopologyMismatch"
  | .replayInsufficiency => .string "ReplayInsufficiency"⟩

instance : LawfulSerialize HazardClass := .of_names

inductive RangeIntent
  | exactHotShape | symbolicRange | fallbackRange | uncoveredResidual
  deriving DecidableEq, Ord

instance : Serialize RangeIntent := ⟨fun
  | .exactHotShape => .string "ExactHotShape"
  | .symbolicRange => .string "SymbolicRange"
  | .fallbackRange => .string "FallbackRange"
  | .uncoveredResidual => .string "UncoveredResidual"⟩

instance : LawfulSerialize RangeIntent := .of_names

inductive ArtifactAcquisition
  | vendorPrebuilt | upstreamCacheBundle | localAotBuild | localSourceBuild
  deriving DecidableEq, Ord

def ArtifactAcquisition.debug : ArtifactAcquisition → String
  | .vendorPrebuilt => "VendorPrebuilt"
  | .upstreamCacheBundle => "UpstreamCacheBundle"
  | .localAotBuild => "LocalAotBuild"
  | .localSourceBuild => "LocalSourceBuild"

instance : Serialize ArtifactAcquisition := ⟨fun a => .string a.debug⟩

instance : LawfulSerialize ArtifactAcquisition := .of_names

instance : NonNull ArtifactAcquisition := ⟨by rintro ⟨⟩ h <;> cases h⟩

inductive QueueKind
  | compile | assemble | artifactIo | warmup | verify
  deriving DecidableEq, Ord

def QueueKind.debug : QueueKind → String
  | .compile => "Compile"
  | .assemble => "Assemble"
  | .artifactIo => "ArtifactIo"
  | .warmup => "Warmup"
  | .verify => "Verify"

instance : Serialize QueueKind := ⟨fun q => .string q.debug⟩

instance : LawfulSerialize QueueKind := .of_names

inductive MaterializationNodeKind
  | compile | assemble | materialize | transfer | warmup | verify
  deriving DecidableEq

instance : Serialize MaterializationNodeKind := ⟨fun
  | .compile => .string "Compile"
  | .assemble => .string "Assemble"
  | .materialize => .string "Materialize"
  | .transfer => .string "Transfer"
  | .warmup => .string "Warmup"
  | .verify => .string "Verify"⟩

instance : LawfulSerialize MaterializationNodeKind := .of_names

inductive CoverageState
  | compiled | executed | captured | autotuned | verifiedNoNewCompile
  deriving DecidableEq

def CoverageState.debug : CoverageState → String
  | .compiled => "Compiled"
  | .executed => "Executed"
  | .captured => "Captured"
  | .autotuned => "Autotuned"
  | .verifiedNoNewCompile => "VerifiedNoNewCompile"

instance : Serialize CoverageState := ⟨fun s => .string s.debug⟩

inductive ArtifactPortability
  | hostLocalOnly | abiClusterPortable | gpuArchitectureFamilyPortable | topologyScoped
  | shapeEnvelopeScoped
  deriving DecidableEq, Ord

instance : Serialize ArtifactPortability := ⟨fun
  | .hostLocalOnly => .string "HostLocalOnly"
  | .abiClusterPortable => .string "AbiClusterPortable"
  | .gpuArchitectureFamilyPortable => .string "GpuArchitectureFamilyPortable"
  | .topologyScoped => .string "TopologyScoped"
  | .shapeEnvelopeScoped => .string "ShapeEnvelopeScoped"⟩

instance : LawfulSerialize ArtifactPortability := .of_names

inductive RankDisposition
  | shared | rankLocal
  deriving DecidableEq, Ord

instance : Serialize RankDisposition := ⟨fun
  | .shared => .string "Shared"
  | .rankLocal => .string "RankLocal"⟩

instance : LawfulSerialize RankDisposition := .of_names

inductive GuaranteeDimension
  | environment | kernel | shape | runtime | topology
  deriving DecidableEq

instance : Serialize GuaranteeDimension := ⟨fun
  | .environment => .string "Environment"
  | .kernel => .string "Kernel"
  | .shape => .string "Shape"
  | .runtime => .string "Runtime"
  | .topology => .string "Topology"⟩

instance : LawfulSerialize GuaranteeDimension := .of_names

inductive ValidationLevel
  | structural | semantic | witnessBacked
  deriving DecidableEq

instance : Serialize ValidationLevel := ⟨fun
  | .structural => .string "Structural"
  | .semantic => .string "Semantic"
  | .witnessBacked => .string "WitnessBacked"⟩

inductive ValidationSeverity
  | error | warning
  deriving DecidableEq

instance : Serialize ValidationSeverity := ⟨fun
  | .error => .string "Error"
  | .warning => .string "Warning"⟩

inductive ValidationStatus
  | passed | failed
  deriving DecidableEq

instance : Serialize ValidationStatus := ⟨fun
  | .passed => .string "Passed"
  | .failed => .string "Failed"⟩

inductive CompileRegionKind
  | repeatedTransformerBlockBody | decodeMicrograph | prefillMicrograph | attentionKvBoundary
  | moeSpecialtyPath
  deriving DecidableEq, Ord

def CompileRegionKind.debug : CompileRegionKind → String
  | .repeatedTransformerBlockBody => "RepeatedTransformerBlockBody"
  | .decodeMicrograph => "DecodeMicrograph"
  | .prefillMicrograph => "PrefillMicrograph"
  | .attentionKvBoundary => "AttentionKvBoundary"
  | .moeSpecialtyPath => "MoeSpecialtyPath"

instance : Serialize CompileRegionKind := ⟨fun
  | .repeatedTransformerBlockBody => .string "repeated_transformer_block_body"
  | .decodeMicrograph => .string "decode_micrograph"
  | .prefillMicrograph => .string "prefill_micrograph"
  | .attentionKvBoundary => .string "attention_kv_boundary"
  | .moeSpecialtyPath => .string "moe_specialty_path"⟩

instance : LawfulSerialize CompileRegionKind := .of_names

inductive RegionCacheSharing
  | namespaceLocal | contentAddressed
  deriving DecidableEq, Ord

instance : Serialize RegionCacheSharing := ⟨fun
  | .namespaceLocal => .string "namespace_local"
  | .contentAddressed => .string "content_addressed"⟩

instance : LawfulSerialize RegionCacheSharing := .of_names

instance : NonNull RegionCacheSharing := ⟨by rintro ⟨⟩ h <;> cases h⟩

inductive AdmissibilityVerdict
  | admissible | rejected
  deriving DecidableEq

instance : Serialize AdmissibilityVerdict := ⟨fun
  | .admissible => .string "Admissible"
  | .rejected => .string "Rejected"⟩

instance : LawfulSerialize AdmissibilityVerdict := .of_names

inductive QueueDiscipline
  | serial | parallelPerRank | leaderThenBroadcast
  deriving DecidableEq

instance : Serialize QueueDiscipline := ⟨fun
  | .serial => .string "Serial"
  | .parallelPerRank => .string "ParallelPerRank"
  | .leaderThenBroadcast => .string "LeaderThenBroadcast"⟩

instance : LawfulSerialize QueueDiscipline := .of_names

inductive ServePhase
  | preServeBlocking | earlyServeReady | deferredPerformance
  deriving DecidableEq, Ord

instance : Serialize ServePhase := ⟨fun
  | .preServeBlocking => .string "PreServeBlocking"
  | .earlyServeReady => .string "EarlyServeReady"
  | .deferredPerformance => .string "DeferredPerformance"⟩

instance : LawfulSerialize ServePhase := .of_names

inductive FanoutStrategy
  | none | broadcastFromLeader | rebuildPerRank
  deriving DecidableEq

instance : Serialize FanoutStrategy := ⟨fun
  | .none => .string "None"
  | .broadcastFromLeader => .string "BroadcastFromLeader"
  | .rebuildPerRank => .string "RebuildPerRank"⟩

instance : LawfulSerialize FanoutStrategy := .of_names

inductive RewritePhase
  | normalizeRequest | surveyEngine | selectBackends | discoverCompileRegions
  | buildShapeEnvelope | elaborateWarmup | planMaterialization | shapeGuarantees | emitArtifacts
  deriving DecidableEq

instance : Serialize RewritePhase := ⟨fun
  | .normalizeRequest => .string "NormalizeRequest"
  | .surveyEngine => .string "SurveyEngine"
  | .selectBackends => .string "SelectBackends"
  | .discoverCompileRegions => .string "DiscoverCompileRegions"
  | .buildShapeEnvelope => .string "BuildShapeEnvelope"
  | .elaborateWarmup => .string "ElaborateWarmup"
  | .planMaterialization => .string "PlanMaterialization"
  | .shapeGuarantees => .string "ShapeGuarantees"
  | .emitArtifacts => .string "EmitArtifacts"⟩

structure SchemaVersion where
  major : Nat
  minor : Nat
  deriving DecidableEq

instance : Serialize SchemaVersion := ⟨fun v => .object
  [("major", toValue v.major), ("minor", toValue v.minor)]⟩

instance : LawfulSerialize SchemaVersion := .of_fields fun _ => rfl

def SchemaVersion.current : SchemaVersion := ⟨1, 0⟩

/-! ## Backends -/

structure SourceAnchor where
  file : String
  line : Nat
  deriving DecidableEq, Ord

instance : Serialize SourceAnchor := ⟨fun a => .object
  [("file", toValue a.file), ("line", toValue a.line)]⟩

instance : LawfulSerialize SourceAnchor := .of_fields fun _ => rfl

structure SourceEvidence where
  summary : String
  anchors : List SourceAnchor
  deriving DecidableEq, Ord

instance : Serialize SourceEvidence := ⟨fun e => .object
  [("summary", toValue e.summary), ("anchors", toValue e.anchors)]⟩

instance : LawfulSerialize SourceEvidence := .of_fields fun _ => rfl

structure CapabilityWitness where
  key : String
  value : String
  provenance : String
  deriving DecidableEq, Ord

instance : Serialize CapabilityWitness := ⟨fun w => .object
  [("key", toValue w.key), ("value", toValue w.value), ("provenance", toValue w.provenance)]⟩

instance : LawfulSerialize CapabilityWitness := .of_fields fun _ => rfl

structure CapabilityProvenance where
  source : String
  detail : String
  deriving DecidableEq

instance : Serialize CapabilityProvenance := ⟨fun p => .object
  [("source", toValue p.source), ("detail", toValue p.detail)]⟩

instance : LawfulSerialize CapabilityProvenance := .of_fields fun _ => rfl

structure BackendCapability where
  family : BackendFamily
  supportedOperatingSystems : List OperatingSystem
  supportedAcceleratorVendors : List AcceleratorVendor
  allowedAcquisitions : List ArtifactAcquisition
  requiredWitnesses : List String
  legalPortability : List ArtifactPortability
  provenance : List CapabilityProvenance
  deriving DecidableEq

instance : Serialize BackendCapability := ⟨fun c => .object
  [("family", toValue c.family),
    ("supported_operating_systems", toValue c.supportedOperatingSystems),
    ("supported_accelerator_vendors", toValue c.supportedAcceleratorVendors),
    ("allowed_acquisitions", toValue c.allowedAcquisitions),
    ("required_witnesses", toValue c.requiredWitnesses),
    ("legal_portability", toValue c.legalPortability), ("provenance", toValue c.provenance)]⟩

instance : LawfulSerialize BackendCapability := .of_fields fun _ => rfl

structure BackendCapabilityRegistry where
  entries : List BackendCapability
  deriving DecidableEq

instance : Serialize BackendCapabilityRegistry :=
  ⟨fun r => .object [("entries", toValue r.entries)]⟩

instance : LawfulSerialize BackendCapabilityRegistry := .of_fields fun _ => rfl

structure BackendAdmissibilityProof where
  verdict : AdmissibilityVerdict
  family : BackendFamily
  acquisition : ArtifactAcquisition
  packagingStrategy : PackagingStrategy
  requiredWitnesses : List String
  satisfiedWitnesses : List String
  rejectedReasons : List String
  provenance : List CapabilityProvenance
  deriving DecidableEq

instance : Serialize BackendAdmissibilityProof := ⟨fun p => .object
  [("verdict", toValue p.verdict), ("family", toValue p.family),
    ("acquisition", toValue p.acquisition), ("packaging_strategy", toValue p.packagingStrategy),
    ("required_witnesses", toValue p.requiredWitnesses),
    ("satisfied_witnesses", toValue p.satisfiedWitnesses),
    ("rejected_reasons", toValue p.rejectedReasons), ("provenance", toValue p.provenance)]⟩

instance : LawfulSerialize BackendAdmissibilityProof := .of_fields fun _ => rfl

structure BackendCandidate where
  family : BackendFamily
  acquisition : ArtifactAcquisition
  reason : String
  admissibility : BackendAdmissibilityProof
  deriving DecidableEq

instance : Serialize BackendCandidate := ⟨fun c => .object
  [("family", toValue c.family), ("acquisition", toValue c.acquisition),
    ("reason", toValue c.reason), ("admissibility", toValue c.admissibility)]⟩

instance : LawfulSerialize BackendCandidate := .of_fields fun _ => rfl

structure BackendSelection where
  primary : BackendCandidate
  secondary : List BackendCandidate
  deriving DecidableEq

instance : Serialize BackendSelection := ⟨fun s => .object
  [("primary", toValue s.primary), ("secondary", toValue s.secondary)]⟩

instance : LawfulSerialize BackendSelection := .of_fields fun _ => rfl

/-- The primary backend and then the others. -/
def BackendSelection.candidates (s : BackendSelection) : List BackendCandidate :=
  s.primary :: s.secondary

structure BackendDecisionEntry where
  family : BackendFamily
  technicallyAvailable : Bool
  selectedForDeployment : Bool
  reachableFromModelFamily : Bool
  reachableFromMaterializationPlan : Bool
  runtimeReachable : Bool
  buildTechnicallyPossible : Bool
  chosenAcquisition : Option ArtifactAcquisition
  requiredWitnesses : List String
  satisfiedWitnesses : List String
  acceptedReasons : List String
  rejectedReasons : List String
  reachableCompileRegions : List String
  reachableArtifactScopes : List String
  reachableWarmupScopes : List String
  passThroughOptimizations : List String
  deriving DecidableEq

instance : Serialize BackendDecisionEntry := ⟨fun e => .object
  [("family", toValue e.family), ("technically_available", toValue e.technicallyAvailable),
    ("selected_for_deployment", toValue e.selectedForDeployment),
    ("reachable_from_model_family", toValue e.reachableFromModelFamily),
    ("reachable_from_materialization_plan", toValue e.reachableFromMaterializationPlan),
    ("runtime_reachable", toValue e.runtimeReachable),
    ("build_technically_possible", toValue e.buildTechnicallyPossible),
    ("chosen_acquisition", toValue e.chosenAcquisition),
    ("required_witnesses", toValue e.requiredWitnesses),
    ("satisfied_witnesses", toValue e.satisfiedWitnesses),
    ("accepted_reasons", toValue e.acceptedReasons),
    ("rejected_reasons", toValue e.rejectedReasons),
    ("reachable_compile_regions", toValue e.reachableCompileRegions),
    ("reachable_artifact_scopes", toValue e.reachableArtifactScopes),
    ("reachable_warmup_scopes", toValue e.reachableWarmupScopes),
    ("pass_through_optimizations", toValue e.passThroughOptimizations)]⟩

instance : LawfulSerialize BackendDecisionEntry := .of_fields fun _ => rfl

structure BackendExtensionManifest where
  extensionKey : String
  binaryName : String
  backendFamily : BackendFamily
  modelRepositories : List String
  buildTechnicallyPossible : Bool
  runtimeReachable : Bool
  reachableCompileRegions : List String
  reachableArtifactScopes : List String
  artifactClasses : List String
  deriving DecidableEq

instance : Serialize BackendExtensionManifest := ⟨fun m => .object
  [("extension_key", toValue m.extensionKey), ("binary_name", toValue m.binaryName),
    ("backend_family", toValue m.backendFamily),
    ("model_repositories", toValue m.modelRepositories),
    ("build_technically_possible", toValue m.buildTechnicallyPossible),
    ("runtime_reachable", toValue m.runtimeReachable),
    ("reachable_compile_regions", toValue m.reachableCompileRegions),
    ("reachable_artifact_scopes", toValue m.reachableArtifactScopes),
    ("artifact_classes", toValue m.artifactClasses)]⟩

instance : LawfulSerialize BackendExtensionManifest := .of_fields fun _ => rfl

structure BackendDecisionPlan where
  buildProfileIdentity : CanonicalHash
  entries : List BackendDecisionEntry
  extensionManifests : List BackendExtensionManifest
  deriving DecidableEq

instance : Serialize BackendDecisionPlan := ⟨fun p => .object
  [("build_profile_identity", toValue p.buildProfileIdentity), ("entries", toValue p.entries),
    ("extension_manifests", toValue p.extensionManifests)]⟩

instance : LawfulSerialize BackendDecisionPlan := .of_fields fun _ => rfl

/-! ## Regions, shapes and artifacts -/

structure CompileRegion where
  name : String
  kind : CompileRegionKind
  family : BackendFamily
  reusable : Bool
  regionalCompileCandidate : Bool
  boundaries : List String
  rationale : String
  invalidationDomain : String
  shapePlanes : List CoveragePlane
  stableIdentity : CanonicalHash
  equivalenceIdentity : CanonicalHash
  cacheNamespace : String
  cacheSharing : RegionCacheSharing
  portability : ArtifactPortability
  rankDisposition : RankDisposition
  topologySensitive : Bool
  portabilityScope : String
  topologyScope : String
  warmupScope : String
  closureVerificationCriteria : List String
  evidence : SourceEvidence
  deriving DecidableEq, Ord

instance : Serialize CompileRegion := ⟨fun r => .object
  [("name", toValue r.name), ("kind", toValue r.kind), ("family", toValue r.family),
    ("reusable", toValue r.reusable),
    ("regional_compile_candidate", toValue r.regionalCompileCandidate),
    ("boundaries", toValue r.boundaries), ("rationale", toValue r.rationale),
    ("invalidation_domain", toValue r.invalidationDomain),
    ("shape_planes", toValue r.shapePlanes), ("stable_identity", toValue r.stableIdentity),
    ("equivalence_identity", toValue r.equivalenceIdentity),
    ("cache_namespace", toValue r.cacheNamespace), ("cache_sharing", toValue r.cacheSharing),
    ("portability", toValue r.portability), ("rank_disposition", toValue r.rankDisposition),
    ("topology_sensitive", toValue r.topologySensitive),
    ("portability_scope", toValue r.portabilityScope),
    ("topology_scope", toValue r.topologyScope), ("warmup_scope", toValue r.warmupScope),
    ("closure_verification_criteria", toValue r.closureVerificationCriteria),
    ("evidence", toValue r.evidence)]⟩

instance : LawfulSerialize CompileRegion := .of_fields fun _ => rfl

structure ShapeEnvelopeNode where
  name : String
  plane : CoveragePlane
  intent : RangeIntent
  range : ShapeRange
  exactShape : Option ShapePoint
  requiredBackends : List BackendFamily
  deriving DecidableEq, Ord

instance : Serialize ShapeEnvelopeNode := ⟨fun n => .object
  [("name", toValue n.name), ("plane", toValue n.plane), ("intent", toValue n.intent),
    ("range", toValue n.range), ("exact_shape", toValue n.exactShape),
    ("required_backends", toValue n.requiredBackends)]⟩

instance : LawfulSerialize ShapeEnvelopeNode := .of_fields fun _ => rfl

structure ShapeEnvelope where
  nodes : List ShapeEnvelopeNode
  deriving DecidableEq

instance : Serialize ShapeEnvelope := ⟨fun e => .object [("nodes", toValue e.nodes)]⟩

instance : LawfulSerialize ShapeEnvelope := .of_fields fun _ => rfl

structure ArtifactAdmissibilityProof where
  proofIdentity : CanonicalHash
  artifactScope : String
  artifactClass : ArtifactClass
  backend : BackendFamily
  acquisition : ArtifactAcquisition
  portability : ArtifactPortability
  targetAbiIdentity : CanonicalHash
  targetShapeEnvelopeIdentity : CanonicalHash
  targetTopology : ExecutionTopology
  requiredWitnesses : List String
  satisfiedWitnesses : List String
  failClosed : Bool
  rationale : List String
  deriving DecidableEq, Ord

instance : Serialize ArtifactAdmissibilityProof := ⟨fun p => .object
  [("proof_identity", toValue p.proofIdentity), ("artifact_scope", toValue p.artifactScope),
    ("class", toValue p.artifactClass), ("backend", toValue p.backend),
    ("acquisition", toValue p.acquisition), ("portability", toValue p.portability),
    ("target_abi_identity", toValue p.targetAbiIdentity),
    ("target_shape_envelope_identity", toValue p.targetShapeEnvelopeIdentity),
    ("target_topology", toValue p.targetTopology),
    ("required_witnesses", toValue p.requiredWitnesses),
    ("satisfied_witnesses", toValue p.satisfiedWitnesses), ("fail_closed", toValue p.failClosed),
    ("rationale", toValue p.rationale)]⟩

instance : LawfulSerialize ArtifactAdmissibilityProof := .of_fields fun _ => rfl

structure ArtifactRequirement where
  artifactClass : ArtifactClass
  backend : BackendFamily
  acquisition : ArtifactAcquisition
  scope : String
  portability : ArtifactPortability
  rankDisposition : RankDisposition
  expectedBytes : Option Nat
  expectedCompileMs : Option Nat
  expectedTransferMs : Option Nat
  admissibility : ArtifactAdmissibilityProof
  deriving DecidableEq, Ord

instance : Serialize ArtifactRequirement := ⟨fun r => .object
  [("class", toValue r.artifactClass), ("backend", toValue r.backend),
    ("acquisition", toValue r.acquisition), ("scope", toValue r.scope),
    ("portability", toValue r.portability), ("rank_disposition", toValue r.rankDisposition),
    ("expected_bytes", toValue r.expectedBytes),
    ("expected_compile_ms", toValue r.expectedCompileMs),
    ("expected_transfer_ms", toValue r.expectedTransferMs),
    ("admissibility", toValue r.admissibility)]⟩

instance : LawfulSerialize ArtifactRequirement := .of_fields fun _ => rfl

structure ArtifactManifestEntry where
  identity : String
  artifactClass : ArtifactClass
  backend : BackendFamily
  scope : String
  admissibility : ArtifactAdmissibilityProof
  deriving DecidableEq, Ord

instance : Serialize ArtifactManifestEntry := ⟨fun e => .object
  [("identity", toValue e.identity), ("class", toValue e.artifactClass),
    ("backend", toValue e.backend), ("scope", toValue e.scope),
    ("admissibility", toValue e.admissibility)]⟩

structure ArtifactClosure where
  planIdentity : CanonicalHash
  artifacts : List ArtifactManifestEntry
  deriving DecidableEq

def artifactManifestIdentity (primaryBackend : BackendFamily)
    (requirement : ArtifactRequirement) : String :=
  primaryBackend.asStr ++ ":" ++ requirement.artifactClass.debug ++ ":" ++ requirement.scope

def artifactNodeHandle (C : Canon) (requirement : ArtifactRequirement) : String :=
  "artifact:" ++ requirement.artifactClass.asStr ++ ":" ++ (C.canonicalHash requirement).asStr

def fanoutNodeHandle (C : Canon) (requirement : ArtifactRequirement) : String :=
  "fanout:" ++ requirement.artifactClass.asStr ++ ":" ++ (C.canonicalHash requirement).asStr

/-! ## Warmup -/

structure WarmupContradiction where
  trigger : String
  invalidatesNode : String
  nextAction : String
  deriving DecidableEq, Ord

instance : Serialize WarmupContradiction := ⟨fun c => .object
  [("trigger", toValue c.trigger), ("invalidates_node", toValue c.invalidatesNode),
    ("next_action", toValue c.nextAction)]⟩

structure WarmupCoverageProof where
  proofId : String
  nodeName : String
  regionName : String
  plane : CoveragePlane
  requiredArtifacts : List String
  rankScope : List Nat
  blocking : Bool
  expectedStates : List String
  contradictionTriggers : List WarmupContradiction
  servePhase : ServePhase
  deriving DecidableEq, Ord

instance : Serialize WarmupCoverageProof := ⟨fun p => .object
  [("proof_id", toValue p.proofId), ("node_name", toValue p.nodeName),
    ("region_name", toValue p.regionName), ("plane", toValue p.plane),
    ("required_artifacts", toValue p.requiredArtifacts), ("rank_scope", toValue p.rankScope),
    ("blocking", toValue p.blocking), ("expected_states", toValue p.expectedStates),
    ("contradiction_triggers", toValue p.contradictionTriggers),
    ("serve_phase", toValue p.servePhase)]⟩

structure WarmupObligation where
  nodeName : String
  regionName : String
  stepCount : Nat
  plane : CoveragePlane
  blocking : Bool
  requiredArtifacts : List String
  rankScope : List Nat
  requiresCapture : Bool
  requiresAutotune : Bool
  proof : WarmupCoverageProof
  deriving DecidableEq, Ord

instance : Serialize WarmupObligation := ⟨fun o => .object
  [("node_name", toValue o.nodeName), ("region_name", toValue o.regionName),
    ("step_count", toValue o.stepCount), ("plane", toValue o.plane),
    ("blocking", toValue o.blocking), ("required_artifacts", toValue o.requiredArtifacts),
    ("rank_scope", toValue o.rankScope), ("requires_capture", toValue o.requiresCapture),
    ("requires_autotune", toValue o.requiresAutotune), ("proof", toValue o.proof)]⟩

/-- The name of an obligation's node in the graph. -/
def WarmupObligation.handle (o : WarmupObligation) : String :=
  "warmup:" ++ o.nodeName ++ ":" ++ o.regionName

/-! ## The materialization graph -/

structure NodeExecutionContract where
  queue : QueueKind
  discipline : QueueDiscipline
  servePhase : ServePhase
  fanoutStrategy : FanoutStrategy
  dependencyBarrier : List String
  deriving DecidableEq

instance : Serialize NodeExecutionContract := ⟨fun c => .object
  [("queue", toValue c.queue), ("discipline", toValue c.discipline),
    ("serve_phase", toValue c.servePhase), ("fanout_strategy", toValue c.fanoutStrategy),
    ("dependency_barrier", toValue c.dependencyBarrier)]⟩

instance : LawfulSerialize NodeExecutionContract := .of_fields fun _ => rfl

structure MaterializationNode where
  name : String
  wave : Nat
  kind : MaterializationNodeKind
  queue : QueueKind
  plane : CoveragePlane
  dependencyNodes : List String
  consumes : List String
  produces : List String
  rankScope : List Nat
  invalidationDomain : String
  replayBoundary : String
  expectedCompileMs : Option Nat
  expectedBytesWritten : Option Nat
  expectedTransferMs : Option Nat
  residualJitRiskRemoved : Nat
  executionContract : NodeExecutionContract
  deriving DecidableEq

instance : Serialize MaterializationNode := ⟨fun n => .object
  [("name", toValue n.name), ("wave", toValue n.wave), ("kind", toValue n.kind),
    ("queue", toValue n.queue), ("plane", toValue n.plane),
    ("dependency_nodes", toValue n.dependencyNodes), ("consumes", toValue n.consumes),
    ("produces", toValue n.produces), ("rank_scope", toValue n.rankScope),
    ("invalidation_domain", toValue n.invalidationDomain),
    ("replay_boundary", toValue n.replayBoundary),
    ("expected_compile_ms", toValue n.expectedCompileMs),
    ("expected_bytes_written", toValue n.expectedBytesWritten),
    ("expected_transfer_ms", toValue n.expectedTransferMs),
    ("residual_jit_risk_removed", toValue n.residualJitRiskRemoved),
    ("execution_contract", toValue n.executionContract)]⟩

instance : LawfulSerialize MaterializationNode := .of_fields fun _ => rfl

structure LeaderAssignment where
  artifactScope : String
  leaderRank : Nat
  followerRanks : List Nat
  deriving DecidableEq

instance : Serialize LeaderAssignment := ⟨fun a => .object
  [("artifact_scope", toValue a.artifactScope), ("leader_rank", toValue a.leaderRank),
    ("follower_ranks", toValue a.followerRanks)]⟩

instance : LawfulSerialize LeaderAssignment := .of_fields fun _ => rfl

structure WaveEstimate where
  expectedCompileMs : Option Nat
  expectedBytesWritten : Option Nat
  expectedTransferMs : Option Nat
  fanoutCount : Nat
  residualJitRiskRemoved : Nat
  deriving DecidableEq

instance : Serialize WaveEstimate := ⟨fun e => .object
  [("expected_compile_ms", toValue e.expectedCompileMs),
    ("expected_bytes_written", toValue e.expectedBytesWritten),
    ("expected_transfer_ms", toValue e.expectedTransferMs),
    ("fanout_count", toValue e.fanoutCount),
    ("residual_jit_risk_removed", toValue e.residualJitRiskRemoved)]⟩

instance : LawfulSerialize WaveEstimate := .of_fields fun _ => rfl

structure WaveExecutionContract where
  waveName : String
  queue : QueueKind
  discipline : QueueDiscipline
  servePhase : ServePhase
  fulfills : List String
  deriving DecidableEq

instance : Serialize WaveExecutionContract := ⟨fun c => .object
  [("wave_name", toValue c.waveName), ("queue", toValue c.queue),
    ("discipline", toValue c.discipline), ("serve_phase", toValue c.servePhase),
    ("fulfills", toValue c.fulfills)]⟩

instance : LawfulSerialize WaveExecutionContract := .of_fields fun _ => rfl

structure MaterializationWave where
  name : String
  queue : QueueKind
  nodeNames : List String
  estimate : WaveEstimate
  hazardRepairs : List String
  executionContract : WaveExecutionContract
  deriving DecidableEq

instance : Serialize MaterializationWave := ⟨fun w => .object
  [("name", toValue w.name), ("queue", toValue w.queue), ("node_names", toValue w.nodeNames),
    ("estimate", toValue w.estimate), ("hazard_repairs", toValue w.hazardRepairs),
    ("execution_contract", toValue w.executionContract)]⟩

instance : LawfulSerialize MaterializationWave := .of_fields fun _ => rfl

structure RuntimeRoi where
  artifactScope : String
  compileMs : Nat
  transferMs : Nat
  rebuildMs : Nat
  preferredStrategy : FanoutStrategy
  deriving DecidableEq

instance : Serialize RuntimeRoi := ⟨fun r => .object
  [("artifact_scope", toValue r.artifactScope), ("compile_ms", toValue r.compileMs),
    ("transfer_ms", toValue r.transferMs), ("rebuild_ms", toValue r.rebuildMs),
    ("preferred_strategy", toValue r.preferredStrategy)]⟩

instance : LawfulSerialize RuntimeRoi := .of_fields fun _ => rfl

structure MaterializationGraph where
  nodes : List MaterializationNode
  waves : List MaterializationWave
  leaderAssignments : List LeaderAssignment
  earlyServeFrontier : List String
  lateBindings : List (String × String)
  runtimeRoi : List RuntimeRoi
  deriving DecidableEq

instance : Serialize MaterializationGraph := ⟨fun g => .object
  [("nodes", toValue g.nodes), ("waves", toValue g.waves),
    ("leader_assignments", toValue g.leaderAssignments),
    ("early_serve_frontier", toValue g.earlyServeFrontier),
    ("late_bindings", toValue g.lateBindings), ("runtime_roi", toValue g.runtimeRoi)]⟩

instance : LawfulSerialize MaterializationGraph := .of_fields fun _ => rfl

/-! ## Guarantees -/

structure ResidualRuntimeRisk where
  hazardClass : HazardClass
  summary : String
  boundedTo : Option String
  deriving DecidableEq

instance : Serialize ResidualRuntimeRisk := ⟨fun r => .object
  [("class", toValue r.hazardClass), ("summary", toValue r.summary),
    ("bounded_to", toValue r.boundedTo)]⟩

instance : LawfulSerialize ResidualRuntimeRisk := .of_fields fun _ => rfl

structure GuaranteeEnvelope where
  requestedCorrectness : GuaranteeTarget
  requestedPerformance : GuaranteeTarget
  achievedCorrectness : GuaranteeLevel
  achievedPerformance : GuaranteeLevel
  coveredDimensions : List GuaranteeDimension
  coveredShapes : List String
  residualRisks : List ResidualRuntimeRisk
  deriving DecidableEq

instance : Serialize GuaranteeEnvelope := ⟨fun e => .object
  [("requested_correctness", toValue e.requestedCorrectness),
    ("requested_performance", toValue e.requestedPerformance),
    ("achieved_correctness", toValue e.achievedCorrectness),
    ("achieved_performance", toValue e.achievedPerformance),
    ("covered_dimensions", toValue e.coveredDimensions),
    ("covered_shapes", toValue e.coveredShapes), ("residual_risks", toValue e.residualRisks)]⟩

instance : LawfulSerialize GuaranteeEnvelope := .of_fields fun _ => rfl

structure CoverageWitness where
  plane : CoveragePlane
  nodeName : String
  evidence : String
  coverageStates : List CoverageState
  artifactScopes : List String
  uncoveredResiduals : List String
  deriving DecidableEq

instance : Serialize CoverageWitness := ⟨fun w => .object
  [("plane", toValue w.plane), ("node_name", toValue w.nodeName),
    ("evidence", toValue w.evidence), ("coverage_states", toValue w.coverageStates),
    ("artifact_scopes", toValue w.artifactScopes),
    ("uncovered_residuals", toValue w.uncoveredResiduals)]⟩

structure RuntimeJitEvidence where
  surfaceName : String
  backendFamily : String
  triggerShapeOrConfig : String
  triggerInputs : List String
  affectedRegions : List String
  requiredArtifacts : List String
  declaredRequiredWarmupScopes : List String
  requiredWarmupProofs : List String
  topologyContext : String
  boundedBy : List String
  mitigation : String
  contradictionReasons : List String
  deriving DecidableEq

instance : Serialize RuntimeJitEvidence := ⟨fun e => .object
  [("surface_name", toValue e.surfaceName), ("backend_family", toValue e.backendFamily),
    ("trigger_shape_or_config", toValue e.triggerShapeOrConfig),
    ("trigger_inputs", toValue e.triggerInputs), ("affected_regions", toValue e.affectedRegions),
    ("required_artifacts", toValue e.requiredArtifacts),
    ("declared_required_warmup_scopes", toValue e.declaredRequiredWarmupScopes),
    ("required_warmup_proofs", toValue e.requiredWarmupProofs),
    ("topology_context", toValue e.topologyContext), ("bounded_by", toValue e.boundedBy),
    ("mitigation", toValue e.mitigation),
    ("contradiction_reasons", toValue e.contradictionReasons)]⟩

structure GuaranteeEvidence where
  capabilityWitnesses : List CapabilityWitness
  artifactManifest : List ArtifactManifestEntry
  warmupObligations : List WarmupObligation
  coverageWitnesses : List CoverageWitness
  runtimeJitEvidence : List RuntimeJitEvidence
  deriving DecidableEq

instance : Serialize GuaranteeEvidence := ⟨fun e => .object
  [("capability_witnesses", toValue e.capabilityWitnesses),
    ("artifact_manifest", toValue e.artifactManifest),
    ("warmup_obligations", toValue e.warmupObligations),
    ("coverage_witnesses", toValue e.coverageWitnesses),
    ("runtime_jit_evidence", toValue e.runtimeJitEvidence)]⟩

/-! ## Rewrite trace -/

structure RewritePassContract where
  name : String
  phase : RewritePhase
  requiredInputs : List String
  producedOutputs : List String
  preservedInvariants : List String
  deriving DecidableEq

instance : Serialize RewritePassContract := ⟨fun c => .object
  [("name", toValue c.name), ("phase", toValue c.phase),
    ("required_inputs", toValue c.requiredInputs), ("produced_outputs", toValue c.producedOutputs),
    ("preserved_invariants", toValue c.preservedInvariants)]⟩

structure PassTrace where
  contract : RewritePassContract
  beforeIdentity : String
  afterIdentity : String
  matchedRules : List String
  repairs : List String
  invalidatedAssumptions : List String
  validatedInvariants : List String
  violations : List String
  deriving DecidableEq

instance : Serialize PassTrace := ⟨fun p => .object
  [("contract", toValue p.contract), ("before_identity", toValue p.beforeIdentity),
    ("after_identity", toValue p.afterIdentity), ("matched_rules", toValue p.matchedRules),
    ("repairs", toValue p.repairs), ("invalidated_assumptions", toValue p.invalidatedAssumptions),
    ("validated_invariants", toValue p.validatedInvariants), ("violations", toValue p.violations)]⟩

/-- `PassTrace::validate`: the first violation of the contract. -/
def PassTrace.validate (pass : PassTrace) : Except String Unit :=
  let name := pass.contract.name
  if isBlank name then .error "rewrite pass contract is missing a name"
  else if isBlank pass.beforeIdentity ∨ isBlank pass.afterIdentity then
    .error ("rewrite pass `" ++ name ++ "` is missing a before/after identity")
  else if pass.contract.requiredInputs.isEmpty then
    .error ("rewrite pass `" ++ name ++ "` has no declared inputs")
  else if pass.contract.producedOutputs.isEmpty then
    .error ("rewrite pass `" ++ name ++ "` has no declared outputs")
  else match pass.validatedInvariants.find? (· ∉ pass.contract.preservedInvariants) with
    | some invariant => .error ("rewrite pass `" ++ name ++ "` validated undeclared invariant `" ++
        invariant ++ "`")
    | none => match pass.violations.head? with
      | some violation => .error ("rewrite pass `" ++ name ++ "` violated `" ++ violation ++ "`")
      | none => .ok ()

/-! ## Optimization levels -/

structure OptimizationPhaseBudget where
  phaseName : String
  startupBudgetMs : Nat
  deriving DecidableEq

instance : Serialize OptimizationPhaseBudget := ⟨fun b => .object
  [("phase_name", toValue b.phaseName), ("startup_budget_ms", toValue b.startupBudgetMs)]⟩

structure OptimizationArtifactBudget where
  maxArtifactCount : Nat
  maxRankLocalArtifacts : Nat
  deriving DecidableEq

instance : Serialize OptimizationArtifactBudget := ⟨fun b => .object
  [("max_artifact_count", toValue b.maxArtifactCount),
    ("max_rank_local_artifacts", toValue b.maxRankLocalArtifacts)]⟩

structure OptimizationEnvelope where
  level : OptimizationLevel
  profileName : String
  compileSecondaryBackends : Bool
  includePerformanceWarmup : Bool
  includeCudaGraphs : Bool
  enableAutotune : Bool
  startupBudgetMs : Nat
  maxWarmupSteps : Nat
  artifactBudget : OptimizationArtifactBudget
  phaseBudgets : List OptimizationPhaseBudget
  deriving DecidableEq

instance : Serialize OptimizationEnvelope := ⟨fun e => .object
  [("level", toValue e.level), ("profile_name", toValue e.profileName),
    ("compile_secondary_backends", toValue e.compileSecondaryBackends),
    ("include_performance_warmup", toValue e.includePerformanceWarmup),
    ("include_cuda_graphs", toValue e.includeCudaGraphs),
    ("enable_autotune", toValue e.enableAutotune), ("startup_budget_ms", toValue e.startupBudgetMs),
    ("max_warmup_steps", toValue e.maxWarmupSteps), ("artifact_budget", toValue e.artifactBudget),
    ("phase_budgets", toValue e.phaseBudgets)]⟩

/-- The four phases of a level, with their budgets. -/
def startupBudgets (compile linkAssemble warmupMaterialize verify : Nat) :
    List OptimizationPhaseBudget :=
  [⟨"compile", compile⟩, ⟨"link_assemble", linkAssemble⟩,
    ⟨"warmup_materialize", warmupMaterialize⟩, ⟨"verify", verify⟩]

def OptimizationEnvelope.fromLevel (level : OptimizationLevel) : OptimizationEnvelope :=
  match level with
  | .o0 =>
      { level, profileName := "minimal_dev", compileSecondaryBackends := false
        includePerformanceWarmup := false, includeCudaGraphs := false, enableAutotune := false
        startupBudgetMs := 3500, maxWarmupSteps := 16, artifactBudget := ⟨12, 2⟩
        phaseBudgets := startupBudgets 2800 300 400 0 }
  | .o1 =>
      { level, profileName := "selective_compile", compileSecondaryBackends := false
        includePerformanceWarmup := true, includeCudaGraphs := false, enableAutotune := true
        startupBudgetMs := 4500, maxWarmupSteps := 8, artifactBudget := ⟨6, 0⟩
        phaseBudgets := startupBudgets 3200 400 900 0 }
  | .o2 =>
      { level, profileName := "balanced_prod", compileSecondaryBackends := true
        includePerformanceWarmup := true, includeCudaGraphs := true, enableAutotune := true
        startupBudgetMs := 8500, maxWarmupSteps := 32, artifactBudget := ⟨12, 4⟩
        phaseBudgets := startupBudgets 5500 700 2300 0 }
  | .o3 =>
      { level, profileName := "max_materialized_prod", compileSecondaryBackends := true
        includePerformanceWarmup := true, includeCudaGraphs := true, enableAutotune := true
        startupBudgetMs := 12000, maxWarmupSteps := 48, artifactBudget := ⟨16, 6⟩
        phaseBudgets := startupBudgets 7500 1000 3500 0 }

/-! ## Plans -/

structure StructuralIdentity where
  requestIdentity : CanonicalHash
  optimizationIdentity : CanonicalHash
  backendDecisionIdentity : CanonicalHash
  backendRegistryIdentity : CanonicalHash
  shapeEnvelopeIdentity : CanonicalHash
  compileRegionIdentity : CanonicalHash
  capabilityIdentity : CanonicalHash
  abiIdentity : CanonicalHash
  backendExtensionIdentity : CanonicalHash
  portabilityIdentity : CanonicalHash
  artifactIdentity : CanonicalHash
  evidenceIdentity : CanonicalHash
  planIdentity : CanonicalHash
  deriving DecidableEq

instance : Serialize StructuralIdentity := ⟨fun i => .object
  [("request_identity", toValue i.requestIdentity),
    ("optimization_identity", toValue i.optimizationIdentity),
    ("backend_decision_identity", toValue i.backendDecisionIdentity),
    ("backend_registry_identity", toValue i.backendRegistryIdentity),
    ("shape_envelope_identity", toValue i.shapeEnvelopeIdentity),
    ("compile_region_identity", toValue i.compileRegionIdentity),
    ("capability_identity", toValue i.capabilityIdentity), ("abi_identity", toValue i.abiIdentity),
    ("backend_extension_identity", toValue i.backendExtensionIdentity),
    ("portability_identity", toValue i.portabilityIdentity),
    ("artifact_identity", toValue i.artifactIdentity),
    ("evidence_identity", toValue i.evidenceIdentity), ("plan_identity", toValue i.planIdentity)]⟩

structure ResolvedBuildPlan where
  normalizedRequest : NormalizedRequest
  requestedReadiness : Option String
  optimizationEnvelope : OptimizationEnvelope
  backendDecision : BackendDecisionPlan
  backendRegistry : BackendCapabilityRegistry
  selectedBackends : BackendSelection
  compileRegions : List CompileRegion
  shapeEnvelope : ShapeEnvelope
  artifactRequirements : List ArtifactRequirement
  warmupObligations : List WarmupObligation
  materializationGraph : MaterializationGraph
  guaranteeEnvelope : GuaranteeEnvelope
  guaranteeEvidence : GuaranteeEvidence
  rewriteTrace : List PassTrace
  structuralIdentity : StructuralIdentity
  deriving DecidableEq

instance : Serialize ResolvedBuildPlan := ⟨fun p => .object
  [("normalized_request", toValue p.normalizedRequest),
    ("requested_readiness", toValue p.requestedReadiness),
    ("optimization_envelope", toValue p.optimizationEnvelope),
    ("backend_decision", toValue p.backendDecision),
    ("backend_registry", toValue p.backendRegistry),
    ("selected_backends", toValue p.selectedBackends),
    ("compile_regions", toValue p.compileRegions), ("shape_envelope", toValue p.shapeEnvelope),
    ("artifact_requirements", toValue p.artifactRequirements),
    ("warmup_obligations", toValue p.warmupObligations),
    ("materialization_graph", toValue p.materializationGraph),
    ("guarantee_envelope", toValue p.guaranteeEnvelope),
    ("guarantee_evidence", toValue p.guaranteeEvidence), ("rewrite_trace", toValue p.rewriteTrace),
    ("structural_identity", toValue p.structuralIdentity)]⟩

end Sock.Core
