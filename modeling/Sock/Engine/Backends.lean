/-
  The planner's first half (engine/src/planner.rs): what the environment can do, which backends
  are selected, and which regions they compile.

  * `capabilityWitnesses`, `backendRegistry`: the facts a plan rests on.
  * `backendProofs`, `selectBackends`, `expandSelectedBackends`: a backend is selected with a
    proof that its acquisition is admissible.
  * `compileRegions`: the surveyed regions that the scope and the backends allow, with their
    stable and their equivalence identity.
  * `backendDecision`: the record of what was considered.

  Not modelled: failures of serialization.
-/
import Sock.Engine.Adapter

namespace Sock.Core

open Lib

/-- `AcceleratorRuntimeContract::env_defaults`: the profile, the target device and the contract's
    own defaults. -/
def AcceleratorRuntimeContract.allEnvDefaults (contract : AcceleratorRuntimeContract) :
    List (String × String) :=
  dedup (sortBy (compareLex (compareOn Prod.fst) (compareOn Prod.snd))
    (("SOCK_RUNTIME_PROFILE", contract.profile.asStr) ::
      ("VLLM_TARGET_DEVICE", contract.vllmTargetDevice) :: contract.envDefaults))

end Sock.Core

namespace Sock.Engine

open Lib Sock.Core

inductive PlanError
  | adapter (error : AdapterError)
  | validation (message : String)
  deriving DecidableEq

/-! ## Witnesses and registry -/

def witness (key value provenance : String) : CapabilityWitness := ⟨key, value, provenance⟩

/-- Some requested architecture has a class with the feature. -/
def hasArchitecture (environment : RequestedEnvironment)
    (feature : NvidiaArchitectureClass → Bool) : Bool :=
  environment.gpuArches.any fun arch => (parseNvidiaArchitectureClass arch).any feature

/-- The witnesses of an NVIDIA environment. -/
def nvidiaWitnesses (contract : AcceleratorRuntimeContract) (environment : RequestedEnvironment) :
    List CapabilityWitness :=
  (if environment.gpuArches.isEmpty then [] else
    [witness "nvidia.compute_capability" (",".intercalate environment.gpuArches)
      "host-discovery"]) ++
  (if environment.driverVersion.isEmpty then [] else
    [witness "nvidia.driver_version" environment.driverVersion "host-discovery"]) ++
  (if environment.cudaVersion.isEmpty then [] else
    [witness "cuda.runtime_version" environment.cudaVersion "host-discovery"]) ++
  (if contract.allEnvDefaults.any (· = ("CUDA_DEVICE_ORDER", "PCI_BUS_ID")) then
    [witness "cuda.device_order.pci_bus_id" "true" "accelerator-runtime-contract"] else []) ++
  (if hasArchitecture environment (·.supportsCudaGraphs) then
    [witness "cuda.graphs" "available" "accelerator-runtime-contract"] else []) ++
  (if hasArchitecture environment (·.supportsTma) then
    [witness "nvidia.tma" "available" "accelerator-runtime-contract"] else []) ++
  (if hasArchitecture environment (·.supportsNvfp4) then
    [witness "nvidia.nvfp4" "available" "accelerator-runtime-contract"] else [])

def diagnosticWitness (diagnostic : AdapterDiagnostic) : CapabilityWitness :=
  witness ("adapter.diagnostic." ++ slug diagnostic.title)
    (asciiLowercase diagnostic.severity.debug) "vllm-adapter-survey"

def capabilityWitnesses (host : PlannerHostSnapshot) (normalized : NormalizedRequest)
    (survey : AdapterSurvey) : List CapabilityWitness :=
  let contract := host.runtimeContract
  let environment := normalized.environment
  sort
    ([witness "platform.os" environment.operatingSystem.debug "requested-environment",
      witness "platform.gpu_vendor" environment.acceleratorVendor.debug "requested-environment",
      witness "platform.gpu_arches" (",".intercalate environment.gpuArches)
        "requested-environment",
      witness "platform.cuda" environment.cudaVersion "requested-environment",
      witness "platform.device_count" (toString host.deviceCount.toNat) "host-discovery",
      witness "runtime.profile" contract.profile.asStr "accelerator-runtime-contract",
      witness "runtime.vllm_target_device" contract.vllmTargetDevice
        "accelerator-runtime-contract",
      witness "platform.python_abi" environment.pythonAbi "requested-environment",
      witness "engine.revision" survey.engineRevision "vllm-adapter-survey",
      witness "adapter.compile_region_count" (toString survey.compileRegions.length)
        "vllm-adapter-survey",
      witness "adapter.residual_surface_count" (toString survey.residualJitSurfaces.length)
        "vllm-adapter-survey"] ++
    (if host.flashinferPrebuiltAvailable then
      [witness "flashinfer.prebuilt" "available" "host-discovery"] else []) ++
    (if environment.acceleratorVendor = .nvidia then nvidiaWitnesses contract environment
      else []) ++
    survey.diagnostics.map diagnosticWitness)

def capabilityTable : List BackendCapability :=
  [{ family := .flashInfer
     supportedOperatingSystems := [.linux]
     supportedAcceleratorVendors := [.nvidia]
     allowedAcquisitions := [.vendorPrebuilt, .localSourceBuild]
     requiredWitnesses := ["flashinfer.prebuilt"]
     legalPortability := [.gpuArchitectureFamilyPortable, .abiClusterPortable]
     provenance :=
       [⟨"vllm-adapter-survey", "FlashInfer backend surfaced by adapter"⟩,
        ⟨"host-discovery", "prebuilt cubin witness available on target host"⟩] },
   { family := .triton
     supportedOperatingSystems := [.linux]
     supportedAcceleratorVendors := [.nvidia, .amd]
     allowedAcquisitions := [.localAotBuild]
     requiredWitnesses := []
     legalPortability := [.abiClusterPortable, .gpuArchitectureFamilyPortable]
     provenance :=
       [⟨"vllm-adapter-survey",
         "Triton regional compilation remains legal for vLLM attention and warmup paths"⟩] },
   { family := .aotInductor
     supportedOperatingSystems := [.linux]
     supportedAcceleratorVendors := [.nvidia]
     allowedAcquisitions := [.upstreamCacheBundle]
     requiredWitnesses := ["nvidia.tma"]
     legalPortability := [.abiClusterPortable]
     provenance :=
       [⟨"vllm-adapter-survey",
         "AoTInductor reuse is bounded to stable region bundles and Hopper/Blackwell " ++
           "TMA-capable NVIDIA runtimes"⟩] },
   { family := .cudaGraphs
     supportedOperatingSystems := [.linux]
     supportedAcceleratorVendors := [.nvidia]
     allowedAcquisitions := [.localAotBuild]
     requiredWitnesses := ["cuda.graphs"]
     legalPortability := [.topologyScoped]
     provenance :=
       [⟨"vllm-adapter-survey",
         "CUDA Graph captures are topology-scoped materialized artifacts"⟩] }]

def backendRegistry (normalized : NormalizedRequest) : BackendCapabilityRegistry where
  entries := sortBy (compareOn fun entry : BackendCapability => entry.family.asStr)
    (capabilityTable.filter fun entry =>
      normalized.environment.operatingSystem ∈ entry.supportedOperatingSystems ∧
        normalized.environment.acceleratorVendor ∈ entry.supportedAcceleratorVendors)

/-! ## Admissibility -/

/-- What the packaging strategy says against an acquisition. -/
def packagingRejections (strategy : PackagingStrategy) (acquisition : ArtifactAcquisition) :
    List String :=
  match strategy with
  | .prebuiltOnly =>
      if acquisition ≠ .vendorPrebuilt then ["policy requires vendor prebuilt closure only"]
      else []
  | .preferPrebuiltThenAot =>
      if acquisition = .localSourceBuild then
        ["policy stops at prebuilt and stable AoT materialization"] else []
  | .preferPrebuiltThenAotThenJit => []

section Proofs

variable (normalized : NormalizedRequest) (witnesses : List CapabilityWitness)

/-- The proof for one acquisition of a capability. -/
def backendProof (capability : BackendCapability) (acquisition : ArtifactAcquisition) :
    BackendAdmissibilityProof :=
  let strategy := normalized.backendPolicy.packagingStrategy
  let present (key : String) : Bool := witnesses.any (·.key = key)
  let rejectedReasons :=
    (if normalized.environment.operatingSystem ∈ capability.supportedOperatingSystems then []
      else ["unsupported operating system"]) ++
    (if normalized.environment.acceleratorVendor ∈ capability.supportedAcceleratorVendors then []
      else ["unsupported accelerator vendor"]) ++
    ((capability.requiredWitnesses.filter (!present ·)).map
      fun key => "missing witness `" ++ key ++ "`") ++
    packagingRejections strategy acquisition
  { verdict := if rejectedReasons.isEmpty then .admissible else .rejected
    family := capability.family
    acquisition
    packagingStrategy := strategy
    requiredWitnesses := capability.requiredWitnesses
    satisfiedWitnesses := capability.requiredWitnesses.filter present
    rejectedReasons
    provenance := capability.provenance }

def backendProofs (capability : BackendCapability) : List BackendAdmissibilityProof :=
  capability.allowedAcquisitions.map (backendProof normalized witnesses capability)

/-- The first admissible proof. -/
def admissibleProof? (capability : BackendCapability) : Option BackendAdmissibilityProof :=
  (backendProofs normalized witnesses capability).find? (·.verdict = .admissible)

def backendReason (proof : BackendAdmissibilityProof) : String :=
  proof.family.debug ++ " via " ++ proof.acquisition.debug ++ " is admissible under " ++
    proof.packagingStrategy.debug ++ "; witnesses=" ++
    (if proof.satisfiedWitnesses.isEmpty then "none" else ",".intercalate proof.satisfiedWitnesses)

/-- A selected backend with its proof. -/
def backendCandidate (family : BackendFamily) (proof : BackendAdmissibilityProof) :
    BackendCandidate where
  family := family
  acquisition := proof.acquisition
  reason := backendReason proof
  admissibility := proof

/-! ## Selection -/

variable (registry : BackendCapabilityRegistry)

/-- The preferred families that the registry has and that are admissible. -/
def viableBackends : List BackendCandidate :=
  normalized.backendPolicy.preferredFamilies.filterMap fun family => do
    let capability ← registry.entries.find? (·.family = family)
    let proof ← admissibleProof? normalized witnesses capability
    return backendCandidate family proof

def selectBackends : Except PlanError BackendSelection :=
  if normalized.environment.operatingSystem = .linux ∧
      normalized.environment.acceleratorVendor ∈ [.nvidia, .amd] then
    match viableBackends normalized witnesses registry with
    | primary :: secondary => .ok ⟨primary, secondary⟩
    | [] => .error (.validation "no admissible backend remained after legality filtering")
  else
    .error (.validation ("planning is unsupported for operating_system=" ++
      normalized.environment.operatingSystem.debug ++ " accelerator_vendor=" ++
      normalized.environment.acceleratorVendor.debug))

/-- The backend of a region joins the candidates. -/
def expandCandidates (candidates : List BackendCandidate) (family : BackendFamily) :
    Except PlanError (List BackendCandidate) :=
  if candidates.any (·.family = family) then .ok candidates
  else match registry.entries.find? (·.family = family) with
    | none => .error (.validation ("compile-region backend " ++ family.asStr ++
        " is absent from the registry"))
    | some capability => match admissibleProof? normalized witnesses capability with
      | none => .error (.validation ("compile-region backend " ++ family.asStr ++
          " is not admissible for this environment"))
      | some proof => .ok (candidates ++ [backendCandidate family proof])

def expandSelectedBackends (selected : BackendSelection) (compileRegions : List CompileRegion) :
    Except PlanError BackendSelection := do
  match ← (compileRegions.map (·.family)).foldlM (expandCandidates normalized witnesses registry)
      selected.candidates with
  | primary :: secondary => .ok ⟨primary, secondary⟩
  | [] => .error (.validation "no admissible backend remained after compile-region expansion")

end Proofs

/-! ## Regions -/

def resolveBackendBinding (binding : AdapterBackendBinding) (selected : BackendSelection) :
    BackendFamily :=
  match binding with
  | .primary => selected.primary.family
  | .fixed family => family

def backendBindingIsAdmissible (binding : AdapterBackendBinding) (selected : BackendSelection) :
    Bool :=
  match binding with
  | .primary => true
  | .fixed family =>
      selected.primary.family = family || selected.secondary.any (·.family = family)

section Regions

variable (C : Canon) (selected : BackendSelection)

/-- The filters of `compile_regions`. -/
def regionSelected (scope : BuildScope) (region : AdapterCompileRegion) : Bool :=
  region.regionalCompileCandidate && scope.allowsRegion region.canonicalName &&
    scope.allowsCacheNamespace region.cacheNamespace &&
    scope.allowsWarmupScope region.warmupScope &&
    scope.allowsRankDisposition region.rankDisposition &&
    backendBindingIsAdmissible region.backendBinding selected &&
    scope.allowsBackendFamily (resolveBackendBinding region.backendBinding selected)

def regionStableIdentity (region : AdapterCompileRegion) : CanonicalHash :=
  C.canonicalHash (Value.array
    [toValue region.canonicalName, toValue region.kind,
      toValue (resolveBackendBinding region.backendBinding selected),
      toValue region.boundaries, toValue region.invalidationDomain, toValue region.shapePlanes,
      toValue region.artifactPortability, toValue region.rankDisposition,
      toValue region.topologySensitive, toValue region.cacheNamespace,
      toValue region.warmupScope, toValue region.cacheSharing, toValue region.portabilityScope,
      toValue region.topologyScope, toValue region.closureVerificationCriteria])

def regionEquivalenceIdentity (region : AdapterCompileRegion) : CanonicalHash :=
  C.canonicalHash (Value.array
    [toValue region.kind, toValue (resolveBackendBinding region.backendBinding selected),
      toValue region.boundaries, toValue region.invalidationDomain, toValue region.shapePlanes,
      toValue region.artifactPortability, toValue region.rankDisposition,
      toValue region.topologySensitive, toValue region.cacheNamespace,
      toValue region.warmupScope, toValue region.cacheSharing, toValue region.portabilityScope,
      toValue region.topologyScope])

/-- A surveyed region as the plan records it. -/
def compileRegion (region : AdapterCompileRegion) : CompileRegion where
  name := region.canonicalName
  kind := region.kind
  family := resolveBackendBinding region.backendBinding selected
  reusable := region.repeated || region.regionalCompileCandidate
  regionalCompileCandidate := region.regionalCompileCandidate
  boundaries := region.boundaries
  rationale := region.rationale
  invalidationDomain := region.invalidationDomain
  shapePlanes := region.shapePlanes
  stableIdentity := regionStableIdentity C selected region
  equivalenceIdentity := regionEquivalenceIdentity C selected region
  cacheNamespace := region.cacheNamespace
  cacheSharing := region.cacheSharing
  portability := region.artifactPortability
  rankDisposition := region.rankDisposition
  topologySensitive := region.topologySensitive
  portabilityScope := region.portabilityScope
  topologyScope := region.topologyScope
  warmupScope := region.warmupScope
  closureVerificationCriteria := region.closureVerificationCriteria
  evidence := region.evidence

def compileRegions (survey : AdapterSurvey) (scope : BuildScope) : List CompileRegion :=
  sort ((survey.compileRegions.filter (regionSelected selected scope)).map
    (compileRegion C selected))

end Regions

/-! ## The decision record -/

def passThroughOptimizations : BackendFamily → List String
  | .flashInfer =>
      ["native FlashInfer autotune cache reuse", "vendored sparse-MLA warmup flow"]
  | .triton => ["piecewise compile cache", "vendored Triton warmup path"]
  | .aotInductor => ["AOT graph partitioning", "normalized compile surface fingerprinting"]
  | .cudaGraphs => ["native CUDA graph capture sizing", "topology-scoped capture reuse"]

def extensionBinaryName : BackendFamily → String
  | .flashInfer => "flashinfer_extension.so"
  | .triton => "triton_kernel_pack.so"
  | .aotInductor => "aot_inductor_graph_pack.so"
  | .cudaGraphs => "cuda_graph_capture_pack.bin"

section Decision

variable (normalized : NormalizedRequest) (witnesses : List CapabilityWitness)
  (selected : BackendSelection) (compileRegions : List CompileRegion)
  (requirements : List ArtifactRequirement) (obligations : List WarmupObligation)
  (survey : AdapterSurvey)

def decisionEntry (capability : BackendCapability) : BackendDecisionEntry :=
  let family := capability.family
  let proofs := backendProofs normalized witnesses capability
  let technicallyAvailable := proofs.any (·.verdict = .admissible)
  let selectedCandidate := selected.candidates.find? (·.family = family)
  let reachableCompileRegions := (compileRegions.filter (·.family = family)).map (·.name)
  let reachableArtifactScopes := (requirements.filter (·.backend = family)).map (·.scope)
  let reachableWarmupScopes := (obligations.filter fun o =>
    compileRegions.any fun r => r.name = o.regionName ∧ r.family = family).map (·.regionName)
  let reachable := !reachableCompileRegions.isEmpty || !reachableArtifactScopes.isEmpty ||
    !reachableWarmupScopes.isEmpty
  { family
    technicallyAvailable
    selectedForDeployment := selectedCandidate.isSome
    reachableFromModelFamily :=
      survey.compileRegions.any
          (fun region => resolveBackendBinding region.backendBinding selected = family) ||
        survey.residualJitSurfaces.any (·.backendFamily = family.asStr)
    reachableFromMaterializationPlan := reachable
    runtimeReachable := reachable
    buildTechnicallyPossible := technicallyAvailable
    chosenAcquisition := selectedCandidate.map (·.acquisition)
    requiredWitnesses := capability.requiredWitnesses
    satisfiedWitnesses := match selectedCandidate with
      | some candidate => candidate.admissibility.satisfiedWitnesses
      | none => match proofs.find? (·.verdict = .admissible) with
        | some proof => proof.satisfiedWitnesses
        | none => []
    acceptedReasons := (selectedCandidate.map (·.reason)).toList
    rejectedReasons := (proofs.filter (·.verdict = .rejected)).flatMap (·.rejectedReasons)
    reachableCompileRegions
    reachableArtifactScopes
    reachableWarmupScopes
    passThroughOptimizations := passThroughOptimizations family }

def extensionManifest (entry : BackendDecisionEntry) : BackendExtensionManifest where
  extensionKey := entry.family.asStr ++ "-extension"
  binaryName := extensionBinaryName entry.family
  backendFamily := entry.family
  modelRepositories := [normalized.model.repository]
  buildTechnicallyPossible := entry.buildTechnicallyPossible
  runtimeReachable := entry.runtimeReachable
  reachableCompileRegions := entry.reachableCompileRegions
  reachableArtifactScopes := entry.reachableArtifactScopes
  artifactClasses :=
    (requirements.filter (·.backend = entry.family)).map (·.artifactClass.asStr)

def backendDecision (C : Canon) (registry : BackendCapabilityRegistry) : BackendDecisionPlan :=
  let entries := registry.entries.map (decisionEntry normalized witnesses selected compileRegions
    requirements obligations survey)
  { buildProfileIdentity := C.canonicalHash normalized.optimizationPolicy
    entries
    -- every capability has its entry, so nothing is dropped
    extensionManifests := registry.entries.filterMap fun capability =>
      (entries.find? (·.family = capability.family)).map
        (extensionManifest normalized requirements) }

end Decision

end Sock.Engine
