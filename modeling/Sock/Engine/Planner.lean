/-
  The planner's second half (engine/src/planner.rs): from the selected backends and regions to a
  resolved plan.

  * `shapeEnvelope`, `artifactRequirements`, `warmupObligations`: what has to be covered, built
    and warmed up.
  * `materializationGraph`, `buildWaves`: the nodes that do it, and the waves they run in.
  * `residualRisks`, `runtimeJitEvidence`, `guaranteeEnvelope`: what the plan promises.
  * `Planner.resolveScoped`: the whole, with the plan's own validation at the end.

  Ranks are natural numbers below 2¹⁶: the rank count is a product that saturates. Sums of times
  and sizes do not overflow.

  Not modelled: failures of serialization.
-/
import Sock.Lib.Fallible
import Sock.Engine.Backends

namespace Sock.Engine

open Lib Sock.Core Fallible

/-! ## Ranks -/

/-- Tensor times pipeline parallelism, saturated to 16 bits, and at least one. -/
def totalRankCount (topology : ExecutionTopology) : Nat :=
  max (min (topology.tensorParallelism.toNat * topology.pipelineParallelism.toNat) 65535) 1

def totalRanks (topology : ExecutionTopology) : List Nat := List.range (totalRankCount topology)

/-! ## Shapes -/

/-- The node of one exact shape. -/
def hotShapeNode (label : String) (shape : ShapePoint) (backend : BackendFamily) :
    ShapeEnvelopeNode where
  name := label ++ "-b" ++ toString shape.batchSize ++ "-s" ++ toString shape.sequenceLength
  plane := shape.plane
  intent := .exactHotShape
  range := ⟨shape.batchSize, shape.batchSize, shape.sequenceLength, shape.sequenceLength⟩
  exactShape := some shape
  requiredBackends := [backend]

def shapeEnvelope (normalized : NormalizedRequest) (selected : BackendSelection)
    (optimization : OptimizationEnvelope) : ShapeEnvelope :=
  let primary := selected.primary.family
  let policy := normalized.shapePolicy
  { nodes := sort
      ([⟨"correctness-range", .correctness, .symbolicRange, policy.correctnessRange, none,
          [primary]⟩] ++
      (if optimization.includePerformanceWarmup then
        ⟨"performance-range", .performance, .fallbackRange, policy.performanceRange, none,
          [primary]⟩ :: policy.hotShapes.map (hotShapeNode "hot" · primary) else []) ++
      (if optimization.includeCudaGraphs then
        policy.cudaGraphShapes.map (hotShapeNode "cuda-graph" · .cudaGraphs) else []) ++
      (if normalized.backendPolicy.runtimeJitPolicy.disposition = .shapeBounded then
        [⟨"residual-dynamic-tail", .performance, .uncoveredResidual, policy.correctnessRange,
          none, [primary]⟩] else [])) }

/-- The nodes of a plane that some region has, and that the readiness asks for. -/
def scopedShapeEnvelope (envelope : ShapeEnvelope) (compileRegions : List CompileRegion)
    (scope : BuildScope) : ShapeEnvelope where
  nodes := sort (envelope.nodes.filter fun node =>
    compileRegions.any (node.plane ∈ ·.shapePlanes) ∧
      (scope.readiness = some .correctness → node.plane = .correctness))

/-! ## Artifacts -/

def regionAcquisition (family : BackendFamily) (selected : BackendSelection) :
    ArtifactAcquisition :=
  if selected.primary.family = family then selected.primary.acquisition
  else match selected.secondary.find? (·.family = family) with
    | some candidate => candidate.acquisition
    | none => .localAotBuild

section Artifacts

variable (C : Canon) (normalized : NormalizedRequest) (witnesses : List CapabilityWitness)
  (envelope : ShapeEnvelope)

def artifactAdmissibility (backend : BackendFamily) (acquisition : ArtifactAcquisition)
    (artifactClass : ArtifactClass) (scope : String) (portability : ArtifactPortability)
    (rationale : List String) : ArtifactAdmissibilityProof :=
  let abiIdentity := C.canonicalHash normalized.abiFingerprint
  let shapeEnvelopeIdentity := C.canonicalHash envelope
  let requiredWitnesses :=
    if backend = .flashInfer ∧ acquisition = .vendorPrebuilt then ["flashinfer.prebuilt"] else []
  let satisfiedWitnesses := requiredWitnesses.filter fun key => witnesses.any (·.key = key)
  let failClosed : Bool := requiredWitnesses.length = satisfiedWitnesses.length
  { proofIdentity := C.canonicalHash (Value.array
      [toValue backend, toValue acquisition, toValue artifactClass, toValue scope,
        toValue portability, toValue abiIdentity, toValue shapeEnvelopeIdentity,
        toValue normalized.topology, toValue requiredWitnesses, toValue satisfiedWitnesses,
        toValue failClosed, toValue rationale])
    artifactScope := scope
    artifactClass
    backend
    acquisition
    portability
    targetAbiIdentity := abiIdentity
    targetShapeEnvelopeIdentity := shapeEnvelopeIdentity
    targetTopology := normalized.topology
    requiredWitnesses
    satisfiedWitnesses
    failClosed
    rationale }

/-- A requirement with its admissibility proof. -/
def artifactRequirement (artifactClass : ArtifactClass) (backend : BackendFamily)
    (acquisition : ArtifactAcquisition) (scope : String) (portability : ArtifactPortability)
    (rankDisposition : RankDisposition) (bytes compileMs transferMs : Nat)
    (rationale : List String) : ArtifactRequirement where
  artifactClass := artifactClass
  backend := backend
  acquisition := acquisition
  scope := scope
  portability := portability
  rankDisposition := rankDisposition
  expectedBytes := some bytes
  expectedCompileMs := some compileMs
  expectedTransferMs := some transferMs
  admissibility := artifactAdmissibility C normalized witnesses envelope backend acquisition
    artifactClass scope portability rationale

variable (selected : BackendSelection)

/-- The transfer time, if there is anyone to transfer to. -/
def transferMs (topology : ExecutionTopology) (ms : Nat) : Nat :=
  if 1 < totalRankCount topology then ms else 0

/-- The requirement of a region: same scope, backend and bounds for each class. -/
def regionRequirement (region : CompileRegion) (artifactClass : ArtifactClass)
    (bytes compileMs transfer : Nat) (rationale : List String) : ArtifactRequirement :=
  artifactRequirement C normalized witnesses envelope artifactClass region.family
    (regionAcquisition region.family selected) region.name region.portability
    region.rankDisposition bytes compileMs (transferMs normalized.topology transfer) rationale

def regionRequirements (region : CompileRegion) : List ArtifactRequirement :=
  [regionRequirement C normalized witnesses envelope selected region .compiledGraph
      24000000 2500 220
      ["compiled graph ownership follows vLLM cache namespace " ++ region.cacheNamespace,
        "region " ++ region.name ++ " is bounded by the selected shape envelope"],
    regionRequirement C normalized witnesses envelope selected region .tritonBinary
      4000000 800 90
      ["cache namespace " ++ region.cacheNamespace ++ " shapes binary reuse and ownership",
        "compile region " ++ region.name ++ " is source-anchored in the adapter survey"]]

/-- The capture of the decode graphs. -/
def captureRequirement : ArtifactRequirement :=
  artifactRequirement C normalized witnesses envelope .cudaGraphCapture .cudaGraphs
    .localAotBuild "decode_attention" .topologyScoped .rankLocal 2000000 300 25
    ["CUDA graph captures are only legal on the planned topology",
      "capture reuse is bounded to the exact graph envelope"]

def artifactRequirements (compileRegions : List CompileRegion)
    (optimization : OptimizationEnvelope) (scope : BuildScope) : List ArtifactRequirement :=
  sort
    ((compileRegions.filter fun region => scope.allowsArtifactScope region.name).flatMap
      (regionRequirements C normalized witnesses envelope selected) ++
    (if optimization.includeCudaGraphs ∧ compileRegions.any (·.name = "decode_attention") ∧
        scope.allowsArtifactScope "decode_attention" then
      [captureRequirement C normalized witnesses envelope] else []))

/-- Every requirement is one of a region, or the capture. -/
theorem mem_artifactRequirements {compileRegions : List CompileRegion}
    {optimization : OptimizationEnvelope} {scope : BuildScope} {q : ArtifactRequirement} :
    q ∈ artifactRequirements C normalized witnesses envelope selected compileRegions optimization
        scope ↔
      (∃ region ∈ compileRegions, scope.allowsArtifactScope region.name ∧
        q ∈ regionRequirements C normalized witnesses envelope selected region) ∨
      ((optimization.includeCudaGraphs ∧ compileRegions.any (·.name = "decode_attention") ∧
        scope.allowsArtifactScope "decode_attention") ∧
        q = captureRequirement C normalized witnesses envelope) := by
  rw [artifactRequirements, (sort_perm _).mem_iff, List.mem_append]
  refine or_congr ?_ ?_
  · simp only [List.mem_flatMap, List.mem_filter, and_assoc]
  · split
    case isTrue h => simp only [h, List.mem_singleton, true_and]
    case isFalse h => simp only [h, List.not_mem_nil, false_and]

end Artifacts

/-! ## Warmup -/

def coverageStatesForPlane : CoveragePlane → List CoverageState
  | .correctness => [.compiled, .executed]
  | .performance => [.compiled, .executed, .verifiedNoNewCompile]
  | .cudaGraph => [.compiled, .captured]
  | .backendSpecialization => [.compiled, .autotuned]

def warmupProof (node : ShapeEnvelopeNode) (region : CompileRegion) (allRanks : List Nat) :
    WarmupCoverageProof where
  proofId := "warmup:" ++ node.name ++ ":" ++ region.name
  nodeName := node.name
  regionName := region.name
  plane := node.plane
  requiredArtifacts := [region.name]
  rankScope := allRanks
  blocking := node.plane = .correctness
  expectedStates := (coverageStatesForPlane node.plane).map (·.debug)
  contradictionTriggers :=
    [⟨"shape_escape", node.name,
        "expand the warmup envelope or downgrade the serve guarantee"⟩,
      ⟨"artifact_identity_change", region.name,
        "re-materialize the artifact and re-run warmup"⟩]
  servePhase := if node.plane = .correctness then .preServeBlocking else .deferredPerformance

/-- The steps of a node's intent, within the level's budget. -/
def warmupSteps (optimization : OptimizationEnvelope) : RangeIntent → Nat
  | .exactHotShape => min 1 optimization.maxWarmupSteps
  | .symbolicRange => min optimization.maxWarmupSteps 3
  | .fallbackRange => min optimization.maxWarmupSteps 2
  | .uncoveredResidual => 0

/-- The level warms the plane up, and the region has it. -/
def needsWarmup (optimization : OptimizationEnvelope) (node : ShapeEnvelopeNode)
    (region : CompileRegion) : Bool :=
  (node.plane = .performance → optimization.includePerformanceWarmup) ∧
    (node.plane = .cudaGraph → optimization.includeCudaGraphs) ∧
    (node.plane ∈ region.shapePlanes ∨ node.plane = .correctness)

def warmupObligation (normalized : NormalizedRequest) (optimization : OptimizationEnvelope)
    (node : ShapeEnvelopeNode) (region : CompileRegion) : WarmupObligation where
  nodeName := node.name
  regionName := region.name
  stepCount := warmupSteps optimization node.intent
  plane := node.plane
  blocking := node.plane = .correctness
  requiredArtifacts := [region.name]
  rankScope := totalRanks normalized.topology
  requiresCapture := node.plane = .cudaGraph ∧ optimization.includeCudaGraphs
  requiresAutotune := region.family = .flashInfer ∧ optimization.enableAutotune
  proof := warmupProof node region (totalRanks normalized.topology)

/-- The obligations that a readiness keeps. -/
def BuildReadiness.keeps (obligation : WarmupObligation) : BuildReadiness → Bool
  | .earlyServe => false
  | .correctness => obligation.blocking
  | .performance => true

def warmupObligations (normalized : NormalizedRequest) (envelope : ShapeEnvelope)
    (compileRegions : List CompileRegion) (optimization : OptimizationEnvelope)
    (scope : BuildScope) : List WarmupObligation :=
  let obligations := (envelope.nodes.filter (·.intent ≠ .uncoveredResidual)).flatMap fun node =>
    (compileRegions.filter (needsWarmup optimization node)).map
      (warmupObligation normalized optimization node)
  sort (match scope.readiness with
    | some readiness => obligations.filter readiness.keeps
    | none => obligations)

/-! ## Runtime JIT -/

/-- The family is the primary backend or a secondary one. -/
def hasFamily (selected : BackendSelection) (family : BackendFamily) : Bool :=
  selected.candidates.any (·.family = family)

def surfaceApplies (backendFamily : String) (selected : BackendSelection) : Bool :=
  match backendFamily with
  | "flashinfer" => selected.primary.family = .flashInfer
  | "triton" => hasFamily selected .triton
  | "inductor" => hasFamily selected .aotInductor
  | "torch.compile" => true
  | _ => false

def topologyContextRequiresDistributedRanks (topologyContext : String) : Bool :=
  let normalized := asciiLowercase topologyContext
  contains "distributed" normalized &&
    !(contains "single-rank" normalized || contains "single rank" normalized ||
      contains "single node" normalized || contains "single-node" normalized)

/-- The surface needs distributed ranks and the planned topology has one. -/
def topologyContradiction (normalized : NormalizedRequest)
    (surface : ResidualRuntimeJitSurface) : Bool :=
  surface.topologySensitive && normalized.topology.tensorParallelism = 1 &&
    topologyContextRequiresDistributedRanks surface.topologyContext

def surfaceIsTopologyApplicable (normalized : NormalizedRequest)
    (surface : ResidualRuntimeJitSurface) : Bool :=
  !topologyContradiction normalized surface

def contradictionReasons (normalized : NormalizedRequest)
    (surface : ResidualRuntimeJitSurface) : List String :=
  if topologyContradiction normalized surface then
    ["surface claims distributed-only topology sensitivity but planned topology is single-rank"]
  else []

/-- The surfaces that apply to the backends and the topology. -/
def applicableSurfaces (normalized : NormalizedRequest) (selected : BackendSelection)
    (survey : AdapterSurvey) : List ResidualRuntimeJitSurface :=
  survey.residualJitSurfaces.filter fun surface =>
    surfaceApplies surface.backendFamily selected ∧ surfaceIsTopologyApplicable normalized surface

def residualRisks (normalized : NormalizedRequest) (envelope : ShapeEnvelope)
    (selected : BackendSelection) (survey : AdapterSurvey)
    (compileRegions : List CompileRegion) (scope : BuildScope) : List ResidualRuntimeRisk :=
  (((applicableSurfaces normalized selected survey).filter fun surface =>
      scope.isUnscoped ||
        surface.affectedRegions.any fun name => compileRegions.any (·.name = name)).map
    fun surface =>
      ⟨.residualLazyCompile, surface.name ++ ": " ++ surface.warmupGap,
        some surface.mitigation⟩) ++
  (if envelope.nodes.any (·.intent = .uncoveredResidual) then
    [⟨.residualLazyCompile, selected.primary.family.asStr ++
        " retains a bounded dynamic tail outside the compiled hot-shape set",
      some "residual-dynamic-tail"⟩] else []) ++
  (if normalized.cachePolicy.allowCrossMachineReuse then
    [⟨.staleCache, "cross-machine cache reuse must be bounded by ABI-cluster identity", none⟩]
    else [])

section Evidence

variable (C : Canon) (normalized : NormalizedRequest) (selected : BackendSelection)
  (compileRegions : List CompileRegion) (obligations : List WarmupObligation)
  (requirements : List ArtifactRequirement)

def boundedBy (surface : ResidualRuntimeJitSurface) : List String :=
  let family := surface.backendFamily
  let primary := selected.primary.family.asStr
  dedup (sort
    (((compileRegions.filter fun region =>
        region.family.asStr = family ∧ region.name ∈ surface.affectedRegions).map
      ("region:" ++ ·.name)) ++
    ((obligations.filter (·.regionName ∈ surface.requiredWarmupScopes)).map (·.proof.proofId)) ++
    ((requirements.filter fun requirement =>
        requirement.backend.asStr = family ∧ requirement.scope ∈ surface.requiredArtifacts).map
      (artifactNodeHandle C)) ++
    surface.triggerInputs.map ("trigger:" ++ ·) ++
    (if primary = family then ["selected_backend:primary:" ++ primary] else []) ++
    ((selected.secondary.filter (·.family.asStr = family)).map
      ("selected_backend:secondary:" ++ ·.family.asStr)) ++
    (if family = "torch.compile" then
      ["packaging:" ++ normalized.backendPolicy.packagingStrategy.debug,
        "runtime_jit_policy:" ++ normalized.backendPolicy.runtimeJitPolicy.disposition.debug,
        "primary_backend:" ++ primary] else [])))

def warmupProofIdsForScope (scope : String) : List String :=
  (obligations.filter (·.regionName = scope)).map (·.proof.proofId)

def surfaceEvidence (surface : ResidualRuntimeJitSurface) : RuntimeJitEvidence where
  surfaceName := surface.name
  backendFamily := surface.backendFamily
  triggerShapeOrConfig := surface.triggerShapeOrConfig
  triggerInputs := surface.triggerInputs
  affectedRegions := surface.affectedRegions.filter fun name =>
    compileRegions.any (·.name = name)
  requiredArtifacts := surface.requiredArtifacts.filter fun scope =>
    requirements.any (·.scope = scope)
  declaredRequiredWarmupScopes := surface.requiredWarmupScopes.filter fun scope =>
    compileRegions.any (·.name = scope)
  requiredWarmupProofs :=
    surface.requiredWarmupScopes.flatMap (warmupProofIdsForScope obligations)
  topologyContext := surface.topologyContext
  boundedBy := boundedBy C normalized selected compileRegions obligations requirements surface
  mitigation := surface.mitigation
  contradictionReasons := contradictionReasons normalized surface

def runtimeJitEvidence (survey : AdapterSurvey) : List RuntimeJitEvidence :=
  ((applicableSurfaces normalized selected survey).filter fun surface =>
      compileRegions.any (·.name ∈ surface.affectedRegions) ||
        surface.backendFamily = "torch.compile").map
    (surfaceEvidence C normalized selected compileRegions obligations requirements)

end Evidence

/-! ## The materialization graph -/

def artifactFanoutStrategy (requirement : ArtifactRequirement) : FanoutStrategy :=
  match requirement.rankDisposition with
  | .shared => .broadcastFromLeader
  | .rankLocal => .rebuildPerRank

def nodeDiscipline : RankDisposition → QueueKind → QueueDiscipline
  | .shared, .artifactIo => .leaderThenBroadcast
  | .shared, _ => .serial
  | .rankLocal, _ => .parallelPerRank

/-- An acquisition that fetches instead of building. -/
def isTransfer : ArtifactAcquisition → Bool
  | .vendorPrebuilt | .upstreamCacheBundle => true
  | .localAotBuild | .localSourceBuild => false

def artifactPlane (requirement : ArtifactRequirement) : CoveragePlane :=
  if requirement.artifactClass = .cudaGraphCapture then .cudaGraph else .performance

section Graph

variable (C : Canon) (topology : ExecutionTopology)

def artifactNode (requirement : ArtifactRequirement) : MaterializationNode :=
  let transfer := isTransfer requirement.acquisition
  let queue := if transfer then .artifactIo else .compile
  let name := artifactNodeHandle C requirement
  { name
    wave := if requirement.artifactClass = .cudaGraphCapture then 2 else 1
    kind := if transfer then .materialize else .compile
    queue
    plane := artifactPlane requirement
    dependencyNodes := []
    consumes := []
    produces := [name]
    rankScope := [0]
    invalidationDomain := requirement.scope
    replayBoundary := name
    expectedCompileMs := requirement.expectedCompileMs
    expectedBytesWritten := requirement.expectedBytes
    expectedTransferMs := requirement.expectedTransferMs
    residualJitRiskRemoved := 1
    executionContract :=
      { queue
        discipline := nodeDiscipline requirement.rankDisposition queue
        servePhase := .earlyServeReady
        fanoutStrategy := artifactFanoutStrategy requirement
        dependencyBarrier := [] } }

def fanoutNode (requirement : ArtifactRequirement) : MaterializationNode :=
  let source := artifactNodeHandle C requirement
  let name := fanoutNodeHandle C requirement
  { name
    wave := 2
    kind := .transfer
    queue := .artifactIo
    plane := artifactPlane requirement
    dependencyNodes := [source]
    consumes := [source]
    produces := [name]
    rankScope := totalRanks topology
    invalidationDomain := requirement.scope
    replayBoundary := name
    expectedCompileMs := some 0
    expectedBytesWritten := requirement.expectedBytes
    expectedTransferMs := requirement.expectedTransferMs
    residualJitRiskRemoved := 1
    executionContract :=
      { queue := .artifactIo
        discipline := .leaderThenBroadcast
        servePhase := .earlyServeReady
        fanoutStrategy := .broadcastFromLeader
        dependencyBarrier := [source] } }

/-- A shared artifact of several ranks is fanned out. -/
def needsFanout (requirement : ArtifactRequirement) : Bool :=
  requirement.rankDisposition = .shared ∧ 1 < totalRankCount topology

def requirementNodes (requirement : ArtifactRequirement) : List MaterializationNode :=
  artifactNode C requirement ::
    (if needsFanout topology requirement then [fanoutNode C topology requirement] else [])

def warmupDependencyNodes (requirements : List ArtifactRequirement)
    (requiredArtifacts : List String) : List String :=
  requiredArtifacts.flatMap fun artifact =>
    (requirements.filter (·.scope = artifact)).map fun requirement =>
      if needsFanout topology requirement then fanoutNodeHandle C requirement
      else artifactNodeHandle C requirement

def warmupNode (requirements : List ArtifactRequirement) (obligation : WarmupObligation) :
    MaterializationNode :=
  let dependencies := warmupDependencyNodes C topology requirements obligation.requiredArtifacts
  { name := obligation.handle
    wave := if obligation.blocking then 3 else 4
    kind := .warmup
    queue := .warmup
    plane := obligation.plane
    dependencyNodes := dependencies
    consumes := dependencies
    produces := ["coverage:" ++ obligation.nodeName ++ ":" ++ obligation.regionName]
    rankScope := obligation.rankScope
    invalidationDomain := obligation.nodeName
    replayBoundary := "warmup:" ++ obligation.nodeName
    expectedCompileMs := some 0
    expectedBytesWritten := some 0
    expectedTransferMs := some 0
    residualJitRiskRemoved := 1
    executionContract :=
      { queue := .warmup
        discipline := .parallelPerRank
        servePhase := if obligation.blocking then .preServeBlocking else .deferredPerformance
        fanoutStrategy := .none
        dependencyBarrier := dependencies } }

def graphNodes (requirements : List ArtifactRequirement) (obligations : List WarmupObligation) :
    List MaterializationNode :=
  requirements.flatMap (requirementNodes C topology) ++
    obligations.map (warmupNode C topology requirements)

end Graph

def waveDiscipline (members : List MaterializationNode) : QueueDiscipline :=
  if members.any (·.executionContract.discipline = .leaderThenBroadcast) then .leaderThenBroadcast
  else if members.all (·.executionContract.discipline = .parallelPerRank) then .parallelPerRank
  else .serial

def waveServePhase (members : List MaterializationNode) : ServePhase :=
  if members.any (·.executionContract.servePhase = .preServeBlocking) then .preServeBlocking
  else if members.any (·.executionContract.servePhase = .earlyServeReady) then .earlyServeReady
  else .deferredPerformance

def waveName (wave : Nat) (queue : QueueKind) : String :=
  "wave-" ++ toString wave ++ "-" ++ queue.debug

def buildWave (wave : Nat) (queue : QueueKind) (members : List MaterializationNode) :
    MaterializationWave where
  name := waveName wave queue
  queue := queue
  nodeNames := members.map (·.name)
  estimate :=
    { expectedCompileMs := some (members.filterMap (·.expectedCompileMs)).sum
      expectedBytesWritten := some (members.filterMap (·.expectedBytesWritten)).sum
      expectedTransferMs := some (members.filterMap (·.expectedTransferMs)).sum
      fanoutCount := match (members.flatMap (·.rankScope)).max? with
        | some rank => min (rank + 1) 65535
        | none => 0
      residualJitRiskRemoved := (members.map (·.residualJitRiskRemoved)).sum }
  hazardRepairs := []
  executionContract :=
    { waveName := waveName wave queue
      queue
      discipline := waveDiscipline members
      servePhase := waveServePhase members
      fulfills := members.map (·.replayBoundary) }

/-- The wave number and the queue of a node, by which the waves are built. -/
def waveKey (node : MaterializationNode) : Nat × QueueKind :=
  (node.wave, node.queue)

/-- One wave for each wave number and queue, in their order. -/
def buildWaves (nodes : List MaterializationNode) : List MaterializationWave :=
  (dedup (sortBy (compareLex (compareOn Prod.fst) (compareOn Prod.snd))
    (nodes.map waveKey))).map fun key =>
      buildWave key.1 key.2 (nodes.filter (waveKey · = key))

def runtimeRoi (requirement : ArtifactRequirement) : RuntimeRoi :=
  let compileMs := requirement.expectedCompileMs.getD 0
  let transferMs := requirement.expectedTransferMs.getD 0
  let rebuildMs := compileMs * 2
  { artifactScope := requirement.scope
    compileMs
    transferMs
    rebuildMs
    preferredStrategy :=
      if requirement.rankDisposition = .shared ∧ transferMs < rebuildMs then .broadcastFromLeader
      else .rebuildPerRank }

def materializationGraph (C : Canon) (topology : ExecutionTopology)
    (requirements : List ArtifactRequirement) (obligations : List WarmupObligation) :
    MaterializationGraph :=
  let nodes := graphNodes C topology requirements obligations
  { nodes
    waves := buildWaves nodes
    leaderAssignments := (requirements.filter (needsFanout topology)).map fun requirement =>
      ⟨requirement.scope, 0, (totalRanks topology).tail⟩
    earlyServeFrontier := (obligations.filter (·.blocking)).map (·.handle)
    lateBindings := [("performance", "strict-no-surprise-jit")]
    runtimeRoi := requirements.map runtimeRoi }

/-! ## Guarantees -/

def guaranteeEnvelope (normalized : NormalizedRequest) (envelope : ShapeEnvelope)
    (risks : List ResidualRuntimeRisk) : GuaranteeEnvelope :=
  let hasResidual := envelope.nodes.any (·.intent = .uncoveredResidual)
  { requestedCorrectness := normalized.backendPolicy.correctnessTarget
    requestedPerformance := normalized.backendPolicy.performanceTarget
    achievedCorrectness := if hasResidual then .warmupBounded else .shapeBoundedAot
    achievedPerformance :=
      if !hasResidual && normalized.warmupPolicy.verifyCudaGraphCapture then .strictNoSurpriseJit
      else if !hasResidual then .shapeBoundedAot
      else .warmupBounded
    coveredDimensions := [.environment, .kernel, .shape, .runtime, .topology]
    coveredShapes := envelope.nodes.map (·.name)
    residualRisks := risks }

def coverageWitnesses (envelope : ShapeEnvelope) (manifest : List ArtifactManifestEntry)
    (risks : List ResidualRuntimeRisk) : List CoverageWitness :=
  envelope.nodes.map fun node =>
    { plane := node.plane
      nodeName := node.name
      evidence := "coverage derived from canonical warmup obligations for " ++ node.name
      coverageStates := coverageStatesForPlane node.plane
      artifactScopes := manifest.map (·.scope)
      uncoveredResiduals := risks.filterMap (·.boundedTo) }

/-! ## The rewrite trace -/

/-- A pass of the trace: no repairs and no violations, and the invariants validated are the ones
    its contract preserves. -/
def rewritePass (name : String) (phase : RewritePhase) (inputs outputs invariants : List String)
    (before after : CanonicalHash) (matchedRules : List String)
    (invalidatedAssumptions : List String) : PassTrace where
  contract := ⟨name, phase, inputs, outputs, invariants⟩
  beforeIdentity := before.asStr
  afterIdentity := after.asStr
  matchedRules := matchedRules
  repairs := []
  invalidatedAssumptions := invalidatedAssumptions
  validatedInvariants := invariants
  violations := []

def rewriteTrace (C : Canon) (normalized : NormalizedRequest) (selected : BackendSelection)
    (compileRegions : List CompileRegion) (envelope : ShapeEnvelope)
    (requirements : List ArtifactRequirement) (obligations : List WarmupObligation)
    (graph : MaterializationGraph) (guarantee : GuaranteeEnvelope) (survey : AdapterSurvey) :
    List PassTrace :=
  let requestId := normalized.identity
  let backendId := C.canonicalHash selected
  let regionId := C.canonicalHash compileRegions
  let shapeId := C.canonicalHash envelope
  let artifactId := C.canonicalHash requirements
  let warmupId := C.canonicalHash obligations
  let waveId := C.canonicalHash graph
  let guaranteeId := C.canonicalHash guarantee
  [rewritePass "parse-cleanup" .normalizeRequest ["raw-request"] ["normalized-request"]
      ["request-canonicalization"] requestId requestId ["raw-request-ingested"] [],
    rewritePass "layered-config-normalization" .normalizeRequest
      ["normalized-request", "layered-config"] ["normalized-config"]
      ["request-canonicalization", "config-precedence-order"] requestId requestId
      ["config-layers-sorted", "duplicate-entries-removed"] [],
    rewritePass "survey-vllm-surface" .surveyEngine
      ["normalized-request", "vendored-vllm-source"] ["adapter-survey"]
      ["source-anchored-engine-seam"] requestId requestId
      ["config-input-extraction", "compile-region-mining", "residual-jit-surface-mining"]
      ["adapter-survey:" ++ toString survey.compileRegions.length ++ "-regions-" ++
        toString survey.residualJitSurfaces.length ++ "-residuals"],
    rewritePass "backend-legality-filtering" .selectBackends
      ["adapter-survey", "capability-witnesses", "backend-policy"] ["backend-selection"]
      ["fail-closed-legality"] requestId backendId
      ["v1-linux-nvidia-constraint", "prebuilt-first-resolution"] ["illegal-backends-pruned"],
    rewritePass "compile-region-discovery" .discoverCompileRegions
      ["backend-selection", "adapter-survey"] ["compile-regions"] ["region-source-evidence"]
      backendId regionId ["regional-transformer-segmentation"] [],
    rewritePass "shape-envelope-lattice-construction" .buildShapeEnvelope
      ["compile-regions", "shape-policy"] ["shape-envelope"]
      ["correctness-range-preserved", "hot-shape-bounds-preserved"] regionId shapeId
      ["hot-shape-specialization", "range-node-deduplication"] [],
    rewritePass "warmup-coverage-elaboration" .elaborateWarmup
      ["shape-envelope", "compile-regions", "warmup-policy"] ["warmup-obligations"]
      ["non-residual-shapes-covered"] shapeId warmupId ["warmup-obligations-attached"] [],
    rewritePass "materialization-wave-planning" .planMaterialization
      ["artifact-requirements", "warmup-obligations", "topology"] ["materialization-graph"]
      ["dependency-order-preserved", "replay-boundaries-assigned"] warmupId waveId
      ["phase-local-cache-skipping"] [],
    rewritePass "guarantee-envelope-shaping" .shapeGuarantees
      ["materialization-graph", "shape-envelope", "residual-risks"] ["guarantee-envelope"]
      ["correctness-performance-split"] waveId guaranteeId ["correctness-performance-split"] [],
    rewritePass "artifact-emission-shaping" .emitArtifacts
      ["guarantee-envelope", "artifact-requirements"] ["artifact-closure"]
      ["closure-manifest-derived-from-plan"] guaranteeId artifactId
      ["closure-manifest-derived-from-plan"] []]

/-! ## Resolution -/

def BuildReadiness.asStr : BuildReadiness → String
  | .earlyServe => "early_serve"
  | .correctness => "correctness"
  | .performance => "performance"

structure PlanningOutcome where
  plan : ResolvedBuildPlan
  closure : ArtifactClosure
  verification : VerificationReport
  adapterSurvey : AdapterSurvey

/-- The plan, from the selected backends and regions on. -/
def assemblePlan (C : Canon) (normalized : NormalizedRequest) (survey : AdapterSurvey)
    (witnesses : List CapabilityWitness) (registry : BackendCapabilityRegistry)
    (selected : BackendSelection) (regions : List CompileRegion) (scope : BuildScope) :
    ResolvedBuildPlan :=
  let optimization := OptimizationEnvelope.fromLevel normalized.optimizationPolicy.level
  let envelope := scopedShapeEnvelope (shapeEnvelope normalized selected optimization) regions scope
  let requirements :=
    artifactRequirements C normalized witnesses envelope selected regions optimization scope
  let obligations := warmupObligations normalized envelope regions optimization scope
  let risks := residualRisks normalized envelope selected survey regions scope
  let graph := materializationGraph C normalized.topology requirements obligations
  let guarantee := guaranteeEnvelope normalized envelope risks
  let manifest := requirements.map (ResolvedBuildPlan.manifestEntry selected.primary.family)
  let evidence : GuaranteeEvidence :=
    { capabilityWitnesses := witnesses
      artifactManifest := manifest
      warmupObligations := obligations
      coverageWitnesses := coverageWitnesses envelope manifest risks
      runtimeJitEvidence :=
        runtimeJitEvidence C normalized selected regions obligations requirements survey }
  let decision := backendDecision normalized witnesses selected regions requirements obligations
    survey C registry
  { normalizedRequest := normalized
    requestedReadiness := scope.readiness.map BuildReadiness.asStr
    optimizationEnvelope := optimization
    backendDecision := decision
    backendRegistry := registry
    selectedBackends := selected
    compileRegions := regions
    shapeEnvelope := envelope
    artifactRequirements := requirements
    warmupObligations := obligations
    materializationGraph := graph
    guaranteeEnvelope := guarantee
    guaranteeEvidence := evidence
    rewriteTrace := rewriteTrace C normalized selected regions envelope requirements obligations
      graph guarantee survey
    structuralIdentity := structuralIdentity C
      { normalized, backendDecision := decision, backendRegistry := registry,
        capabilityWitnesses := witnesses, compileRegions := regions, shapeEnvelope := envelope,
        artifactRequirements := requirements, guaranteeEvidence := evidence,
        selectedBackends := selected, materializationGraph := graph,
        guaranteeEnvelope := guarantee } }

/-- A plan that validates, with its closure and its report. -/
def checkPlan (plan : ResolvedBuildPlan) (survey : AdapterSurvey) :
    Except PlanError PlanningOutcome :=
  if plan.validate.status = .failed then
    .error (.validation ("; ".intercalate
      (plan.validate.issues.map fun issue => issue.code ++ ": " ++ issue.message)))
  else
    .ok
      { plan
        closure := ⟨plan.planIdentity, plan.guaranteeEvidence.artifactManifest⟩
        verification := plan.validate
        adapterSurvey := survey }

def surveyOrFail (V : Vllm) : Except PlanError AdapterSurvey :=
  match V.survey with
  | .ok survey => .ok survey
  | .error e => .error (.adapter e)

/-- The selection without secondary backends, where the level compiles none. -/
def limitSecondary (optimization : OptimizationEnvelope) (selected : BackendSelection) :
    BackendSelection :=
  if optimization.compileSecondaryBackends then selected else ⟨selected.primary, []⟩

def resolveScoped (C : Canon) (V : Vllm) (host : PlannerHostSnapshot) (raw : RawRequest)
    (scope : BuildScope) : Except PlanError PlanningOutcome := do
  let normalized := raw.normalize C
  let optimization := OptimizationEnvelope.fromLevel normalized.optimizationPolicy.level
  let survey ← surveyOrFail V
  let witnesses := capabilityWitnesses host normalized survey
  let registry := backendRegistry normalized
  let selected ← selectBackends normalized witnesses registry
  let selected := limitSecondary optimization selected
  let regions := compileRegions C selected survey scope
  if regions.isEmpty then
    .error (.validation "scoped build request resolved to an empty compile-region closure")
  else do
    let selected ← expandSelectedBackends normalized witnesses registry selected regions
    checkPlan (assemblePlan C normalized survey witnesses registry selected regions scope) survey

def resolve (C : Canon) (V : Vllm) (host : PlannerHostSnapshot) (raw : RawRequest) :
    Except PlanError PlanningOutcome :=
  resolveScoped C V host raw .unscoped

/-! ## What a resolved plan is -/

theorem checkPlan_eq_ok {plan : ResolvedBuildPlan} {survey : AdapterSurvey}
    {outcome : PlanningOutcome} :
    checkPlan plan survey = .ok outcome ↔ plan.issues = [] ∧ outcome =
      ⟨plan, ⟨plan.planIdentity, plan.guaranteeEvidence.artifactManifest⟩, plan.validate,
        survey⟩ := by
  have hstatus : plan.validate.status = .failed ↔ plan.issues ≠ [] := by
    rw [ne_eq, ← plan.validate_passed_iff]
    cases plan.validate.status <;> simp
  unfold checkPlan
  split
  case isTrue h => simp [hstatus.mp h]
  case isFalse h =>
    rw [hstatus, not_not] at h
    simp [h, eq_comm]

section Resolve

variable {C : Canon} {V : Vllm} {host : PlannerHostSnapshot} {raw : RawRequest}
  {scope : BuildScope} {outcome : PlanningOutcome}

theorem surveyOrFail_eq_ok {survey : AdapterSurvey} :
    surveyOrFail V = .ok survey ↔ V.survey = .ok survey := by
  unfold surveyOrFail
  cases V.survey <;> simp

/-- The steps of a resolution that succeeds. -/
theorem resolveScoped_eq_ok :
    resolveScoped C V host raw scope = .ok outcome ↔
      ∃ survey selected expanded, V.survey = .ok survey ∧
        selectBackends (raw.normalize C) (capabilityWitnesses host (raw.normalize C) survey)
          (backendRegistry (raw.normalize C)) = .ok selected ∧
        compileRegions C (limitSecondary (.fromLevel raw.optimizationPolicy.level) selected)
          survey scope ≠ [] ∧
        expandSelectedBackends (raw.normalize C)
          (capabilityWitnesses host (raw.normalize C) survey) (backendRegistry (raw.normalize C))
          (limitSecondary (.fromLevel raw.optimizationPolicy.level) selected)
          (compileRegions C (limitSecondary (.fromLevel raw.optimizationPolicy.level) selected)
            survey scope) = .ok expanded ∧
        checkPlan (assemblePlan C (raw.normalize C) survey
          (capabilityWitnesses host (raw.normalize C) survey) (backendRegistry (raw.normalize C))
          expanded (compileRegions C
            (limitSecondary (.fromLevel raw.optimizationPolicy.level) selected) survey scope)
          scope) survey = .ok outcome := by
  have hlevel : (raw.normalize C).optimizationPolicy.level = raw.optimizationPolicy.level := rfl
  unfold resolveScoped
  simp only [bind_eq_ok, surveyOrFail_eq_ok, hlevel]
  constructor
  · rintro ⟨survey, hsurvey, selected, hselected, h⟩
    split at h
    case isTrue => cases h
    case isFalse hregions =>
      obtain ⟨expanded, hexpanded, h⟩ := bind_eq_ok.mp h
      exact ⟨survey, selected, expanded, hsurvey, hselected, by simpa using hregions, hexpanded, h⟩
  · rintro ⟨survey, selected, expanded, hsurvey, hselected, hregions, hexpanded, h⟩
    refine ⟨survey, hsurvey, selected, hselected, ?_⟩
    rw [if_neg (by simpa using hregions)]
    exact bind_eq_ok.mpr ⟨expanded, hexpanded, h⟩

end Resolve

end Sock.Engine
