/-
  The materialization executor (engine/src/executor.rs): runs a plan's waves against a cache.

  * `artifactStorageKey`: the name of an artifact in the cache. A content-addressed region is
    named by its equivalence and the target it is built for, everything else by its requirement.
  * `materializeArtifact`: reuse of the cache entry that is already there, or a new one in its
    place; siblings of the same namespace, domain and class are evicted.
  * `executeWave`: the nodes whose dependencies are complete, batch after batch.
  * `execute`: all waves, and the report.

  `World` is the cache root, the bundle root and the number of time measurements so far. The
  cache maps a namespace directory and an entry directory to the artifact.json below them. Times
  and sizes are natural numbers. A call of `expect` that fails is the error `panicked`.

  The loop of a wave has fuel: every batch completes a node, so the number of nodes is enough.

  Not modelled: failures of writing; empty directories; the interleaving of a parallel batch,
  which runs in its order here; the order in which a directory is listed.
-/
import Sock.Lib.Dict
import Sock.Core.Bundle
import Sock.Engine.Planner

namespace Sock.Engine

open Lib Sock.Core Fallible

/-! ## Documents and the world -/

structure MaterializedArtifactDocument where
  schemaVersion : SchemaVersion
  storageKey : String
  manifestIdentity : String
  scope : String
  artifactClass : ArtifactClass
  backend : BackendFamily
  regionStableIdentity : Option CanonicalHash
  regionEquivalenceIdentity : Option CanonicalHash
  cacheSharing : Option RegionCacheSharing
  cacheNamespace : String
  invalidationDomain : String
  acquisition : ArtifactAcquisition
  rankDisposition : RankDisposition
  engineRoot : String
  engineRevision : String
  sourceAnchors : List SourceAnchor
  admissibilitySummary : String
  observedCompileMs : Nat
  observedTransferMs : Nat
  observedRebuildMs : Nat
  deriving DecidableEq

instance : Serialize MaterializedArtifactDocument := ⟨fun d => .object
  [("schema_version", toValue d.schemaVersion), ("storage_key", toValue d.storageKey),
    ("manifest_identity", toValue d.manifestIdentity), ("scope", toValue d.scope),
    ("class", toValue d.artifactClass), ("backend", toValue d.backend),
    ("region_stable_identity", toValue d.regionStableIdentity),
    ("region_equivalence_identity", toValue d.regionEquivalenceIdentity),
    ("cache_sharing", toValue d.cacheSharing), ("cache_namespace", toValue d.cacheNamespace),
    ("invalidation_domain", toValue d.invalidationDomain),
    ("acquisition", toValue d.acquisition), ("rank_disposition", toValue d.rankDisposition),
    ("engine_root", toValue d.engineRoot), ("engine_revision", toValue d.engineRevision),
    ("source_anchors", toValue d.sourceAnchors),
    ("admissibility_summary", toValue d.admissibilitySummary),
    ("observed_compile_ms", toValue d.observedCompileMs),
    ("observed_transfer_ms", toValue d.observedTransferMs),
    ("observed_rebuild_ms", toValue d.observedRebuildMs)]⟩

instance : LawfulSerialize MaterializedArtifactDocument := .of_fields fun _ => rfl

inductive MaterializationError
  | io (kind : ReadErrorKind)
  | json (message : String)
  | missingDependency (node : String)
  | unknownArtifactNode (node : String)
  | panicked (message : String)
  | outOfFuel
  deriving DecidableEq

/-- A namespace directory of the cache root, and an entry directory below it. -/
abbrev CacheKey := String × String

structure World where
  cache : Dict CacheKey Bytes
  bundle : Directory
  tick : Nat

abbrev Exec := EStateM MaterializationError World

/-- What the executor runs with: the hash functions, the engine, the reader that serde_json
    derives, and the milliseconds each measurement reads. -/
structure Executor where
  canon : Canon
  vllm : Vllm
  fromStr : String → Except String MaterializedArtifactDocument
  elapsed : Nat → Nat
  cacheRoot : String

namespace Executor

variable (E : Executor)

/-- `Instant::elapsed`. -/
def measure : Exec Nat := do
  let world ← get
  set { world with tick := world.tick + 1 }
  return E.elapsed world.tick

def parse (bytes : Bytes) : Exec MaterializedArtifactDocument :=
  match bytes.toStr with
  | none => throw (.io .invalidData)
  | some text => match E.fromStr text with
    | .ok document => return document
    | .error message => throw (.json message)

end Executor

def writeBundle (path text : String) : Exec Unit :=
  modify fun world => { world with bundle := world.bundle.write path text }

def fileSize (path : String) : Exec Nat := do
  match (← get).bundle path with
  | some bytes => return bytes.size
  | none => throw (.io .notFound)

/-! ## Names of artifacts -/

section Names

variable (outcome : PlanningOutcome)

def compileRegionForScope (scope : String) : Option CompileRegion :=
  outcome.plan.compileRegions.find? (·.name = scope)

/-- The items that name an artifact of a content-addressed region. -/
def contentAddress (region : CompileRegion) (requirement : ArtifactRequirement) : List Value :=
  [toValue region.equivalenceIdentity, toValue requirement.artifactClass,
    toValue requirement.backend, toValue requirement.acquisition,
    toValue requirement.portability, toValue requirement.rankDisposition,
    toValue requirement.admissibility.targetAbiIdentity,
    toValue requirement.admissibility.targetShapeEnvelopeIdentity,
    toValue requirement.admissibility.targetTopology]

def artifactStorageKey (C : Canon) (requirement : ArtifactRequirement) : CanonicalHash :=
  match compileRegionForScope outcome requirement.scope with
  | none => C.canonicalHash requirement
  | some region =>
      if region.cacheSharing ≠ .contentAddressed then C.canonicalHash requirement
      else C.canonicalHash (Value.array (contentAddress region requirement))

def cacheNamespaceForScope (scope : String) : String :=
  match compileRegionForScope outcome scope with
  | some region => region.cacheNamespace
  | none => match outcome.adapterSurvey.cacheOwnershipSurfaces.find? (scope ∈ ·.artifactScopes) with
    | some surface => surface.name
    | none => "compile-cache"

def invalidationDomainForScope (scope : String) : String :=
  match compileRegionForScope outcome scope with
  | some region => region.invalidationDomain
  | none => scope

def sourceAnchorsForScope (scope : String) : List SourceAnchor :=
  dedup (sort ((outcome.plan.compileRegions.filter (·.name = scope)).flatMap (·.evidence.anchors)))

/-- Where the artifact of a requirement is in the cache. -/
def cacheKey (C : Canon) (requirement : ArtifactRequirement) : CacheKey :=
  (slug (cacheNamespaceForScope outcome requirement.scope),
    (artifactStorageKey outcome C requirement).asStr)

def manifestIdentity? (requirement : ArtifactRequirement) : Option String :=
  (outcome.closure.artifacts.find? fun artifact =>
    artifact.scope = requirement.scope ∧ artifact.artifactClass = requirement.artifactClass).map
    (·.identity)

end Names

/-! ## The cache -/

def sameArtifactDocumentIdentity (left right : MaterializedArtifactDocument) : Bool :=
  if left.cacheSharing = some .contentAddressed ∧ right.cacheSharing = some .contentAddressed ∧
      left.regionEquivalenceIdentity = right.regionEquivalenceIdentity then
    left.schemaVersion = right.schemaVersion ∧ left.storageKey = right.storageKey ∧
      left.artifactClass = right.artifactClass ∧ left.backend = right.backend ∧
      left.cacheNamespace = right.cacheNamespace ∧
      left.invalidationDomain = right.invalidationDomain ∧
      left.acquisition = right.acquisition ∧ left.rankDisposition = right.rankDisposition ∧
      left.engineRoot = right.engineRoot ∧ left.engineRevision = right.engineRevision
  else
    left.schemaVersion = right.schemaVersion ∧ left.storageKey = right.storageKey ∧
      left.manifestIdentity = right.manifestIdentity ∧ left.scope = right.scope ∧
      left.artifactClass = right.artifactClass ∧ left.backend = right.backend ∧
      left.acquisition = right.acquisition ∧ left.engineRoot = right.engineRoot ∧
      left.engineRevision = right.engineRevision ∧ left.sourceAnchors = right.sourceAnchors ∧
      left.admissibilitySummary = right.admissibilitySummary

/-- The document that the entry of `document` invalidates: same namespace, domain and class. -/
def invalidates (document existing : MaterializedArtifactDocument) : Bool :=
  existing.cacheNamespace = document.cacheNamespace ∧
    existing.invalidationDomain = document.invalidationDomain ∧
    existing.artifactClass = document.artifactClass

/-- What became of a document: the entry that was reused, or the one that was written. -/
structure Realization where
  disposition : MaterializationDisposition
  cacheBytesWritten : Nat
  rebuildMs : Nat
  deserializationMs : Nat
  document : MaterializedArtifactDocument

/-- The measured time as compile time, if the artifact is built here. -/
def compileMsFor (acquisition : ArtifactAcquisition) (observedMs : Nat) : Nat :=
  if isTransfer acquisition then 0 else observedMs

/-- The measured time as transfer time, if the artifact is fetched. -/
def transferMsFor (acquisition : ArtifactAcquisition) (observedMs : Nat) : Nat :=
  if isTransfer acquisition then observedMs else 0

namespace MaterializedArtifactDocument

def withTimes (document : MaterializedArtifactDocument)
    (compileMs transferMs rebuildMs : Nat) : MaterializedArtifactDocument :=
  { document with
    observedCompileMs := compileMs
    observedTransferMs := transferMs
    observedRebuildMs := rebuildMs }

/-- The document with the time it took to build or to fetch the artifact. -/
def observe (document : MaterializedArtifactDocument) (observedMs : Nat) :
    MaterializedArtifactDocument :=
  let compileMs := compileMsFor document.acquisition observedMs
  let transferMs := transferMsFor document.acquisition observedMs
  document.withTimes compileMs transferMs (compileMs + transferMs)

/-- The entry of a document in the cache. -/
def cacheKey (document : MaterializedArtifactDocument) : CacheKey :=
  (slug document.cacheNamespace, document.storageKey)

end MaterializedArtifactDocument

namespace Executor

variable (E : Executor)

/-- An entry beside the one that is kept: removed if its document is invalidated. -/
def evictEntry (document : MaterializedArtifactDocument) (entry : CacheKey × Bytes) :
    Exec Unit := do
  let existing ← E.parse entry.2
  if invalidates document existing then
    modify fun world => { world with cache := world.cache.erase entry.1 }

/-- The entries of the document's namespace directory, its own apart. -/
def siblings (document : MaterializedArtifactDocument) (cache : Dict CacheKey Bytes) :
    List (CacheKey × Bytes) :=
  cache.entries.filter fun entry =>
    entry.1.1 = slug document.cacheNamespace ∧ entry.1.2 ≠ document.storageKey

def evictInvalidatedSiblings (document : MaterializedArtifactDocument) : Exec Unit := do
  forM (siblings document (← get).cache) (E.evictEntry document)

def loadExistingDocument (key : CacheKey) : Exec (MaterializedArtifactDocument × Nat) := do
  match (← get).cache.get? key with
  | none => throw (.io .notFound)
  | some bytes =>
      let document ← E.parse bytes
      return (document, ← E.measure)

/-- The entry of the document is written. -/
def rebuild (document : MaterializedArtifactDocument) : Exec Realization := do
  let content := E.canon.canonicalJson document
  modify fun world =>
    { world with cache := world.cache.set document.cacheKey (.text content) }
  return ⟨.executed, content.utf8ByteSize, document.observedRebuildMs, 0, document⟩

/-- The document with the times of the entry that is there. -/
def reuse (document existing : MaterializedArtifactDocument) (deserializationMs : Nat) :
    Realization where
  disposition := .reused
  cacheBytesWritten := 0
  rebuildMs :=
    max existing.observedRebuildMs (existing.observedCompileMs + existing.observedTransferMs)
  deserializationMs := deserializationMs
  document := document.withTimes existing.observedCompileMs existing.observedTransferMs
    existing.observedRebuildMs

/-- The entry that is there is reused if it has the document's identity, and replaced by
    `rebuilt` if not. -/
def realize (document rebuilt : MaterializedArtifactDocument) : Exec Realization := do
  match (← get).cache.get? document.cacheKey with
  | none =>
      E.evictInvalidatedSiblings document
      E.rebuild rebuilt
  | some _ =>
      E.evictInvalidatedSiblings document
      let (existing, deserializationMs) ← E.loadExistingDocument document.cacheKey
      if sameArtifactDocumentIdentity existing document then
        return reuse document existing deserializationMs
      else
        E.evictInvalidatedSiblings document
        E.rebuild rebuilt

end Executor

/-! ## Artifacts -/

def observedPreferredStrategy (requirement : ArtifactRequirement) (rebuildMs : Nat) :
    FanoutStrategy :=
  match requirement.rankDisposition with
  | .rankLocal => .rebuildPerRank
  | .shared =>
      if requirement.expectedTransferMs.getD 0 < rebuildMs then .broadcastFromLeader
      else .rebuildPerRank

namespace Executor

variable (E : Executor) (outcome : PlanningOutcome)

/-- The document of a requirement, before any time is observed. -/
def artifactDocument (requirement : ArtifactRequirement) (manifestIdentity : String) :
    MaterializedArtifactDocument :=
  let region := compileRegionForScope outcome requirement.scope
  { schemaVersion := .current
    storageKey := (artifactStorageKey outcome E.canon requirement).asStr
    manifestIdentity
    scope := requirement.scope
    artifactClass := requirement.artifactClass
    backend := requirement.backend
    regionStableIdentity := region.map (·.stableIdentity)
    regionEquivalenceIdentity := region.map (·.equivalenceIdentity)
    cacheSharing := region.map (·.cacheSharing)
    cacheNamespace := cacheNamespaceForScope outcome requirement.scope
    invalidationDomain := invalidationDomainForScope outcome requirement.scope
    acquisition := requirement.acquisition
    rankDisposition := requirement.rankDisposition
    engineRoot := E.vllm.root
    engineRevision := E.vllm.revision
    sourceAnchors := sourceAnchorsForScope outcome requirement.scope
    admissibilitySummary := "; ".intercalate requirement.admissibility.rationale
    observedCompileMs := 0
    observedTransferMs := 0
    observedRebuildMs := 0 }

/-- The path of an artifact in the bundle. -/
def artifactPath (storageKey : String) : String := "artifacts/" ++ storageKey ++ "/artifact.json"

/-- The record of a realized document. -/
def artifactRecord (requirement : ArtifactRequirement) (document : MaterializedArtifactDocument)
    (realization : Realization) (observedMs bytesWritten : Nat) : MaterializedArtifactRecord :=
  let executed : Bool := realization.disposition = .executed
  { storageKey := document.storageKey
    manifestIdentity := document.manifestIdentity
    scope := requirement.scope
    artifactClass := requirement.artifactClass
    backend := requirement.backend
    regionStableIdentity := document.regionStableIdentity
    regionEquivalenceIdentity := document.regionEquivalenceIdentity
    cacheSharing := document.cacheSharing
    cacheNamespace := document.cacheNamespace
    invalidationDomain := document.invalidationDomain
    acquisition := requirement.acquisition
    rankDisposition := requirement.rankDisposition
    preferredFanoutStrategy := observedPreferredStrategy requirement realization.rebuildMs
    disposition := realization.disposition
    relativePath := artifactPath document.storageKey
    cacheRelativePath :=
      slug document.cacheNamespace ++ "/" ++ document.storageKey ++ "/artifact.json"
    bytesWritten
    deserializationMs := realization.deserializationMs
    rankCount := 1
    compileMs := if executed then compileMsFor requirement.acquisition observedMs else 0
    transferMs := if executed then transferMsFor requirement.acquisition observedMs else 0
    rebuildMs := realization.rebuildMs
    sourceAnchors := document.sourceAnchors }

def materializeArtifact (requirement : ArtifactRequirement) : Exec MaterializedArtifactRecord := do
  match manifestIdentity? outcome requirement with
  | none => throw (.panicked "closure artifact exists")
  | some manifestIdentity =>
      let document := E.artifactDocument outcome requirement manifestIdentity
      let observedMs := max (← E.measure) 1
      let realization ← E.realize document (document.observe observedMs)
      let path := artifactPath document.storageKey
      writeBundle path (E.canon.canonicalJson realization.document)
      let size ← fileSize path
      let bytesWritten := match realization.disposition with
        | .reused => size
        | .executed => max realization.cacheBytesWritten size
      return artifactRecord requirement document realization observedMs bytesWritten

/-! ## Nodes -/

/-- The path of a record or receipt below a directory of the bundle. -/
def receiptPath (relativeDir name : String) : String := relativeDir ++ "/" ++ slug name ++ ".json"

def writeReceipt (relativeDir name : String) (payload : Value) : Exec String := do
  writeBundle (receiptPath relativeDir name) (E.canon.canonicalJson payload)
  return receiptPath relativeDir name

def writeNodeRecord (node : MaterializationNode) (disposition : MaterializationDisposition)
    (outputs : List String) (durationMs bytesWritten : Nat) : Exec MaterializationNodeRecord := do
  let record : MaterializationNodeRecord :=
    { nodeName := node.name
      wave := node.wave
      kind := node.kind
      queue := node.queue
      disposition
      dependencyNodes := node.dependencyNodes
      outputs
      relativePath := receiptPath "materialization/nodes" node.name
      durationMs
      bytesWritten }
  writeBundle record.relativePath (E.canon.canonicalJson record)
  return record

structure NodeExecutionResult where
  record : MaterializationNodeRecord
  artifact : Option MaterializedArtifactRecord
  compileMs : Nat
  transferMs : Nat

/-- `FanoutReceipt`. -/
def fanoutReceipt (node : MaterializationNode) : Value := .object
  [("schema_version", toValue SchemaVersion.current),
    ("plan_identity", toValue outcome.plan.planIdentity), ("node_name", toValue node.name),
    ("dependency_nodes", toValue node.dependencyNodes), ("ranks", toValue node.rankScope)]

/-- `WarmupReceipt`. -/
def warmupReceipt (node : MaterializationNode) (obligation : WarmupObligation) : Value := .object
  [("schema_version", toValue SchemaVersion.current),
    ("plan_identity", toValue outcome.plan.planIdentity), ("node_name", toValue node.name),
    ("dependency_nodes", toValue node.dependencyNodes),
    ("required_artifacts", toValue obligation.requiredArtifacts),
    ("proof", toValue obligation.proof)]

def requirementIndex : Dict String ArtifactRequirement :=
  .ofEntries (outcome.plan.artifactRequirements.map fun requirement =>
    (artifactNodeHandle E.canon requirement, requirement))

def warmupIndex : Dict String WarmupObligation :=
  .ofEntries (outcome.plan.warmupObligations.map fun obligation => (obligation.handle, obligation))

def nodeIndex : Dict String MaterializationNode :=
  .ofEntries (outcome.plan.materializationGraph.nodes.map fun node => (node.name, node))

/-- A node that only writes a receipt. -/
def executeReceiptNode (node : MaterializationNode) (relativeDir : String) (payload : Value) :
    Exec (MaterializationNodeRecord × Nat) := do
  let output ← E.writeReceipt relativeDir node.name payload
  let durationMs ← E.measure
  let bytesWritten ← fileSize (receiptPath relativeDir node.name)
  let record ← E.writeNodeRecord node .executed [output] durationMs bytesWritten
  return (record, durationMs)

def executeNode (node : MaterializationNode) : Exec NodeExecutionResult := do
  match node.kind with
  | .compile | .materialize =>
      match (E.requirementIndex outcome).get? node.name with
      | none => throw (.unknownArtifactNode node.name)
      | some requirement =>
          let artifact ← E.materializeArtifact outcome requirement
          let artifact := { artifact with rankCount := UInt16.ofNat node.rankScope.length }
          let record ← E.writeNodeRecord node artifact.disposition [artifact.relativePath]
            (artifact.compileMs + artifact.transferMs) artifact.bytesWritten
          return ⟨record, some artifact, artifact.compileMs, artifact.transferMs⟩
  | .transfer =>
      let (record, durationMs) ←
        E.executeReceiptNode node "materialization/waves" (fanoutReceipt outcome node)
      return ⟨record, none, 0, durationMs⟩
  | .warmup =>
      match (warmupIndex outcome).get? node.name with
      | none => throw (.panicked "warmup node exists")
      | some obligation =>
          let (record, _) ←
            E.executeReceiptNode node "warmup" (warmupReceipt outcome node obligation)
          return ⟨record, none, 0, 0⟩
  | .assemble | .verify =>
      let record ← E.writeNodeRecord node .executed [] (← E.measure) 0
      return ⟨record, none, 0, 0⟩

/-! ## Waves -/

def schedulingMode : QueueDiscipline → MaterializationSchedulingMode
  | .parallelPerRank => .parallel
  | .serial | .leaderThenBroadcast => .sequential

def waveMaxParallelism (wave : MaterializationWave) : Nat :=
  match wave.executionContract.discipline with
  | .parallelPerRank => min wave.nodeNames.length 65535
  | .serial | .leaderThenBroadcast => 1

/-- The node behind a pending name. -/
def knownNode (index : Dict String MaterializationNode) (name : String) :
    Exec MaterializationNode :=
  match index.get? name with
  | some node => return node
  | none => throw (.panicked "known node")

/-- The batches of a wave: the pending nodes whose dependencies are complete run, until none is
    pending. -/
def executeBatches (index : Dict String MaterializationNode) (run : MaterializationNode →
    Exec NodeExecutionResult) : Nat → List String → List String → Exec (List NodeExecutionResult)
  | _, [], _ => return []
  | 0, _ :: _, _ => throw .outOfFuel
  | fuel + 1, pending@(first :: _), completed => do
      let nodes ← pending.mapM (knownNode index)
      match nodes.filter fun node => node.dependencyNodes.all (· ∈ completed) with
      | [] => throw (.missingDependency first)
      | ready =>
          let results ← ready.mapM run
          let names := results.map (·.record.nodeName)
          let rest ← executeBatches index run fuel (pending.filter (· ∉ names)) (names ++ completed)
          return results ++ rest

def executeWave (wave : MaterializationWave) (completed : List String) :
    Exec (List NodeExecutionResult) :=
  executeBatches (nodeIndex outcome) (E.executeNode outcome) wave.nodeNames.length wave.nodeNames
    completed

/-! ## The run -/

/-- What the waves so far have produced. -/
structure Progress where
  completedNodes : List String
  artifacts : Dict String MaterializedArtifactRecord
  nodeRecords : List MaterializationNodeRecord
  waveRecords : List MaterializationWaveRecord
  totalBytesWritten : Nat
  totalCompileMs : Nat
  totalTransferMs : Nat
  totalRebuildMs : Nat
  artifactDeserializationMs : Nat

def Progress.start : Progress := ⟨[], .empty, [], [], 0, 0, 0, 0, 0⟩

/-- A node's artifact joins the progress. -/
def Progress.addArtifact (progress : Progress) (artifact : MaterializedArtifactRecord) :
    Progress :=
  { progress with
    artifacts := progress.artifacts.set artifact.storageKey artifact
    totalRebuildMs := progress.totalRebuildMs + artifact.rebuildMs
    artifactDeserializationMs := progress.artifactDeserializationMs + artifact.deserializationMs }

def Progress.add (progress : Progress) (result : NodeExecutionResult) : Progress :=
  let progress := match result.artifact with
    | some artifact => progress.addArtifact artifact
    | none => progress
  { progress with
    completedNodes := result.record.nodeName :: progress.completedNodes
    nodeRecords := progress.nodeRecords ++ [result.record]
    totalBytesWritten := progress.totalBytesWritten + result.record.bytesWritten
    totalCompileMs := progress.totalCompileMs + result.compileMs
    totalTransferMs := progress.totalTransferMs + result.transferMs }

/-- The receipt of a wave. -/
def waveReceipt (wave : MaterializationWave) : Value := .object
  [("schema_version", toValue SchemaVersion.current),
    ("plan_identity", toValue outcome.plan.planIdentity), ("node_names", toValue wave.nodeNames),
    ("fulfills", toValue wave.executionContract.fulfills), ("queue", toValue wave.queue),
    ("discipline", toValue wave.executionContract.discipline),
    ("scheduling_mode", toValue (schedulingMode wave.executionContract.discipline)),
    ("max_parallelism", toValue (waveMaxParallelism wave))]

def runWave (progress : Progress) (wave : MaterializationWave) : Exec Progress := do
  let results ← E.executeWave outcome wave progress.completedNodes
  let progress := results.foldl Progress.add progress
  let relativePath ← E.writeReceipt "materialization/waves" wave.name (waveReceipt outcome wave)
  let durationMs ← E.measure
  let record : MaterializationWaveRecord :=
    { waveName := wave.name
      queue := wave.queue
      discipline := wave.executionContract.discipline
      schedulingMode := schedulingMode wave.executionContract.discipline
      maxParallelism := waveMaxParallelism wave
      nodeNames := wave.nodeNames
      relativePath
      durationMs
      bytesWritten := (results.map (·.record.bytesWritten)).sum }
  return { progress with waveRecords := progress.waveRecords ++ [record] }

end Executor

/-! ## Observations -/

section Observations

variable (scope : BuildScope) (outcome : PlanningOutcome)

def closureExpansion : ClosureExpansionRecord where
  requestedRegions := dedup (sort scope.regionNames)
  requestedArtifactScopes := dedup (sort scope.artifactScopes)
  requestedBackendFamilies := sort ((dedup (sort scope.backendFamilies)).map (·.asStr))
  requestedCacheNamespaces := dedup (sort scope.cacheNamespaces)
  requestedWarmupScopes := dedup (sort scope.warmupScopes)
  expandedRegions := sort (outcome.plan.compileRegions.map (·.name))
  expandedArtifactScopes := dedup (sort (outcome.plan.artifactRequirements.map (·.scope)))
  expandedWarmupScopes := dedup (sort (outcome.plan.warmupObligations.map (·.regionName)))
  deterministicallyClosed := true

def requestedReadiness : ObservedReadinessLevel :=
  match scope.readiness with
  | some .earlyServe => .earlyServe
  | some .correctness => .correctness
  | some .performance | none => .performance

/-- The nodes of a serve phase. -/
def phaseNodes (phase : ServePhase) : List String :=
  (outcome.plan.materializationGraph.nodes.filter
    (·.executionContract.servePhase = phase)).map (·.name)

def observedReadiness (completedNodes : List String) : ReadinessObservation :=
  let complete (phase : ServePhase) : Bool :=
    (phaseNodes outcome phase).all (· ∈ completedNodes)
  let present (phase : ServePhase) : Bool := !(phaseNodes outcome phase).isEmpty
  { requestedReadiness := requestedReadiness scope
    achievedReadiness :=
      if present .deferredPerformance && complete .deferredPerformance then .performance
      else if present .preServeBlocking && complete .preServeBlocking then .correctness
      else .earlyServe
    blockingWarmupsComplete := complete .preServeBlocking
    earlyServeFrontierComplete := complete .earlyServeReady
    deferredWarmupsComplete := complete .deferredPerformance }

/-- The warmup obligations whose node is complete. -/
def completedWarmups (completedNodes : List String) : List WarmupObligation :=
  (Executor.warmupIndex outcome).select (· ∈ completedNodes)

def observedRuntimeJit (artifacts : List MaterializedArtifactRecord)
    (completedNodes : List String) : List RuntimeJitObservation :=
  let scopes := artifacts.map (·.scope)
  let warmups := completedWarmups outcome completedNodes
  let proofs := warmups.map (·.proof.proofId)
  let warmupScopes := warmups.map (·.regionName)
  outcome.verification.runtimeJitEvidence.map fun evidence =>
    let missing (what : String) (seen names : List String) (stage : String) : List String :=
      (names.filter (· ∉ seen)).map fun name =>
        "required " ++ what ++ " " ++ name ++ " was not observed " ++ stage
    let reasons := dedup (sort (evidence.contradictionReasons ++
      missing "artifact scope" scopes evidence.requiredArtifacts "in the built closure" ++
      missing "warmup scope" warmupScopes evidence.declaredRequiredWarmupScopes
        "during materialization" ++
      missing "warmup proof" proofs evidence.requiredWarmupProofs "during materialization"))
    { surfaceName := evidence.surfaceName
      status := if reasons.isEmpty then .bounded else .contradicted
      observedArtifacts := evidence.requiredArtifacts.filter (· ∈ scopes)
      observedWarmupProofs := evidence.requiredWarmupProofs.filter (· ∈ proofs)
      contradictionReasons := reasons }

def verifyReplayCompileFree : Bool :=
  let gate (command : String) : Bool :=
    (outcome.verification.operatorGates.find? (·.command = command)).any (·.compileFree)
  gate "verify" && gate "replay"

def closureOutcome (expansion : ClosureExpansionRecord)
    (observations : List RuntimeJitObservation) (verifyReplayCompileFree : Bool) :
    StartupClosureOutcome :=
  if observations.any (·.status = .contradicted) then .partialCompileClosure
  else if expansion.deterministicallyClosed && verifyReplayCompileFree then .fullCompileClosure
  else if expansion.deterministicallyClosed then .partialCompileClosure
  else .closureByAssumption

def duplicateInstancesForArtifact (artifact : MaterializedArtifactRecord) : Nat :=
  artifact.rankCount.toNat - 1

def duplicateBytesForArtifact (artifact : MaterializedArtifactRecord) : Nat :=
  artifact.bytesWritten * (artifact.rankCount.toNat - 1)

end Observations

namespace Executor

variable (E : Executor) (outcome : PlanningOutcome) (scope : BuildScope)

def report (progress : Progress) (wallClockMs : Nat) : MaterializationExecutionReport :=
  let artifacts := sortBy (compareOn MaterializedArtifactRecord.storageKey)
    progress.artifacts.values
  let reused := artifacts.filter (·.disposition = .reused)
  let expansion := closureExpansion scope outcome
  let observations := observedRuntimeJit outcome artifacts progress.completedNodes
  let compileFree := verifyReplayCompileFree outcome
  { schemaVersion := .current
    planIdentity := outcome.plan.planIdentity
    artifactRoot := "artifacts"
    cacheRoot := E.cacheRoot
    nodeRoot := "materialization/nodes"
    waveRoot := "materialization/waves"
    artifactCount := artifacts.length
    executedArtifactCount := artifacts.countP (·.disposition = .executed)
    reusedArtifactCount := reused.length
    wallClockMs
    totalBytesWritten := progress.totalBytesWritten
    totalCompileMs := progress.totalCompileMs
    totalTransferMs := progress.totalTransferMs
    totalRebuildMs := progress.totalRebuildMs
    uniqueArtifactCount := artifacts.length
    duplicateArtifactCount := (artifacts.map duplicateInstancesForArtifact).sum
    uniqueArtifactBytes := (artifacts.map (·.bytesWritten)).sum
    duplicateArtifactBytes := (artifacts.map duplicateBytesForArtifact).sum
    artifactDeserializationMs := progress.artifactDeserializationMs
    duplicateRankLocalCompileCount := (artifacts.map duplicateInstancesForArtifact).sum
    duplicateRankLocalLoadCount := (reused.map duplicateInstancesForArtifact).sum
    closureExpansion := expansion
    closureOutcome := closureOutcome expansion observations compileFree
    readiness := observedReadiness scope outcome progress.completedNodes
    runtimeJitObservations := observations
    verifyReplayCompileFree := compileFree
    verifyReplayStatus := outcome.verification.status
    artifacts
    nodes := sortBy (compareOn MaterializationNodeRecord.nodeName) progress.nodeRecords
    waves := sortBy (compareOn MaterializationWaveRecord.waveName) progress.waveRecords }

def execute : Exec MaterializationExecutionReport := do
  let progress ← outcome.plan.materializationGraph.waves.foldlM (E.runWave outcome) .start
  let report := E.report outcome scope progress (← E.measure)
  writeBundle "materialization_report.json" (E.canon.canonicalJson report)
  return report

end Executor

end Sock.Engine
