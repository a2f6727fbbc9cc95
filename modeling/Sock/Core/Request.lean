/-
  Build requests (core/src/request.rs): what a caller asks for, and its normal form.

  * `RawRequest`, `NormalizedRequest`, with the enumerations they use (core/src/model.rs,
    core/src/backend.rs, core/src/optimization.rs).
  * `RawRequest.normalize`: sorted and deduplicated lists, sorted configuration layers, and the
    identity of the result.

  `debug` is the name the source's `Debug` prints; serde uses the same name unless it is told
  to use snake case.
-/
import Sock.Core.Canonical
import Sock.Core.KvLayout

namespace Sock.Core

open Lib

/-! ## Names -/

inductive TargetEngine
  | vllm
  deriving DecidableEq

instance : Serialize TargetEngine := ⟨fun
  | .vllm => .string "Vllm"⟩

instance : LawfulSerialize TargetEngine :=
  .of_names (by rintro ⟨⟩; rfl) (by rintro ⟨⟩ ⟨⟩; decide)

def OperatingSystem.debug : OperatingSystem → String
  | .linux => "Linux"

instance : Serialize OperatingSystem := ⟨fun os => .string os.debug⟩

instance : LawfulSerialize OperatingSystem :=
  .of_names (by rintro ⟨⟩; rfl) (by rintro ⟨⟩ ⟨⟩; decide)

def AcceleratorVendor.debug : AcceleratorVendor → String
  | .nvidia => "Nvidia"
  | .amd => "Amd"
  | .unknown => "Unknown"

instance : Serialize AcceleratorVendor := ⟨fun vendor => .string vendor.debug⟩

instance : LawfulSerialize AcceleratorVendor := .of_names

def BackendFamily.debug : BackendFamily → String
  | .flashInfer => "FlashInfer"
  | .triton => "Triton"
  | .aotInductor => "AotInductor"
  | .cudaGraphs => "CudaGraphs"

instance : Serialize BackendFamily := ⟨fun family => .string family.debug⟩

instance : LawfulSerialize BackendFamily := .of_names

inductive CoveragePlane
  | correctness | performance | cudaGraph | backendSpecialization
  deriving DecidableEq, Ord

def CoveragePlane.debug : CoveragePlane → String
  | .correctness => "Correctness"
  | .performance => "Performance"
  | .cudaGraph => "CudaGraph"
  | .backendSpecialization => "BackendSpecialization"

instance : Serialize CoveragePlane := ⟨fun plane => .string plane.debug⟩

instance : LawfulSerialize CoveragePlane := .of_names

inductive GuaranteeLevel
  | advisory | warmupBounded | shapeBoundedAot | strictNoSurpriseJit
  deriving DecidableEq

namespace GuaranteeLevel

def rank : GuaranteeLevel → Nat
  | .advisory => 0
  | .warmupBounded => 1
  | .shapeBoundedAot => 2
  | .strictNoSurpriseJit => 3

def debug : GuaranteeLevel → String
  | .advisory => "Advisory"
  | .warmupBounded => "WarmupBounded"
  | .shapeBoundedAot => "ShapeBoundedAot"
  | .strictNoSurpriseJit => "StrictNoSurpriseJit"

end GuaranteeLevel

instance : Serialize GuaranteeLevel := ⟨fun level => .string level.debug⟩

instance : LawfulSerialize GuaranteeLevel := .of_names

inductive FailureMode
  | failClosed | failOpen
  deriving DecidableEq

instance : Serialize FailureMode := ⟨fun
  | .failClosed => .string "FailClosed"
  | .failOpen => .string "FailOpen"⟩

instance : LawfulSerialize FailureMode := .of_names

inductive PackagingStrategy
  | prebuiltOnly | preferPrebuiltThenAot | preferPrebuiltThenAotThenJit
  deriving DecidableEq, Ord

def PackagingStrategy.debug : PackagingStrategy → String
  | .prebuiltOnly => "PrebuiltOnly"
  | .preferPrebuiltThenAot => "PreferPrebuiltThenAot"
  | .preferPrebuiltThenAotThenJit => "PreferPrebuiltThenAotThenJit"

instance : Serialize PackagingStrategy := ⟨fun strategy => .string strategy.debug⟩

instance : LawfulSerialize PackagingStrategy := .of_names

inductive RuntimeJitDisposition
  | forbidden | shapeBounded
  deriving DecidableEq

def RuntimeJitDisposition.debug : RuntimeJitDisposition → String
  | .forbidden => "Forbidden"
  | .shapeBounded => "ShapeBounded"

instance : Serialize RuntimeJitDisposition := ⟨fun disposition => .string disposition.debug⟩

instance : LawfulSerialize RuntimeJitDisposition := .of_names

inductive OptimizationLevel
  | o0 | o1 | o2 | o3
  deriving DecidableEq

def OptimizationLevel.asStr : OptimizationLevel → String
  | .o0 => "O0"
  | .o1 => "O1"
  | .o2 => "O2"
  | .o3 => "O3"

instance : Serialize OptimizationLevel := ⟨fun
  | .o0 => .string "o0"
  | .o1 => .string "o1"
  | .o2 => .string "o2"
  | .o3 => .string "o3"⟩

instance : LawfulSerialize OptimizationLevel := .of_names

instance : Serialize KvLayoutId := ⟨fun
  | .standardPaged => .string "standard_paged"
  | .tmhFidelityPaged => .string "tmh_fidelity_paged"⟩

instance : LawfulSerialize KvLayoutId := .of_names

instance : Serialize KvLayoutRuntimeMode := ⟨fun
  | .standard => .string "standard"
  | .accounting => .string "accounting"
  | .physical => .string "physical"⟩

instance : LawfulSerialize KvLayoutRuntimeMode := .of_names

/-! ## Requests -/

structure ConfigEntry where
  key : String
  value : String
  deriving DecidableEq, Ord

instance : Serialize ConfigEntry :=
  ⟨fun e => .object [("key", toValue e.key), ("value", toValue e.value)]⟩

instance : LawfulSerialize ConfigEntry := .of_fields fun _ => rfl

structure ConfigLayer where
  name : String
  precedence : Nat
  entries : List ConfigEntry
  deriving DecidableEq

instance : Serialize ConfigLayer := ⟨fun l => .object
  [("name", toValue l.name), ("precedence", toValue l.precedence),
    ("entries", toValue l.entries)]⟩

instance : LawfulSerialize ConfigLayer := .of_fields fun _ => rfl

structure ModelRef where
  repository : String
  revision : String
  deriving DecidableEq

instance : Serialize ModelRef := ⟨fun m => .object
  [("repository", toValue m.repository), ("revision", toValue m.revision)]⟩

instance : LawfulSerialize ModelRef := .of_fields fun _ => rfl

structure EngineSource where
  kind : String
  revision : String
  deriving DecidableEq

instance : Serialize EngineSource := ⟨fun s => .object
  [("kind", toValue s.kind), ("revision", toValue s.revision)]⟩

instance : LawfulSerialize EngineSource := .of_fields fun _ => rfl

instance : Serialize RequestedEnvironment := ⟨fun e => .object
  [("operating_system", toValue e.operatingSystem),
    ("accelerator_vendor", toValue e.acceleratorVendor), ("gpu_arches", toValue e.gpuArches),
    ("cuda_version", toValue e.cudaVersion), ("driver_version", toValue e.driverVersion),
    ("python_abi", toValue e.pythonAbi), ("libc_abi", toValue e.libcAbi)]⟩

instance : LawfulSerialize RequestedEnvironment := .of_fields fun _ => rfl

def RequestedEnvironment.canonicalize (e : RequestedEnvironment) : RequestedEnvironment :=
  { e with gpuArches := dedup (sort e.gpuArches) }

structure ExecutionTopology where
  tensorParallelism : UInt16
  pipelineParallelism : UInt16
  replicas : UInt16
  deriving DecidableEq, Ord

instance : Serialize ExecutionTopology := ⟨fun t => .object
  [("tensor_parallelism", toValue t.tensorParallelism),
    ("pipeline_parallelism", toValue t.pipelineParallelism), ("replicas", toValue t.replicas)]⟩

instance : LawfulSerialize ExecutionTopology := .of_fields fun _ => rfl

instance : Serialize KvLayoutPolicy := ⟨fun p => .object
  [("layout", toValue p.layout), ("runtime_mode", toValue p.runtimeMode),
    ("hot_budget_pct", toValue p.hotBudgetPct)]⟩

instance : LawfulSerialize KvLayoutPolicy := .of_fields fun _ => rfl

structure GuaranteeTarget where
  level : GuaranteeLevel
  failureMode : FailureMode
  deriving DecidableEq

instance : Serialize GuaranteeTarget := ⟨fun t => .object
  [("level", toValue t.level), ("failure_mode", toValue t.failureMode)]⟩

instance : LawfulSerialize GuaranteeTarget := .of_fields fun _ => rfl

structure RuntimeJitPolicy where
  disposition : RuntimeJitDisposition
  maxResidualNodeCount : Nat
  deriving DecidableEq

instance : Serialize RuntimeJitPolicy := ⟨fun p => .object
  [("disposition", toValue p.disposition),
    ("max_residual_node_count", toValue p.maxResidualNodeCount)]⟩

instance : LawfulSerialize RuntimeJitPolicy := .of_fields fun _ => rfl

structure BackendPolicy where
  preferredFamilies : List BackendFamily
  packagingStrategy : PackagingStrategy
  runtimeJitPolicy : RuntimeJitPolicy
  correctnessTarget : GuaranteeTarget
  performanceTarget : GuaranteeTarget
  deriving DecidableEq

instance : Serialize BackendPolicy := ⟨fun p => .object
  [("preferred_families", toValue p.preferredFamilies),
    ("packaging_strategy", toValue p.packagingStrategy),
    ("runtime_jit_policy", toValue p.runtimeJitPolicy),
    ("correctness_target", toValue p.correctnessTarget),
    ("performance_target", toValue p.performanceTarget)]⟩

instance : LawfulSerialize BackendPolicy := .of_fields fun _ => rfl

def BackendPolicy.canonicalize (p : BackendPolicy) : BackendPolicy :=
  { p with preferredFamilies := dedup (sort p.preferredFamilies) }

structure ShapeRange where
  minBatchSize : Nat
  maxBatchSize : Nat
  minSequenceLength : Nat
  maxSequenceLength : Nat
  deriving DecidableEq, Ord

instance : Serialize ShapeRange := ⟨fun r => .object
  [("min_batch_size", toValue r.minBatchSize), ("max_batch_size", toValue r.maxBatchSize),
    ("min_sequence_length", toValue r.minSequenceLength),
    ("max_sequence_length", toValue r.maxSequenceLength)]⟩

instance : LawfulSerialize ShapeRange := .of_fields fun _ => rfl

structure ShapePoint where
  batchSize : Nat
  sequenceLength : Nat
  plane : CoveragePlane
  deriving DecidableEq, Ord

instance : Serialize ShapePoint := ⟨fun p => .object
  [("batch_size", toValue p.batchSize), ("sequence_length", toValue p.sequenceLength),
    ("plane", toValue p.plane)]⟩

instance : LawfulSerialize ShapePoint := .of_fields fun _ => rfl

instance : NonNull ShapePoint := ⟨fun _ h => by cases h⟩

structure ShapePolicy where
  correctnessRange : ShapeRange
  performanceRange : ShapeRange
  hotShapes : List ShapePoint
  cudaGraphShapes : List ShapePoint
  deriving DecidableEq

instance : Serialize ShapePolicy := ⟨fun p => .object
  [("correctness_range", toValue p.correctnessRange),
    ("performance_range", toValue p.performanceRange), ("hot_shapes", toValue p.hotShapes),
    ("cuda_graph_shapes", toValue p.cudaGraphShapes)]⟩

instance : LawfulSerialize ShapePolicy := .of_fields fun _ => rfl

def ShapePolicy.canonicalize (p : ShapePolicy) : ShapePolicy :=
  { p with
    hotShapes := dedup (sort p.hotShapes)
    cudaGraphShapes := dedup (sort p.cudaGraphShapes) }

structure CachePolicy where
  namespaceName : String
  allowCrossMachineReuse : Bool
  deriving DecidableEq

instance : Serialize CachePolicy := ⟨fun p => .object
  [("namespace", toValue p.namespaceName),
    ("allow_cross_machine_reuse", toValue p.allowCrossMachineReuse)]⟩

instance : LawfulSerialize CachePolicy := .of_fields fun _ => rfl

structure WarmupPolicy where
  maxWarmupSteps : Nat
  verifyCudaGraphCapture : Bool
  deriving DecidableEq

instance : Serialize WarmupPolicy := ⟨fun p => .object
  [("max_warmup_steps", toValue p.maxWarmupSteps),
    ("verify_cuda_graph_capture", toValue p.verifyCudaGraphCapture)]⟩

instance : LawfulSerialize WarmupPolicy := .of_fields fun _ => rfl

structure OptimizationPolicy where
  level : OptimizationLevel
  deriving DecidableEq

instance : Serialize OptimizationPolicy := ⟨fun p => .object [("level", toValue p.level)]⟩

instance : LawfulSerialize OptimizationPolicy := .of_fields fun _ => rfl

structure RawRequest where
  engine : TargetEngine
  model : ModelRef
  engineSource : EngineSource
  environment : RequestedEnvironment
  topology : ExecutionTopology
  kvLayoutPolicy : KvLayoutPolicy
  backendPolicy : BackendPolicy
  shapePolicy : ShapePolicy
  cachePolicy : CachePolicy
  warmupPolicy : WarmupPolicy
  optimizationPolicy : OptimizationPolicy
  layeredConfig : List ConfigLayer
  deriving DecidableEq

/-- The fields of a request. -/
@[simp] def RawRequest.fields (r : RawRequest) : List (String × Value) :=
  [("engine", toValue r.engine), ("model", toValue r.model),
    ("engine_source", toValue r.engineSource), ("environment", toValue r.environment),
    ("topology", toValue r.topology), ("kv_layout_policy", toValue r.kvLayoutPolicy),
    ("backend_policy", toValue r.backendPolicy), ("shape_policy", toValue r.shapePolicy),
    ("cache_policy", toValue r.cachePolicy), ("warmup_policy", toValue r.warmupPolicy),
    ("optimization_policy", toValue r.optimizationPolicy),
    ("layered_config", toValue r.layeredConfig)]

/-- The body of a normalized request, which its identity is the hash of. -/
instance : Serialize RawRequest := ⟨fun r => .object r.fields⟩

instance : LawfulSerialize RawRequest := .of_fields fun _ => rfl

structure NormalizedRequest extends RawRequest where
  identity : CanonicalHash
  deriving DecidableEq

instance : Serialize NormalizedRequest :=
  ⟨fun r => .object (r.fields ++ [("identity", toValue r.identity)])⟩

/-! ## Normalization -/

def ConfigLayer.canonicalize (l : ConfigLayer) : ConfigLayer :=
  { l with entries := dedup (sort l.entries) }

/-- The fields of the normal form. -/
def RawRequest.canonicalize (r : RawRequest) : RawRequest :=
  { r with
    environment := r.environment.canonicalize
    kvLayoutPolicy := r.kvLayoutPolicy.canonicalize
    backendPolicy := r.backendPolicy.canonicalize
    shapePolicy := r.shapePolicy.canonicalize
    layeredConfig := (sortBy (compareLex (compareOn ConfigLayer.precedence)
      (compareOn ConfigLayer.name)) r.layeredConfig).map ConfigLayer.canonicalize }

def RawRequest.normalize (C : Canon) (r : RawRequest) : NormalizedRequest :=
  { r.canonicalize with identity := C.canonicalHash r.canonicalize }

/-- A request, for samples. -/
def sampleRequest : RawRequest where
  engine := .vllm
  model := ⟨"meta-llama/Llama-3.1-8B-Instruct", "main"⟩
  engineSource := ⟨"vendored", "deadbeef"⟩
  environment := ⟨.linux, .nvidia, ["sm90"], "12.4", "550.54", "cp311", "glibc-2.35"⟩
  topology := ⟨2, 1, 1⟩
  kvLayoutPolicy := .standard
  backendPolicy := ⟨[.flashInfer, .triton], .preferPrebuiltThenAot, ⟨.forbidden, 0⟩,
    ⟨.shapeBoundedAot, .failClosed⟩, ⟨.warmupBounded, .failClosed⟩⟩
  shapePolicy := ⟨⟨1, 8, 1, 4096⟩, ⟨1, 4, 1, 2048⟩, [⟨1, 128, .performance⟩],
    [⟨1, 128, .cudaGraph⟩]⟩
  cachePolicy := ⟨"prod", false⟩
  warmupPolicy := ⟨4, true⟩
  optimizationPolicy := ⟨.o2⟩
  layeredConfig := []

end Sock.Core
