/-
  The vLLM adapter's survey (engine/src/vllm_adapter.rs, engine/src/vllm.rs) over the types of
  core/src/adapter.rs, and build scopes (engine/src/scope.rs).

  * `Vllm`: the vendored engine, with the lookup of a source line.
  * `regionTable`: the five regions the adapter names, with the lines that stand for them;
    `Vllm.compileRegions` looks the lines up.
  * `residualJitSurfaces`, `cacheOwnershipSurfaces`, `diagnostics`: the other tables a plan
    reads.
  * `BuildScope`: which part of a plan a build asks for. A set of names is a list of its
    members.

  Not modelled: the tables of a survey that no plan reads (configuration inputs, compile knobs,
  preserved abstractions), and the lookup of the lines behind the tables other than the regions.
-/
import Sock.Lib.Fallible
import Sock.Core.Documents

namespace Sock.Engine

open Lib Sock.Core Fallible

/-! ## Surveys -/

inductive AdapterBackendBinding
  | primary
  | fixed (family : BackendFamily)
  deriving DecidableEq

/-- A region as the adapter describes it, without its source evidence. -/
structure RegionSeam where
  name : String
  canonicalName : String
  kind : CompileRegionKind
  backendBinding : AdapterBackendBinding
  repeated : Bool
  regionalCompileCandidate : Bool
  boundaries : List String
  rationale : String
  invalidationDomain : String
  shapePlanes : List CoveragePlane
  artifactPortability : ArtifactPortability
  rankDisposition : RankDisposition
  topologySensitive : Bool
  cacheNamespace : String
  warmupScope : String
  cacheSharing : RegionCacheSharing
  portabilityScope : String
  topologyScope : String
  closureVerificationCriteria : List String
  deriving DecidableEq

structure AdapterCompileRegion extends RegionSeam where
  evidence : SourceEvidence
  deriving DecidableEq

structure ResidualRuntimeJitSurface where
  name : String
  triggerShapeOrConfig : String
  backendFamily : String
  topologyContext : String
  warmupGap : String
  mitigation : String
  triggerInputs : List String
  affectedRegions : List String
  requiredArtifacts : List String
  requiredWarmupScopes : List String
  topologySensitive : Bool
  deriving DecidableEq

structure CacheOwnershipSurface where
  name : String
  artifactScopes : List String
  deriving DecidableEq

inductive DiagnosticSeverity
  | info | warning | risk
  deriving DecidableEq

def DiagnosticSeverity.debug : DiagnosticSeverity → String
  | .info => "Info"
  | .warning => "Warning"
  | .risk => "Risk"

structure AdapterDiagnostic where
  severity : DiagnosticSeverity
  title : String
  deriving DecidableEq

structure AdapterSurvey where
  engineRoot : String
  engineRevision : String
  compileRegions : List AdapterCompileRegion
  cacheOwnershipSurfaces : List CacheOwnershipSurface
  residualJitSurfaces : List ResidualRuntimeJitSurface
  diagnostics : List AdapterDiagnostic
  deriving DecidableEq

inductive AdapterError
  | readSource (file : String)
  | missingPattern (file pattern : String)
  deriving DecidableEq

/-! ## Tables -/

/-- A region with the file and the texts that anchor it. -/
structure AnchoredRegion extends RegionSeam where
  file : String
  anchorPatterns : List String

def transformerBlockBody : AnchoredRegion where
  name := "repeated_transformer_block_pattern"
  canonicalName := "transformer_block_body"
  kind := .repeatedTransformerBlockBody
  backendBinding := .primary
  repeated := true
  regionalCompileCandidate := true
  boundaries :=
    ["Repeated layer patterns are already explicit in KV cache grouping.",
     "Static forward-context naming can stabilize region identity."]
  rationale :=
    "Repeated layer-pattern structure is strong evidence that transformer-body regions " ++
      "can be compiled once and reused across placements."
  invalidationDomain := "repeated_transformer_block_pattern"
  shapePlanes := [.correctness, .performance]
  artifactPortability := .gpuArchitectureFamilyPortable
  rankDisposition := .shared
  topologySensitive := false
  cacheNamespace := "compile-cache"
  warmupScope := "transformer_block_body"
  cacheSharing := .contentAddressed
  portabilityScope := "gpu_architecture_family"
  topologyScope := "cross_rank_and_cross_process"
  closureVerificationCriteria :=
    ["standalone compiled graph manifest present",
     "warmup scope transformer_block_body verified",
     "compile-equivalence proven before backend compilation"]
  file := "vllm/vllm/v1/core/kv_cache_utils.py"
  anchorPatterns := ["The layers in the models are repeated with some patterns"]

def decodeAttention : AnchoredRegion where
  name := "decode_micrograph"
  canonicalName := "decode_attention"
  kind := .decodeMicrograph
  backendBinding := .fixed .cudaGraphs
  repeated := true
  regionalCompileCandidate := true
  boundaries :=
    ["Decode batch shape is bounded by cudagraph capture limits.",
     "Speculative decode deterministically expands the decode envelope."]
  rationale :=
    "Decode metadata builders preallocate against a bounded capture size, making decode " ++
      "a natural regional compile target."
  invalidationDomain := "decode_micrograph"
  shapePlanes := [.correctness, .performance, .cudaGraph]
  artifactPortability := .topologyScoped
  rankDisposition := .rankLocal
  topologySensitive := true
  cacheNamespace := "cuda-graph-cache"
  warmupScope := "decode_attention"
  cacheSharing := .namespaceLocal
  portabilityScope := "exact_runtime_topology"
  topologyScope := "rank_local"
  closureVerificationCriteria :=
    ["decode_attention warmup proof present", "cuda-graph capture artifact recorded",
     "topology-scoped capture legality verified"]
  file := "vllm/vllm/v1/attention/backends/gdn_attn.py"
  anchorPatterns := ["self.decode_cudagraph_max_bs", "self.use_full_cuda_graph"]

def prefillAttention : AnchoredRegion where
  name := "prefill_micrograph"
  canonicalName := "prefill_attention"
  kind := .prefillMicrograph
  backendBinding := .primary
  repeated := true
  regionalCompileCandidate := true
  boundaries :=
    ["Prefill metadata kernels are warmed separately from decode.",
     "Chunked prefill metadata already exists as a distinct kernel surface."]
  rationale :=
    "Sparse MLA warmup paths show that prefill has its own specialization surface and " ++
      "should remain a first-class compile region."
  invalidationDomain := "prefill_micrograph"
  shapePlanes := [.correctness, .performance]
  artifactPortability := .gpuArchitectureFamilyPortable
  rankDisposition := .shared
  topologySensitive := false
  cacheNamespace := "compile-cache"
  warmupScope := "prefill_attention"
  cacheSharing := .contentAddressed
  portabilityScope := "gpu_architecture_family"
  topologyScope := "cross_rank_and_cross_process"
  closureVerificationCriteria :=
    ["prefill_attention warmup proof present",
     "prefill metadata kernels materialized on native vLLM seam",
     "shape-envelope bounded prefill specialization verified"]
  file := "vllm/vllm/model_executor/warmup/sparse_mla_triton_warmup.py"
  anchorPatterns :=
    ["_warm_sparse_swa_prefill_metadata_kernel", "_warm_prefill_chunk_metadata_kernel"]

def kvCacheUpdate : AnchoredRegion where
  name := "attention_kv_update_boundary"
  canonicalName := "kv_cache_update"
  kind := .attentionKvBoundary
  backendBinding := .primary
  repeated := true
  regionalCompileCandidate := true
  boundaries :=
    ["Mixed prefill+decode attention warmup is explicit.",
     "KV update and attention setup are already surfaced as separate warmup obligations."]
  rationale :=
    "Mixed-batch attention warmup shows a real execution seam between attention/KV " ++
      "setup and the broader model path."
  invalidationDomain := "attention_kv_update_boundary"
  shapePlanes := [.correctness, .backendSpecialization]
  artifactPortability := .gpuArchitectureFamilyPortable
  rankDisposition := .shared
  topologySensitive := true
  cacheNamespace := "flashinfer-autotune-cache"
  warmupScope := "kv_cache_update"
  cacheSharing := .contentAddressed
  portabilityScope := "gpu_architecture_family"
  topologyScope := "shared_topology"
  closureVerificationCriteria :=
    ["kv_cache_update warmup proof present", "flashinfer autotune materialization recorded",
     "mixed prefill/decode boundary coverage verified"]
  file := "vllm/vllm/model_executor/warmup/flashinfer_sparse_mla_warmup.py"
  anchorPatterns :=
    ["Warm DSv4 sparse-MLA mixed prefill+decode attention", "run_mixed_prefill_decode_warmup"]

def moeSpecialtyPath : AnchoredRegion where
  name := "moe_specialty_path"
  canonicalName := "moe_specialty_path"
  kind := .moeSpecialtyPath
  backendBinding := .fixed .aotInductor
  repeated := true
  regionalCompileCandidate := true
  boundaries :=
    ["MoE custom ops can trigger special fallback behavior in Inductor.",
     "Deep MoE/TP graphs are already called out as compile-pathological."]
  rationale :=
    "Deep MoE and TP graphs are handled as a special compile-risk class already, which " ++
      "makes them a distinct specialty region."
  invalidationDomain := "moe_specialty_path"
  shapePlanes := [.backendSpecialization]
  artifactPortability := .topologyScoped
  rankDisposition := .shared
  topologySensitive := true
  cacheNamespace := "compile-cache"
  warmupScope := "moe_specialty_path"
  cacheSharing := .contentAddressed
  portabilityScope := "exact_runtime_topology"
  topologyScope := "shared_topology"
  closureVerificationCriteria :=
    ["moe_specialty_path warmup proof present", "fallback namespace widening audited",
     "topology-sensitive MoE closure verified without residual compile drift"]
  file := "vllm/vllm/env_override.py"
  anchorPatterns := ["deep MoE/TP graphs", "_VLLM_FALLBACK_NAMESPACE_PREFIXES"]

def regionTable : List AnchoredRegion :=
  [transformerBlockBody, decodeAttention, prefillAttention, kvCacheUpdate, moeSpecialtyPath]

def cacheOwnershipSurfaces : List CacheOwnershipSurface :=
  [⟨"compile-cache", ["transformer_block_body", "prefill_attention", "moe_specialty_path"]⟩,
   ⟨"flashinfer-autotune-cache", ["kv_cache_update"]⟩,
   ⟨"cuda-graph-cache", ["decode_attention"]⟩]

def flashinferTacticAutotune : ResidualRuntimeJitSurface where
  name := "flashinfer_tactic_autotune"
  triggerShapeOrConfig :=
    "Enabled when FlashInfer is present on Hopper or Blackwell and autotune is not disabled."
  backendFamily := "flashinfer"
  topologyContext :=
    "Leader/follower distributed startup where rank 0 benchmarks and followers consume " ++
      "broadcast tactic caches."
  warmupGap :=
    "Warmup only covers the dummy-run envelope, so untouched tactics can still appear later."
  mitigation :=
    "Persist the autotune cache as a first-class artifact and verify replay against the " ++
      "exact cache file."
  triggerInputs :=
    ["--enable-flashinfer-autotune", "VLLM_FLASHINFER_AUTOTUNE_CACHE_DIR",
     "VLLM_HAS_FLASHINFER_CUBIN"]
  affectedRegions := ["kv_cache_update", "prefill_attention"]
  requiredArtifacts := ["kv_cache_update"]
  requiredWarmupScopes := ["kv_cache_update"]
  topologySensitive := true

def tritonAttentionWarmupGap : ResidualRuntimeJitSurface where
  name := "triton_attention_warmup_gap"
  triggerShapeOrConfig :=
    "Appears when the dummy mixed batch does not match the production prefill/decode " ++
      "combination."
  backendFamily := "triton"
  topologyContext :=
    "Single-rank and distributed attention backends that rely on warmup dummy runs."
  warmupGap :=
    "Warmup is intentionally selective and some hybrid attention backends are still " ++
      "excluded by current capture-path limits."
  mitigation :=
    "Promote region-scoped warmup obligations into the canonical plan instead of " ++
      "relying on one generic dummy run."
  triggerInputs :=
    ["--cudagraph-capture-sizes", "--max-cudagraph-capture-size", "CompilationConfig"]
  affectedRegions := ["decode_attention", "prefill_attention"]
  requiredArtifacts := ["decode_attention", "prefill_attention"]
  requiredWarmupScopes := ["decode_attention", "prefill_attention"]
  topologySensitive := true

def inductorCustomOpFallback : ResidualRuntimeJitSurface where
  name := "inductor_custom_op_fallback"
  triggerShapeOrConfig :=
    "Triggered by custom ops without lowerings or decompositions in deep MoE/TP graphs."
  backendFamily := "inductor"
  topologyContext :=
    "Topology-sensitive TP and MoE graphs where fallback logging becomes " ++
      "compile-pathological."
  warmupGap :=
    "The first encounter of a custom op can still be expensive enough to require " ++
      "vLLM-side patching."
  mitigation :=
    "Track fallback namespace coverage as explicit guarantee evidence instead of " ++
      "assuming it is harmless."
  triggerInputs := ["CompilationConfig", "current_platform"]
  affectedRegions := ["moe_specialty_path"]
  requiredArtifacts := ["moe_specialty_path"]
  requiredWarmupScopes := ["moe_specialty_path"]
  topologySensitive := true

def guardDroppedDynamicShapes : ResidualRuntimeJitSurface where
  name := "guard_dropped_dynamic_shapes"
  triggerShapeOrConfig :=
    "Occurs whenever non-stock compile modes run with guard dropping enabled."
  backendFamily := "torch.compile"
  topologyContext :=
    "All topologies; impact grows when real traffic escapes the planned shape envelope."
  warmupGap :=
    "Dropped guards suppress recompilation triggers, so runtime specialization leakage " ++
      "must be detected through witnesses rather than assumed absent."
  mitigation :=
    "Treat guard policy as a guarantee-plane input and require contradiction evidence " ++
      "when evaluate-guards mode is requested."
  triggerInputs := ["CompilationConfig"]
  affectedRegions := ["transformer_block_body", "prefill_attention", "decode_attention"]
  requiredArtifacts := ["transformer_block_body", "prefill_attention", "decode_attention"]
  requiredWarmupScopes := ["transformer_block_body", "prefill_attention", "decode_attention"]
  topologySensitive := false

def residualJitSurfaces : List ResidualRuntimeJitSurface :=
  [flashinferTacticAutotune, tritonAttentionWarmupGap, inductorCustomOpFallback,
    guardDroppedDynamicShapes]

def diagnostics : List AdapterDiagnostic :=
  [⟨.risk, "Guard-dropping assumptions"⟩,
   ⟨.warning, "Unsupported full CUDA graph paths"⟩,
   ⟨.info, "Piecewise versus full CUDA graph tradeoff"⟩,
   ⟨.warning, "Missing prebuilt backend assets"⟩,
   ⟨.risk, "Residual Triton JIT risk"⟩,
   ⟨.warning, "Topology-specific startup hazard"⟩]

/-! ## The adapter -/

/-- The vendored engine: where it is, its revision, and the number of the first line of a file
    that has a text (`SourceIndex::anchor`). -/
structure Vllm where
  root : String
  revision : String
  anchor : String → String → Except AdapterError Nat

namespace Vllm

variable (V : Vllm)

def evidence (file summary : String) (anchorPatterns : List String) :
    Except AdapterError SourceEvidence := do
  let anchors ← anchorPatterns.mapM fun pattern => return ⟨file, ← V.anchor file pattern⟩
  return ⟨summary, anchors⟩

def region (r : AnchoredRegion) : Except AdapterError AdapterCompileRegion := do
  let evidence ← V.evidence r.file r.rationale r.anchorPatterns
  return { r.toRegionSeam with evidence }

def compileRegions : Except AdapterError (List AdapterCompileRegion) := regionTable.mapM V.region

def survey : Except AdapterError AdapterSurvey := do
  return {
    engineRoot := V.root
    engineRevision := V.revision
    compileRegions := ← V.compileRegions
    cacheOwnershipSurfaces
    residualJitSurfaces
    diagnostics }

end Vllm

/-- The region with its anchors at the given lines. -/
def AnchoredRegion.located (line : String → String → Nat) (r : AnchoredRegion) :
    AdapterCompileRegion :=
  { r.toRegionSeam with
    evidence := ⟨r.rationale, r.anchorPatterns.map fun pattern => ⟨r.file, line r.file pattern⟩⟩ }

/-- The survey of an engine that has every anchor. -/
def Vllm.located (V : Vllm) (line : String → String → Nat) : AdapterSurvey where
  engineRoot := V.root
  engineRevision := V.revision
  compileRegions := regionTable.map (AnchoredRegion.located line)
  cacheOwnershipSurfaces := cacheOwnershipSurfaces
  residualJitSurfaces := residualJitSurfaces
  diagnostics := diagnostics

theorem Vllm.survey_eq_located {V : Vllm} {line : String → String → Nat}
    (h : ∀ r ∈ regionTable, ∀ pattern ∈ r.anchorPatterns,
      V.anchor r.file pattern = .ok (line r.file pattern)) :
    V.survey = .ok (V.located line) := by
  have hregion : ∀ r ∈ regionTable, V.region r = .ok (r.located line) := by
    intro r hr
    have hanchors : r.anchorPatterns.mapM (fun pattern =>
        (return ⟨r.file, ← V.anchor r.file pattern⟩ : Except AdapterError SourceAnchor)) =
        .ok (r.anchorPatterns.map fun pattern => ⟨r.file, line r.file pattern⟩) :=
      mapM_eq_ok_map fun pattern hpattern => by rw [h r hr pattern hpattern]; rfl
    unfold region evidence
    rw [hanchors]
    rfl
  unfold survey compileRegions
  rw [mapM_eq_ok_map hregion]
  rfl

/-! ## Scopes -/

inductive BuildReadiness
  | earlyServe | correctness | performance
  deriving DecidableEq

inductive BuildTopologyScope
  | shared | rankLocal
  deriving DecidableEq

structure BuildScope where
  regionNames : List String
  artifactScopes : List String
  backendFamilies : List BackendFamily
  topologyScopes : List BuildTopologyScope
  cacheNamespaces : List String
  warmupScopes : List String
  readiness : Option BuildReadiness
  deriving DecidableEq

namespace BuildScope

variable (scope : BuildScope)

/-- `BuildScope::default`. -/
def unscoped : BuildScope := ⟨[], [], [], [], [], [], none⟩

def hasSubsetSelectors : Bool :=
  !scope.regionNames.isEmpty || !scope.artifactScopes.isEmpty ||
    !scope.backendFamilies.isEmpty || !scope.topologyScopes.isEmpty ||
    !scope.cacheNamespaces.isEmpty || !scope.warmupScopes.isEmpty

def isUnscoped : Bool := !scope.hasSubsetSelectors && scope.readiness.isNone

def allowsRegion (canonicalName : String) : Bool :=
  (scope.regionNames.isEmpty && scope.artifactScopes.isEmpty) ||
    canonicalName ∈ scope.regionNames || canonicalName ∈ scope.artifactScopes

def allowsArtifactScope (name : String) : Bool :=
  (scope.regionNames.isEmpty && scope.artifactScopes.isEmpty) ||
    name ∈ scope.artifactScopes || name ∈ scope.regionNames

def allowsBackendFamily (family : BackendFamily) : Bool :=
  scope.backendFamilies.isEmpty || family ∈ scope.backendFamilies

def allowsRankDisposition (rankDisposition : RankDisposition) : Bool :=
  scope.topologyScopes.isEmpty ||
    (match rankDisposition with
      | .shared => BuildTopologyScope.shared
      | .rankLocal => .rankLocal) ∈ scope.topologyScopes

def allowsCacheNamespace (cacheNamespace : String) : Bool :=
  scope.cacheNamespaces.isEmpty || cacheNamespace ∈ scope.cacheNamespaces

def allowsWarmupScope (warmupScope : String) : Bool :=
  scope.warmupScopes.isEmpty || warmupScope ∈ scope.warmupScopes

end BuildScope

end Sock.Engine
