/-
  The scheduler side of TMH: `TMHKVRuntimePolicy` (`tmh_policy.py`).

  The policy keeps one descriptor for every page of every live request and counts, for each
  (layer, block, role), how many canonical descriptors carry it. A record writes the
  descriptors that changed, a forget drops a request's descriptors; both queue one physical
  event, and `takePhysicalEvents` drains the queue.

  The hot share of a request's pages is computed in the doubles that its rounding gives. A rounding
  that is not named is exact.

  Not modelled: reading the layers out of the KV cache config, logging, and what a pressure report
  says besides page geometry and bytes. The pages of a number of tokens are an exact quotient,
  rounded up: below 2 ^ 53 tokens the source's is the same.
-/
import Sock.Lib.RefCount
import Sock.Tmh.Spec

namespace Sock.Tmh

open Lib

/-! ## Configuration -/

/-- The values of `tmh_kv_policy`. -/
inductive PolicyMode where
  | off
  | accounting
  | physical
  deriving DecidableEq, Repr

/-- `TMHLayerShape`. -/
structure LayerShape (Layer : Type) where
  layerName : Layer
  layerIndex : Nat
  numKvHeads : Nat
  headSize : Nat
  headSizeV : Nat
  rawDtypeBytes : ℚ
  deriving DecidableEq

/-- The part of `TMHKVRuntimePolicy` that no call changes. -/
structure PolicyConfig (Layer : Type) where
  policy : PolicyMode
  hotBudgetPct : ℚ
  pageTokens : Nat
  layers : List (LayerShape Layer)
  regularPageBytesByGroup : List Nat := []
  pageTokens_pos : 0 < pageTokens

namespace PolicyConfig

variable {Layer : Type} (c : PolicyConfig Layer)

/-- `enabled`. -/
def enabled : Bool := decide (c.policy ≠ .off)

/-- `physical`. -/
def physical : Bool := decide (c.policy = .physical)

/-- `late_layer_start` of `__post_init__`. -/
def lateLayerStart : Nat := c.layers.length * 2 / 3

/-- `_early_layers`. -/
def earlyLayers : List (LayerShape Layer) := c.layers.take c.lateLayerStart

/-- `_late_layers`. -/
def lateLayers : List (LayerShape Layer) := c.layers.drop c.lateLayerStart

def layerNames : List Layer := c.layers.map LayerShape.layerName

/-! ### Page geometry -/

/-- `max(1, ceil(total_tokens / page_tokens))`. -/
def totalPages (totalTokens : Int) : Int := max 1 (-(-totalTokens / (c.pageTokens : Int)))

/-- `hot_pages`. -/
def hotPages (totalPages : Int) (r : Rounding := .exact) : Int :=
  if c.hotBudgetPct ≤ 0 then 0
  else min totalPages ⌈r (r (r totalPages * c.hotBudgetPct) / 100)⌉

/-- `recent_start_page`. -/
def recentStartPage (totalPages : Int) (r : Rounding := .exact) : Int :=
  if c.hotPages totalPages r ≤ 0 then totalPages
  else max 0 (totalPages - c.hotPages totalPages r)

theorem totalPages_pos (totalTokens : Int) : 1 ≤ c.totalPages totalTokens := le_max_left _ _

end PolicyConfig

/-! ## Byte accounting -/

/-- The `precision` argument of `_bytes_for`. -/
inductive Precision where
  | raw
  | int8
  | int4
  deriving DecidableEq, Repr

/-- The `component` argument of `_bytes_for`: keys or values. -/
inductive Component where
  | k
  | v
  deriving DecidableEq, Repr

section Bytes

variable {Layer : Type}

/-- `_bytes_for`. -/
def bytesFor (layer : LayerShape Layer) (tokens : Int) (precision : Precision)
    (component : Component) : Int :=
  let bytesPerScalar : ℚ :=
    match precision with
    | .raw => layer.rawDtypeBytes
    | .int8 => 1
    | .int4 => 1 / 2
  let headSize := match component with
    | .k => layer.headSize
    | .v => layer.headSizeV
  ⌈(tokens * layer.numKvHeads * headSize : ℚ) * bytesPerScalar⌉

/-- `_token_count_for_page_span`. -/
def tokenCountForPageSpan (startPage endPage totalTokens : Int) (pageTokens : Nat) : Int :=
  if endPage ≤ startPage then 0
  else
    let start := startPage * pageTokens
    let stop := min totalTokens (endPage * pageTokens)
    max 0 (stop - start)

/-- `_bytes_for_page_span`. -/
def bytesForPageSpan (layer : LayerShape Layer) (startPage endPage totalTokens : Int)
    (pageTokens : Nat) (precision : Precision) (component : Component) : Int :=
  let tokenCount := tokenCountForPageSpan startPage endPage totalTokens pageTokens
  let fullPages := tokenCount / pageTokens
  let partialTokens := tokenCount % pageTokens
  let total := fullPages * bytesFor layer pageTokens precision component
  if partialTokens ≠ 0 then total + bytesFor layer partialTokens precision component else total

end Bytes

/-- `TMHRequestPressure`: whose it is, the page geometry and the bytes. -/
structure RequestPressure (Req : Type) where
  requestId : Req
  totalTokens : Int
  promptTokens : Int
  totalPages : Int
  hotPages : Int
  recentStartPage : Int
  regularLiveBytes : Nat
  tmhEffectiveBytes : Int
  hotBytes : Int
  warmBytes : Int
  rawEquivalentBytes : Int
  sameHotUniformInt8Bytes : Int

/-- `KVCacheBlock`, as far as the policy reads it. -/
structure KVCacheBlock where
  blockId : Int
  refCnt : Int := 0
  hasBlockHash : Bool := false
  isNull : Bool := false
  deriving DecidableEq

/-! ## The policy's state -/

section Policy

variable (Req Layer : Type)

/-- `TMHKVRuntimePolicy`. -/
structure RuntimePolicy where
  config : PolicyConfig Layer
  latestByRequest : Dict Req (RequestPressure Req) := .empty
  regularLiveBytesCache : Dict Req (List Nat × Nat) := .empty
  physicalDescriptors : Dict (Req × Layer × Int) (PhysicalPageDescriptor Req Layer) := .empty
  canonicalDescriptorRefcounts : Dict (Layer × Int × PageRole) Nat := .empty
  pendingPhysicalEvents : List (PhysicalEvent Req Layer) := []

/-- What the loop of `_record_physical_descriptors_for_pages` reads and writes. -/
structure RecordLoop where
  physicalDescriptors : Dict (Req × Layer × Int) (PhysicalPageDescriptor Req Layer)
  refcounts : Dict (Layer × Int × PageRole) Nat
  descriptors : List (PhysicalPageDescriptor Req Layer) := []
  releasedDescriptors : List (PhysicalPageDescriptor Req Layer) := []

/-- What the loop of `forget_request` reads and writes. -/
structure ForgetLoop where
  physicalDescriptors : Dict (Req × Layer × Int) (PhysicalPageDescriptor Req Layer)
  refcounts : Dict (Layer × Int × PageRole) Nat
  removedDescriptors : List (PhysicalPageDescriptor Req Layer) := []
  releasedDescriptors : List (PhysicalPageDescriptor Req Layer) := []

end Policy

variable {Req Layer : Type} [DecidableEq Req] [DecidableEq Layer]

/-! ## Reference counts -/

/-- `_track_canonical_descriptor`. -/
def trackCanonicalDescriptor (refcounts : Dict (Layer × Int × PageRole) Nat)
    (descriptor : PhysicalPageDescriptor Req Layer) : Dict (Layer × Int × PageRole) Nat :=
  match canonicalDescriptorKey descriptor with
  | none => refcounts
  | some key => refcounts.set key ((refcounts.get? key).getD 0 + 1)

/-- `_untrack_canonical_descriptor`: whether the descriptor was the last with its key. -/
def untrackCanonicalDescriptor (refcounts : Dict (Layer × Int × PageRole) Nat)
    (descriptor : PhysicalPageDescriptor Req Layer) :
    Bool × Dict (Layer × Int × PageRole) Nat :=
  match canonicalDescriptorKey descriptor with
  | none => (false, refcounts)
  | some key =>
      let count := (refcounts.get? key).getD 0
      if count ≤ 1 then (true, refcounts.erase key) else (false, refcounts.set key (count - 1))

/-! ## Recording -/

/-- `_physical_role_for_page`. -/
def physicalRoleForPage (layer : LayerShape Layer) (earlyLayers : List (LayerShape Layer))
    (pageIndex recentStartPage : Int) : PageRole :=
  if pageIndex = 0 then .pinnedRaw
  else if pageIndex ≥ recentStartPage then .hotRaw
  else if layer ∈ earlyLayers then .warmInt8Int4
  else .warmInt8Int8

omit [DecidableEq Req] in
theorem physicalRoleForPage_raw (layer : LayerShape Layer) (earlyLayers : List (LayerShape Layer))
    (pageIndex recentStartPage : Int) :
    (physicalRoleForPage layer earlyLayers pageIndex recentStartPage).raw =
      decide (pageIndex = 0 ∨ pageIndex ≥ recentStartPage) := by
  unfold physicalRoleForPage
  split
  · next h => simp [h]
  · next h0 =>
      split
      · next h => simp [h]
      · next h =>
          rw [decide_eq_false (not_or.mpr ⟨h0, h⟩)]
          split <;> rfl

/-- The descriptor of a page in one layer. -/
def pageDescriptor (c : PolicyConfig Layer) (requestId : Req) (recentStartPage pageIndex : Int)
    (logicalBlockId : Int) (prefixCached : Bool) (layer : LayerShape Layer) :
    PhysicalPageDescriptor Req Layer :=
  let role := physicalRoleForPage layer c.earlyLayers pageIndex recentStartPage
  { requestId
    layerName := layer.layerName
    logicalBlockId
    pageIndex
    role
    storage := storageKindForRole role prefixCached
    prefixCached
    kQuantMode := (quantModesForRole role).1
    vQuantMode := (quantModesForRole role).2 }

/-- The descriptors a record walks through: pages outside, layers inside. -/
def pageDescriptors (c : PolicyConfig Layer) (requestId : Req) (totalPages recentStartPage : Int)
    (logicalPages : List (Int × Bool)) : List (PhysicalPageDescriptor Req Layer) :=
  (logicalPages.take totalPages.toNat).zipIdx.flatMap fun ((logicalBlockId, prefixCached), i) =>
    c.layers.map (pageDescriptor c requestId recentStartPage i logicalBlockId prefixCached)

/-- The loop body of `_record_physical_descriptors_for_pages`. -/
def recordDescriptor (s : RecordLoop Req Layer) (descriptor : PhysicalPageDescriptor Req Layer) :
    RecordLoop Req Layer :=
  let oldDescriptor := s.physicalDescriptors.get? descriptor.key
  if oldDescriptor = some descriptor then s
  else
    let stored := s.physicalDescriptors.set descriptor.key descriptor
    let changed := s.descriptors ++ [descriptor]
    match oldDescriptor with
    | none =>
        { s with
          physicalDescriptors := stored
          refcounts := trackCanonicalDescriptor s.refcounts descriptor
          descriptors := changed }
    | some old =>
        if canonicalDescriptorKey old ≠ canonicalDescriptorKey descriptor then
          let (last, refcounts) := untrackCanonicalDescriptor s.refcounts old
          { physicalDescriptors := stored
            refcounts := trackCanonicalDescriptor refcounts descriptor
            descriptors := changed
            releasedDescriptors :=
              if last then s.releasedDescriptors ++ [old] else s.releasedDescriptors }
        else { s with physicalDescriptors := stored, descriptors := changed }

namespace RuntimePolicy

/-- `_record_physical_descriptors_for_pages`. -/
def recordPhysicalDescriptorsForPages (s : RuntimePolicy Req Layer) (requestId : Req)
    (totalPages recentStartPage hotPages : Int) (logicalPages : List (Int × Bool)) :
    RuntimePolicy Req Layer :=
  let loop := (pageDescriptors s.config requestId totalPages recentStartPage logicalPages).foldl
    recordDescriptor ⟨s.physicalDescriptors, s.canonicalDescriptorRefcounts, [], []⟩
  { s with
    physicalDescriptors := loop.physicalDescriptors
    canonicalDescriptorRefcounts := loop.refcounts
    pendingPhysicalEvents :=
      if loop.descriptors ≠ [] ∨ loop.releasedDescriptors ≠ [] then
        s.pendingPhysicalEvents ++
          [{ requestId
             descriptors := loop.descriptors
             totalPages
             recentStartPage
             hotPages
             releasedDescriptors := loop.releasedDescriptors }]
      else s.pendingPhysicalEvents }

/-- The pages `_record_physical_descriptors` reads from the first group's blocks. -/
def logicalPagesOfBlocks (blocks : List KVCacheBlock) : List (Int × Bool) :=
  (blocks.filter fun block => !block.isNull).map fun block =>
    (block.blockId, block.hasBlockHash || decide (block.refCnt > 1))

/-- `_record_physical_descriptors`. -/
def recordPhysicalDescriptors (s : RuntimePolicy Req Layer) (requestId : Req)
    (totalPages recentStartPage hotPages : Int) (blocksByGroup : List (List KVCacheBlock)) :
    RuntimePolicy Req Layer :=
  match blocksByGroup with
  | [] => s
  | blocks :: _ =>
      s.recordPhysicalDescriptorsForPages requestId totalPages recentStartPage hotPages
        (logicalPagesOfBlocks blocks)

/-- The pages `record_physical_descriptors_from_block_ids` builds from block ids. -/
def logicalPagesOfBlockIds (totalPages : Int) (logicalBlockIds : List Int)
    (prefixCachedPageIndices : List Int) : List (Int × Bool) :=
  (logicalBlockIds.take totalPages.toNat).zipIdx.map fun (blockId, i) =>
    (blockId, decide ((i : Int) ∈ prefixCachedPageIndices))

/-- `record_physical_descriptors_from_block_ids`. -/
def recordPhysicalDescriptorsFromBlockIds (s : RuntimePolicy Req Layer) (requestId : Req)
    (totalTokens : Int) (logicalBlockIds : List Int) (prefixCachedPageIndices : List Int) :
    RuntimePolicy Req Layer :=
  if ¬ s.config.physical ∨ logicalBlockIds = [] then s
  else
    let totalTokens := max 1 totalTokens
    let totalPages := s.config.totalPages totalTokens
    s.recordPhysicalDescriptorsForPages requestId totalPages (s.config.recentStartPage totalPages)
      (s.config.hotPages totalPages)
      (logicalPagesOfBlockIds totalPages logicalBlockIds prefixCachedPageIndices)

/-- `_regular_live_bytes`: the bytes, cached under the live block counts of the groups. -/
def regularLiveBytes (s : RuntimePolicy Req Layer) (requestId : Req)
    (blocksByGroup : List (List KVCacheBlock)) : Nat × RuntimePolicy Req Layer :=
  let signature := blocksByGroup.map fun blocks => blocks.countP fun block => !block.isNull
  let total := (List.zipWith (· * ·) signature s.config.regularPageBytesByGroup).sum
  let computed := { s with
    regularLiveBytesCache := s.regularLiveBytesCache.set requestId (signature, total) }
  match s.regularLiveBytesCache.get? requestId with
  | some (cachedSignature, cachedTotal) =>
      if cachedSignature = signature then (cachedTotal, s) else (total, computed)
  | none => (total, computed)

end RuntimePolicy

/-- The pressure report of `record_allocation`. -/
def requestPressure (c : PolicyConfig Layer) (requestId : Req) (totalTokens promptTokens : Int)
    (regularLiveBytes : Nat) : RequestPressure Req :=
  let totalPages := c.totalPages totalTokens
  let hotPages := c.hotPages totalPages
  let recentStartPage := c.recentStartPage totalPages
  let span (startPage endPage : Int) (precision : Precision) (component : Component)
      (layer : LayerShape Layer) : Int :=
    bytesForPageSpan layer startPage endPage totalTokens c.pageTokens precision component
  let raw (startPage endPage : Int) (layer : LayerShape Layer) : Int :=
    span startPage endPage .raw .k layer + span startPage endPage .raw .v layer
  let warm (value : Precision) (layer : LayerShape Layer) : Int :=
    span 1 recentStartPage .int8 .k layer + span 1 recentStartPage value .v layer
  let rawEquivalentBytes := (c.layers.map (raw 0 totalPages)).sum
  let hotBytes := (c.layers.map fun layer =>
    raw 0 1 layer + raw recentStartPage totalPages layer).sum
  let warmBytes :=
    (c.earlyLayers.map (warm .int4)).sum + (c.lateLayers.map (warm .int8)).sum
  let uniformOldInt8Bytes := (c.layers.map (warm .int8)).sum
  let tmhEffectiveBytes := hotBytes + warmBytes
  let sameHotUniformInt8Bytes := hotBytes + uniformOldInt8Bytes
  { requestId
    totalTokens
    promptTokens
    totalPages
    hotPages
    recentStartPage
    regularLiveBytes
    tmhEffectiveBytes
    hotBytes
    warmBytes
    rawEquivalentBytes
    sameHotUniformInt8Bytes }

/-- The loop body of `forget_request`. -/
def forgetDescriptor (requestId : Req) (s : ForgetLoop Req Layer)
    (entry : (Req × Layer × Int) × PhysicalPageDescriptor Req Layer) : ForgetLoop Req Layer :=
  let (key, descriptor) := entry
  if key.1 ≠ requestId then s
  else
    let (last, refcounts) := untrackCanonicalDescriptor s.refcounts descriptor
    { physicalDescriptors := s.physicalDescriptors.erase key
      refcounts
      removedDescriptors := s.removedDescriptors ++ [descriptor]
      releasedDescriptors :=
        if last then s.releasedDescriptors ++ [descriptor] else s.releasedDescriptors }

namespace RuntimePolicy

/-- `record_allocation`. -/
def recordAllocation (s : RuntimePolicy Req Layer) (requestId : Req)
    (totalTokens promptTokens : Int) (blocksByGroup : List (List KVCacheBlock)) :
    Option (RequestPressure Req) × RuntimePolicy Req Layer :=
  if ¬ s.config.enabled ∨ s.config.layers = [] then (none, s)
  else
    let totalTokens := max 1 totalTokens
    let promptTokens := max 0 (min promptTokens totalTokens)
    let (liveBytes, s) := s.regularLiveBytes requestId blocksByGroup
    let pressure := requestPressure s.config requestId totalTokens promptTokens liveBytes
    let s := { s with latestByRequest := s.latestByRequest.set requestId pressure }
    let s :=
      if s.config.physical then
        s.recordPhysicalDescriptors requestId pressure.totalPages pressure.recentStartPage
          pressure.hotPages blocksByGroup
      else s
    (some pressure, s)

/-- `forget_request`. -/
def forgetRequest (s : RuntimePolicy Req Layer) (requestId : Req) : RuntimePolicy Req Layer :=
  let loop := s.physicalDescriptors.entries.foldl (forgetDescriptor requestId)
    ⟨s.physicalDescriptors, s.canonicalDescriptorRefcounts, [], []⟩
  { s with
    latestByRequest := s.latestByRequest.erase requestId
    regularLiveBytesCache := s.regularLiveBytesCache.erase requestId
    physicalDescriptors := loop.physicalDescriptors
    canonicalDescriptorRefcounts := loop.refcounts
    pendingPhysicalEvents :=
      if s.config.physical ∧ loop.removedDescriptors ≠ [] then
        s.pendingPhysicalEvents ++
          [{ requestId
             descriptors := []
             totalPages := 0
             recentStartPage := 0
             hotPages := 0
             releasedRequestIds := [requestId]
             releasedDescriptors := loop.releasedDescriptors }]
      else s.pendingPhysicalEvents }

/-- `take_physical_events`: the queued events, and the policy with an empty queue. -/
def takePhysicalEvents (s : RuntimePolicy Req Layer) :
    List (PhysicalEvent Req Layer) × RuntimePolicy Req Layer :=
  (s.pendingPhysicalEvents, { s with pendingPhysicalEvents := [] })

end RuntimePolicy

/-! ## Calls -/

/-- The calls that change what a policy tracks. -/
inductive Call (Req : Type) where
  | recordAllocation (requestId : Req) (totalTokens promptTokens : Int)
      (blocksByGroup : List (List KVCacheBlock))
  | recordBlockIds (requestId : Req) (totalTokens : Int) (logicalBlockIds : List Int)
      (prefixCachedPageIndices : List Int)
  | forgetRequest (requestId : Req)
  deriving DecidableEq

/-- One call on the policy. -/
def RuntimePolicy.call (s : RuntimePolicy Req Layer) : Call Req → RuntimePolicy Req Layer
  | .recordAllocation requestId totalTokens promptTokens blocksByGroup =>
      (s.recordAllocation requestId totalTokens promptTokens blocksByGroup).2
  | .recordBlockIds requestId totalTokens logicalBlockIds prefixCachedPageIndices =>
      s.recordPhysicalDescriptorsFromBlockIds requestId totalTokens logicalBlockIds
        prefixCachedPageIndices
  | .forgetRequest requestId => s.forgetRequest requestId

end Sock.Tmh
