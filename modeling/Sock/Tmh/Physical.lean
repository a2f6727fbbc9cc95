/-
  The worker side of TMH: `TMHPhysicalRuntime` and its cache tables (`tmh_physical.py`).

  The runtime owns, for each layer, a free list of raw slots and one of warm slots. A page is
  placed canonically, under (layer, block, role), or as an overlay, under (layer, request,
  page). `applyEvents` gives slots back and places the event's descriptors, and writes the row
  tables that the kernels read.

  A call that raises keeps what it changed before, so the functions live in `EStateM`. Tensors
  are functions of their indices, next to their shapes: reading or writing at a negative index
  counts from the end, any other index outside the shape raises (`tensorIndex`).

  Not modelled: the page contents, and carving the tensors out of one buffer.
-/
import Sock.Lib.Fallible
import Sock.Lib.Dict
import Sock.Tmh.Spec

namespace Sock.Tmh

open Lib

/-! ## Caches -/

/-- The place in a tensor dimension of size `n` that index `i` names. -/
def tensorIndex (i : Int) (n : Nat) : Option Nat :=
  if 0 ≤ i ∧ i < n then some i.toNat
  else if -n ≤ i ∧ i < 0 then some (i + n).toNat
  else none

theorem tensorIndex_of_nonneg {i : Int} {n : Nat} (h0 : 0 ≤ i) (hn : i < n) :
    tensorIndex i n = some i.toNat := if_pos ⟨h0, hn⟩

/-- The part of `TMHPhysicalKVCache` that no event changes: spec, number of logical blocks and
    the sizes of the two pools. -/
structure CacheLayout where
  spec : FullAttentionSpec
  numLogicalBlocks : Nat
  rawPages : Nat
  warmPages : Nat

/-- `TMHPhysicalKVCache`: the layout and the descriptor tables. The row tables have a row for
    each of `tmhMaxNumSeqs` requests and a column for each of `tmhMaxModelPages` pages. -/
structure PhysicalKVCache extends CacheLayout where
  canonicalRoleByLogicalBlock : Nat → Int
  canonicalSlotByLogicalBlock : Nat → Int
  requestSlotByRowPage : Nat → Nat → Int
  requestRoleByRowPage : Nat → Nat → Int
  nativeBlockTableBySeq : Nat → Nat → Int

/-- The tables of a new cache: no canonical page, no row entry, native table zero. -/
def PhysicalKVCache.fresh (layout : CacheLayout) : PhysicalKVCache :=
  { layout with
    canonicalRoleByLogicalBlock := fun _ => -1
    canonicalSlotByLogicalBlock := fun _ => -1
    requestSlotByRowPage := fun _ _ => -1
    requestRoleByRowPage := fun _ _ => -1
    nativeBlockTableBySeq := fun _ _ => 0 }

/-- The layout `reshape_tmh_physical_kv_cache` carves out for a spec. -/
def FullAttentionSpec.layout (spec : FullAttentionSpec) (numLogicalBlocks : Nat) : CacheLayout :=
  { spec
    numLogicalBlocks
    rawPages := (spec.physicalPoolPageCounts numLogicalBlocks).1
    warmPages := (spec.physicalPoolPageCounts numLogicalBlocks).2 }

/-- `_raw_capacity_pages_per_request`. -/
def CacheLayout.rawCapacityPagesPerRequest (cache : CacheLayout) : Nat :=
  max 1 (min cache.spec.tmhMaxModelPages (cache.rawPages / max 1 cache.spec.tmhMaxNumSeqs))

/-- `_warm_role_for_cache`. -/
def CacheLayout.warmRoleForCache (cache : CacheLayout) : PageRole :=
  if cache.spec.tmhLateLayer then .warmInt8Int8 else .warmInt8Int4

@[simp] theorem CacheLayout.warmRoleForCache_raw (cache : CacheLayout) :
    cache.warmRoleForCache.raw = false := by
  unfold warmRoleForCache
  split <;> rfl

namespace PhysicalKVCache

/-- Write a block's entry of the canonical tables. -/
def setCanonical (cache : PhysicalKVCache) (block : Nat) (role slot : Int) : PhysicalKVCache :=
  { cache with
    canonicalRoleByLogicalBlock := fun b =>
      if b = block then role else cache.canonicalRoleByLogicalBlock b
    canonicalSlotByLogicalBlock := fun b =>
      if b = block then slot else cache.canonicalSlotByLogicalBlock b }

/-- Clear a row: slots and roles to -1, native table to 0. -/
def clearRow (cache : PhysicalKVCache) (row : Nat) : PhysicalKVCache :=
  { cache with
    requestSlotByRowPage := fun r p => if r = row then -1 else cache.requestSlotByRowPage r p
    requestRoleByRowPage := fun r p => if r = row then -1 else cache.requestRoleByRowPage r p
    nativeBlockTableBySeq := fun r p => if r = row then 0 else cache.nativeBlockTableBySeq r p }

/-- Write a row entry: slot, role, and the slot again in the native table. -/
def setRow (cache : PhysicalKVCache) (row page : Nat) (slot : Nat) (role : PageRole) :
    PhysicalKVCache :=
  { cache with
    requestSlotByRowPage := fun r p =>
      if r = row ∧ p = page then slot else cache.requestSlotByRowPage r p
    requestRoleByRowPage := fun r p =>
      if r = row ∧ p = page then role.toInt else cache.requestRoleByRowPage r p
    nativeBlockTableBySeq := fun r p =>
      if r = row ∧ p = page then slot else cache.nativeBlockTableBySeq r p }

end PhysicalKVCache

/-! ## Descriptors at the worker -/

variable {Req Layer : Type}

/-- `_descriptor_with_role`. -/
def descriptorWithRole (descriptor : PhysicalPageDescriptor Req Layer) (role : PageRole) :
    PhysicalPageDescriptor Req Layer :=
  { descriptor with
    role
    storage := storageKindForRole role descriptor.prefixCached
    kQuantMode := (quantModesForRole role).1
    vQuantMode := (quantModesForRole role).2 }

/-- `_effective_descriptor`: a request that fits the raw capacity is kept raw. -/
def effectiveDescriptor (cache : CacheLayout) (descriptor : PhysicalPageDescriptor Req Layer)
    (totalPages : Int) : PhysicalPageDescriptor Req Layer :=
  if totalPages > cache.rawCapacityPagesPerRequest then descriptor
  else
    let role := if descriptor.pageIndex = 0 then PageRole.pinnedRaw else .hotRaw
    if descriptor.role = role then descriptor else descriptorWithRole descriptor role

/-! ## The runtime's state -/

/-- `TMHPhysicalRuntime`. Free lists are Python lists: slots are taken from and given back to
    the end. -/
structure PhysicalRuntime (Req Layer : Type) where
  caches : Dict Layer PhysicalKVCache := .empty
  rawFreeSlots : Dict Layer (List Nat) := .empty
  warmFreeSlots : Dict Layer (List Nat) := .empty
  canonicalSlots : Dict (Layer × Int × PageRole) Nat := .empty
  overlaySlots : Dict (Layer × Req × Int) Nat := .empty

/-- What a call on the runtime can raise. The first five are the source's own `RuntimeError`s;
    the last two are Python's, for a missing layer and a tensor index out of range. -/
inductive RuntimeError (Req Layer : Type) where
  | unregisteredLayer (layer : Layer)
  | missingRow (requestId : Req)
  | blockOutOfRange (logicalBlockId : Int) (numLogicalBlocks : Nat)
  | pageOutOfRange (pageIndex : Int) (width : Nat) (layer : Layer)
  | poolExhausted (wantsRaw : Bool) (layer : Layer)
  | keyError (layer : Layer)
  | indexError (index : Int) (size : Nat)
  deriving DecidableEq

/-- Not a pool exhausted error. -/
def RuntimeError.NotExhausted (e : RuntimeError Req Layer) : Prop :=
  ∀ raw l, e ≠ .poolExhausted raw l

/-- A call on the runtime. -/
abbrev RuntimeM (Req Layer : Type) := EStateM (RuntimeError Req Layer) (PhysicalRuntime Req Layer)

variable [DecidableEq Req] [DecidableEq Layer]

namespace PhysicalRuntime

/-- `register_cache`. -/
def registerCache (rt : PhysicalRuntime Req Layer) (layer : Layer) (cache : PhysicalKVCache) :
    PhysicalRuntime Req Layer :=
  { rt with
    caches := rt.caches.set layer cache
    rawFreeSlots := rt.rawFreeSlots.set layer (List.range cache.rawPages).reverse
    warmFreeSlots := rt.warmFreeSlots.set layer (List.range cache.warmPages).reverse }

/-- The free lists of one pool. -/
def freeSlots (rt : PhysicalRuntime Req Layer) (wantsRaw : Bool) : Dict Layer (List Nat) :=
  if wantsRaw then rt.rawFreeSlots else rt.warmFreeSlots

/-- Replace the free list of one pool of a layer. -/
def setFreeSlots (rt : PhysicalRuntime Req Layer) (wantsRaw : Bool) (layer : Layer)
    (free : List Nat) : PhysicalRuntime Req Layer :=
  if wantsRaw then { rt with rawFreeSlots := rt.rawFreeSlots.set layer free }
  else { rt with warmFreeSlots := rt.warmFreeSlots.set layer free }

/-- `bool(self._raw_free_slots.get(layer_name))`. -/
def rawFree (rt : PhysicalRuntime Req Layer) (layer : Layer) : Bool :=
  match rt.rawFreeSlots.get? layer with
  | some (_ :: _) => true
  | _ => false

/-- Change the tables of a registered layer. -/
def updateCache (rt : PhysicalRuntime Req Layer) (layer : Layer)
    (f : PhysicalKVCache → PhysicalKVCache) : PhysicalRuntime Req Layer :=
  match rt.caches.get? layer with
  | none => rt
  | some cache => { rt with caches := rt.caches.set layer (f cache) }

/-! ### Where a page goes -/

/-- `_promote_to_raw_when_available`. -/
def promoteToRawWhenAvailable (rt : PhysicalRuntime Req Layer) (layer : Layer)
    (descriptor : PhysicalPageDescriptor Req Layer) : PhysicalPageDescriptor Req Layer :=
  if descriptor.role.raw then descriptor
  else if ¬ rt.rawFree layer then descriptor
  else descriptorWithRole descriptor .hotRaw

/-- `_demote_overlay_to_warm_when_raw_exhausted`. -/
def demoteOverlayToWarmWhenRawExhausted (rt : PhysicalRuntime Req Layer) (cache : CacheLayout)
    (layer : Layer) (descriptor : PhysicalPageDescriptor Req Layer) :
    PhysicalPageDescriptor Req Layer :=
  if descriptor.storage ≠ .requestOverlay then descriptor
  else if rt.rawFree layer then descriptor
  else descriptorWithRole descriptor cache.warmRoleForCache

/-- `_demote_canonical_to_warm_when_raw_exhausted`. -/
def demoteCanonicalToWarmWhenRawExhausted (rt : PhysicalRuntime Req Layer) (cache : CacheLayout)
    (layer : Layer) (descriptor : PhysicalPageDescriptor Req Layer) :
    PhysicalPageDescriptor Req Layer :=
  if descriptor.storage ≠ .canonical then descriptor
  else if ¬ descriptor.role.raw then descriptor
  else if (rt.canonicalSlots.get? (layer, descriptor.logicalBlockId, descriptor.role)).isSome then
    descriptor
  else if rt.rawFree layer then descriptor
  else descriptorWithRole descriptor cache.warmRoleForCache

/-- The descriptor `_apply_descriptor` places, after promotion and demotion. -/
def placedDescriptor (rt : PhysicalRuntime Req Layer) (cache : CacheLayout) (layer : Layer)
    (descriptor : PhysicalPageDescriptor Req Layer) : PhysicalPageDescriptor Req Layer :=
  let descriptor := rt.promoteToRawWhenAvailable layer descriptor
  let descriptor := rt.demoteOverlayToWarmWhenRawExhausted cache layer descriptor
  rt.demoteCanonicalToWarmWhenRawExhausted cache layer descriptor

/-- The first canonical entry of a block, in order of insertion. -/
def firstCanonical (rt : PhysicalRuntime Req Layer) (layer : Layer) (block : Int) :
    Option (PageRole × Nat) :=
  (rt.canonicalSlots.entries.find? fun e => decide (e.1.1 = layer ∧ e.1.2.1 = block)).map
    fun e => (e.1.2.2, e.2)

/-! ### Slots -/

/-- `_take_slot`. -/
def takeSlot (layer : Layer) (wantsRaw : Bool) : RuntimeM Req Layer Nat := do
  let rt ← get
  match (rt.freeSlots wantsRaw).get? layer with
  | none => throw (.keyError layer)
  | some free =>
      match free.getLast? with
      | none => throw (.poolExhausted wantsRaw layer)
      | some slot =>
          set (rt.setFreeSlots wantsRaw layer free.dropLast)
          return slot

/-- Give a slot back to a pool: `free_slots.append(slot)`. -/
def pushFreeSlot (layer : Layer) (wantsRaw : Bool) (slot : Nat) : RuntimeM Req Layer Unit := do
  let rt ← get
  match (rt.freeSlots wantsRaw).get? layer with
  | none => throw (.keyError layer)
  | some free => set (rt.setFreeSlots wantsRaw layer (free ++ [slot]))

/-- Write a block's entry of the canonical tables of a layer. -/
def setCanonicalTables (layer : Layer) (block role slot : Int) : RuntimeM Req Layer Unit := do
  let rt ← get
  match rt.caches.get? layer with
  | none => throw (.keyError layer)
  | some cache =>
      match tensorIndex block cache.numLogicalBlocks with
      | none => throw (.indexError block cache.numLogicalBlocks)
      | some b => set (rt.updateCache layer fun cache => cache.setCanonical b role slot)

/-- `_canonical_slot`. -/
def canonicalSlot (layer : Layer) (block : Int) (role : PageRole) : RuntimeM Req Layer Nat := do
  match (← get).canonicalSlots.get? (layer, block, role) with
  | some slot => return slot
  | none =>
      let slot ← takeSlot layer role.raw
      modify fun rt => { rt with canonicalSlots := rt.canonicalSlots.set (layer, block, role) slot }
      setCanonicalTables layer block role.toInt slot
      return slot

/-- `_overlay_slot`. -/
def overlaySlot (layer : Layer) (requestId : Req) (pageIndex : Int) : RuntimeM Req Layer Nat := do
  match (← get).overlaySlots.get? (layer, requestId, pageIndex) with
  | some slot => return slot
  | none =>
      let slot ← takeSlot layer true
      modify fun rt =>
        { rt with overlaySlots := rt.overlaySlots.set (layer, requestId, pageIndex) slot }
      return slot

/-- `_refresh_logical_descriptor`. -/
def refreshLogicalDescriptor (layer : Layer) (block : Int) : RuntimeM Req Layer Unit := do
  match (← get).firstCanonical layer block with
  | none => setCanonicalTables layer block (-1) (-1)
  | some (role, slot) => setCanonicalTables layer block role.toInt slot

/-! ### Releasing -/

/-- `self._canonical_slots.pop(key, None)`. -/
def popCanonicalSlot (key : Layer × Int × PageRole) : RuntimeM Req Layer (Option Nat) :=
  modifyGet fun rt =>
    (rt.canonicalSlots.get? key, { rt with canonicalSlots := rt.canonicalSlots.erase key })

/-- `self._overlay_slots.pop(key, None)`. -/
def popOverlaySlot (key : Layer × Req × Int) : RuntimeM Req Layer (Option Nat) :=
  modifyGet fun rt =>
    (rt.overlaySlots.get? key, { rt with overlaySlots := rt.overlaySlots.erase key })

/-- Pop an overlay and give its slot back to the raw pool. -/
def releaseOverlay (key : Layer × Req × Int) : RuntimeM Req Layer Unit := do
  match ← popOverlaySlot key with
  | none => return
  | some slot => pushFreeSlot key.1 true slot

/-- `release_request`. -/
def releaseRequest (requestId : Req) : RuntimeM Req Layer Unit := do
  let released := (← get).overlaySlots.keys.filter fun key => decide (key.2.1 = requestId)
  released.forM releaseOverlay

/-- `release_descriptor`. -/
def releaseDescriptor (descriptor : PhysicalPageDescriptor Req Layer) :
    RuntimeM Req Layer Unit := do
  let layer := descriptor.layerName
  let block := descriptor.logicalBlockId
  if descriptor.storage = .requestOverlay then
    releaseOverlay (layer, descriptor.requestId, descriptor.pageIndex)
  else
    let mut slot ← popCanonicalSlot (layer, block, descriptor.role)
    let mut wantsRaw := descriptor.role.raw
    if slot.isNone && !wantsRaw then
      slot ← popCanonicalSlot (layer, block, .hotRaw)
      wantsRaw := slot.isSome
    if slot.isNone && wantsRaw then
      match (← get).caches.get? layer with
      | none => throw (.keyError layer)
      | some cache =>
          slot ← popCanonicalSlot (layer, block, cache.warmRoleForCache)
          wantsRaw := slot.isNone
    match slot with
    | none => return
    | some freed =>
        pushFreeSlot layer wantsRaw freed
        refreshLogicalDescriptor layer block

/-! ### Applying -/

/-- Clear one row of a layer's tables. -/
def clearRow (layer : Layer) (row : Nat) : RuntimeM Req Layer Unit := do
  let rt ← get
  match rt.caches.get? layer with
  | none => throw (.unregisteredLayer layer)
  | some cache =>
      if row < cache.spec.tmhMaxNumSeqs then
        set (rt.updateCache layer fun cache => cache.clearRow row)
      else throw (.indexError row cache.spec.tmhMaxNumSeqs)

/-- `_clear_request_rows`, with the rows cleared so far. -/
def clearRequestRows (reqIdToIndex : Dict Req Nat) :
    List (PhysicalPageDescriptor Req Layer) → List (Layer × Nat) → RuntimeM Req Layer Unit
  | [], _ => return
  | descriptor :: descriptors, cleared =>
      match reqIdToIndex.get? descriptor.requestId with
      | none => throw (.missingRow descriptor.requestId)
      | some reqIndex =>
          if (descriptor.layerName, reqIndex) ∈ cleared then
            clearRequestRows reqIdToIndex descriptors cleared
          else do
            clearRow descriptor.layerName reqIndex
            clearRequestRows reqIdToIndex descriptors ((descriptor.layerName, reqIndex) :: cleared)

/-- Write a row entry of a layer's tables. -/
def writeRow (layer : Layer) (row : Nat) (page : Int) (slot : Nat) (role : PageRole) :
    RuntimeM Req Layer Unit := do
  let rt ← get
  match rt.caches.get? layer with
  | none => throw (.keyError layer)
  | some cache =>
      if row < cache.spec.tmhMaxNumSeqs then
        match tensorIndex page cache.spec.tmhMaxModelPages with
        | none => throw (.indexError page cache.spec.tmhMaxModelPages)
        | some p => set (rt.updateCache layer fun cache => cache.setRow row p slot role)
      else throw (.indexError row cache.spec.tmhMaxNumSeqs)

/-- The slot of a placed descriptor, by its storage. -/
def descriptorSlot (layer : Layer) (descriptor : PhysicalPageDescriptor Req Layer) :
    RuntimeM Req Layer Nat :=
  if descriptor.storage = .requestOverlay then
    overlaySlot layer descriptor.requestId descriptor.pageIndex
  else canonicalSlot layer descriptor.logicalBlockId descriptor.role

/-- `_apply_descriptor`. -/
def applyDescriptor (cache : CacheLayout) (layer : Layer)
    (descriptor : PhysicalPageDescriptor Req Layer) (reqIndex : Nat) : RuntimeM Req Layer Unit := do
  let descriptor := (← get).placedDescriptor cache layer descriptor
  let logicalBlockId := descriptor.logicalBlockId
  if logicalBlockId < 0 ∨ logicalBlockId ≥ cache.numLogicalBlocks then
    throw (.blockOutOfRange logicalBlockId cache.numLogicalBlocks)
  let slot ← descriptorSlot layer descriptor
  if descriptor.pageIndex ≥ cache.spec.tmhMaxModelPages then
    throw (.pageOutOfRange descriptor.pageIndex cache.spec.tmhMaxModelPages layer)
  writeRow layer reqIndex descriptor.pageIndex slot descriptor.role

/-- The body of the descriptor loop of `apply_events`. -/
def applyEventDescriptor (reqIdToIndex : Dict Req Nat) (totalPages : Int)
    (descriptor : PhysicalPageDescriptor Req Layer) : RuntimeM Req Layer Unit := do
  match (← get).caches.get? descriptor.layerName with
  | none => throw (.unregisteredLayer descriptor.layerName)
  | some cache =>
      match reqIdToIndex.get? descriptor.requestId with
      | none => throw (.missingRow descriptor.requestId)
      | some reqIndex =>
          applyDescriptor cache.toCacheLayout descriptor.layerName
            (effectiveDescriptor cache.toCacheLayout descriptor totalPages) reqIndex

/-- What `apply_events` does with an event before its descriptor loop. -/
def prepareEvent (reqIdToIndex : Dict Req Nat) (event : PhysicalEvent Req Layer) :
    RuntimeM Req Layer Unit := do
  event.releasedRequestIds.forM releaseRequest
  event.releasedDescriptors.forM releaseDescriptor
  if event.descriptors ≠ [] then
    releaseRequest event.requestId
    clearRequestRows reqIdToIndex event.descriptors []

/-- One round of the event loop of `apply_events`. -/
def applyEvent (reqIdToIndex : Dict Req Nat) (event : PhysicalEvent Req Layer) :
    RuntimeM Req Layer Unit := do
  prepareEvent reqIdToIndex event
  event.descriptors.forM (applyEventDescriptor reqIdToIndex event.totalPages)

/-- `apply_events`. -/
def applyEvents (events : List (PhysicalEvent Req Layer)) (reqIdToIndex : Dict Req Nat) :
    RuntimeM Req Layer Unit := events.forM (applyEvent reqIdToIndex)

end PhysicalRuntime

/-- Register every cache, in the order of the dictionary. -/
def registerCaches (kvCaches : Dict Layer PhysicalKVCache) : PhysicalRuntime Req Layer :=
  kvCaches.entries.foldl (fun rt e => rt.registerCache e.1 e.2) {}

end Sock.Tmh
