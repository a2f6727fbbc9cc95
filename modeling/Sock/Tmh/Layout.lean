/-
  The layout of a layer's cache: tensors carved from one buffer, and the addresses the cache-write
  kernels compute in the raw key pool (`tmh_physical.py`, `tmh_triton_ops.py`).

  * `carvePhysicalTensors`: raw pool, warm keys, warm values and two scale tensors, one after
    the other. The planned bytes do not count the padding before the scales; the eight bytes
    of each block's descriptor, which are not carved, cover it (`carvePhysicalTensors_ok`).
  * `rawKOffset`: the address of one key element. The view of the pool splits the head by the
    element size of the cache, the kernels split it by the element size of the key, so the
    addresses are good where the two agree (`addressesKeys_iff`).

  Not modelled: the contents of the tensors, and the descriptor tables, which are tensors of their
  own (`Sock.Tmh.Physical`). The kernels have the strides of the pool on 64 bits; the addresses are
  taken to be exact.
-/
import Sock.Lib.Fallible
import Sock.Lib.Tensor
import Sock.Tmh.Geometry
import Sock.Tmh.Memory

namespace Sock.Tmh

open Lib Lib.Fallible Lib.Tensor

/-! ## Carving -/

/-- Why the layout is refused. `view` and `division` are raised by the runtime the code is
    written in: a view with another number of elements, and `head_size // 0`. -/
inductive LayoutError where
  | valueHeadSize
  | tooSmall (need available : Nat)
  | view
  | division
  deriving DecidableEq, Repr

/-- A tensor over a piece of the buffer. -/
structure CarvedTensor where
  region : Piece
  shape : List Nat
  deriving DecidableEq, Repr

/-- The tensor has the shape, in elements of the size, and its region is as long as they are. -/
structure CarvedTensor.Has (t : CarvedTensor) (size : Nat) (dims : List Nat) : Prop where
  shape : t.shape = dims
  elementSize : t.region.elementSize = size
  stop : t.region.stop = t.region.start + dims.prod * size

/-- A carving step: the state is `offset`, the end of what is taken. -/
abbrev Carving := EStateM LayoutError Nat

/-- `take`: the next bytes, after the padding that the element size needs. -/
def take (available numBytes dtypeSize : Nat) (shape : List Nat) : Carving CarvedTensor := do
  let offset := alignUp dtypeSize (← get)
  let stop := offset + numBytes
  if stop > available then throw (.tooSmall stop available)
  else if numBytes ≠ shape.prod * dtypeSize then throw .view
  else
    set stop
    pure ⟨⟨dtypeSize, offset, stop⟩, shape⟩

/-- `tensor.view(shape)`. -/
def viewAs (elements : Nat) (shape : List Nat) : Carving (List Nat) :=
  if shape.prod = elements then pure shape else throw .view

/-- `x`: how many elements of the cache's type are sixteen bytes. -/
def SizedSpec.rawX (spec : SizedSpec) : Nat := 16 / spec.dtypeSize

/-- The shape of `raw_key`. -/
def rawKeyShape (rawPages : Nat) (spec : SizedSpec) : List Nat :=
  [rawPages, spec.numKvHeads, spec.headSize / spec.rawX, spec.blockSize, spec.rawX]

/-- The tensors of `TMHPhysicalKVCache` that lie in the buffer. `raw_key` and `raw_value` are views
    of the two halves of the raw pool. -/
structure PhysicalTensors where
  rawKvCache : CarvedTensor
  rawKey : List Nat
  rawValue : List Nat
  warmKey : CarvedTensor
  warmValue : CarvedTensor
  warmKScale : CarvedTensor
  warmVScale : CarvedTensor
  deriving DecidableEq, Repr

/-- The regions of the tensors, in the order they are taken. -/
def PhysicalTensors.regions (t : PhysicalTensors) : List Piece :=
  [t.rawKvCache.region, t.warmKey.region, t.warmValue.region, t.warmKScale.region,
    t.warmVScale.region]

/-- The last dimension of `warm_value`: two values share a byte in an early layer. -/
def SizedSpec.warmVHead (spec : SizedSpec) : Nat :=
  if spec.tmhLateLayer then spec.headSizeV else (spec.headSizeV + 1) / 2

/-- The tensors that kernels and descriptor tables count on: of the spec's dtype for the raw pool,
    of bytes for the warm pages, and with a float for each token and head in the scales. -/
structure PhysicalTensors.Planned (t : PhysicalTensors) (spec : SizedSpec)
    (rawPages warmPages : Nat) : Prop where
  rawKvCache : t.rawKvCache.Has spec.dtypeSize
    [2, rawPages, spec.blockSize, spec.numKvHeads, spec.headSize]
  rawKey : t.rawKey = rawKeyShape rawPages spec
  rawValue : t.rawValue = [rawPages, spec.numKvHeads, spec.headSize, spec.blockSize]
  warmKey : t.warmKey.Has 1 [warmPages, spec.blockSize, spec.numKvHeads, spec.headSize]
  warmValue : t.warmValue.Has 1 [warmPages, spec.blockSize, spec.numKvHeads, spec.warmVHead]
  warmKScale : t.warmKScale.Has float32Size [warmPages, spec.blockSize, spec.numKvHeads]
  warmVScale : t.warmVScale.Has float32Size [warmPages, spec.blockSize, spec.numKvHeads]

/-- The body of `reshape_tmh_physical_kv_cache` up to the descriptor tables. -/
def carve (spec : SizedSpec) (rawPages warmPages available : Nat) : Carving PhysicalTensors := do
  if spec.headSizeV ≠ spec.headSize then throw .valueHeadSize
  else
    let rawKvCache ← take available
      (2 * rawPages * spec.blockSize * spec.numKvHeads * spec.headSize * spec.dtypeSize)
      spec.dtypeSize [2, rawPages, spec.blockSize, spec.numKvHeads, spec.headSize]
    if spec.rawX = 0 then throw .division
    else
      let half := rawPages * spec.blockSize * spec.numKvHeads * spec.headSize
      let rawKey ← viewAs half (rawKeyShape rawPages spec)
      let rawValue ← viewAs half [rawPages, spec.numKvHeads, spec.headSize, spec.blockSize]
      let warmKey ← take available
        (warmPages * spec.blockSize * spec.numKvHeads * spec.headSize) 1
        [warmPages, spec.blockSize, spec.numKvHeads, spec.headSize]
      let warmValue ← take available
        (warmPages * spec.blockSize * spec.numKvHeads * spec.warmVHead) 1
        [warmPages, spec.blockSize, spec.numKvHeads, spec.warmVHead]
      let scaleBytes := warmPages * spec.blockSize * spec.numKvHeads * 4
      let warmKScale ← take available scaleBytes float32Size
        [warmPages, spec.blockSize, spec.numKvHeads]
      let warmVScale ← take available scaleBytes float32Size
        [warmPages, spec.blockSize, spec.numKvHeads]
      pure ⟨rawKvCache, rawKey, rawValue, warmKey, warmValue, warmKScale, warmVScale⟩

/-- `reshape_tmh_physical_kv_cache`, as far as it carves a buffer of `available` bytes. -/
def carvePhysicalTensors (spec : SizedSpec) (numLogicalBlocks available : Nat) (r : Rounding) :
    Except LayoutError PhysicalTensors :=
  let (rawPages, warmPages) := spec.physicalPoolPageCounts numLogicalBlocks r
  match (carve spec rawPages warmPages available).run 0 with
  | .ok tensors _ => .ok tensors
  | .error e _ => .error e

/-- A piece that fits is taken, and is apart from those taken before. -/
theorem take_run {available numBytes dtypeSize cursor : Nat} (shape : List Nat)
    {regions : List Piece} (h : Carved regions cursor) (hsize : 0 < dtypeSize)
    (hview : numBytes = shape.prod * dtypeSize)
    (hfits : alignUp dtypeSize cursor + numBytes ≤ available) :
    ∃ tensor, (take available numBytes dtypeSize shape).run cursor =
        .ok tensor (alignUp dtypeSize cursor + numBytes) ∧ tensor.Has dtypeSize shape ∧
      Carved (regions ++ [tensor.region]) (alignUp dtypeSize cursor + numBytes) := by
  refine ⟨⟨⟨dtypeSize, alignUp dtypeSize cursor, alignUp dtypeSize cursor + numBytes⟩, shape⟩,
    run_bind_ok.mpr ⟨cursor, cursor, rfl, ?_⟩, ⟨rfl, rfl, by rw [hview]⟩, h.take hsize numBytes⟩
  dsimp only
  rw [if_neg (not_lt.mpr hfits), if_neg (not_not.mpr hview)]
  rfl

theorem viewAs_run {elements cursor : Nat} {shape : List Nat} (h : shape.prod = elements) :
    (viewAs elements shape).run cursor = .ok shape cursor := by
  rw [viewAs, if_pos h]
  rfl

/-- A buffer with room for the pieces and for the padding before the scales is carved. -/
theorem carve_run {spec : SizedSpec} {rawPages warmPages available : Nat}
    (hhead : spec.headSizeV = spec.headSize) (hsize : 0 < spec.dtypeSize)
    (hx : 0 < spec.rawX) (hdvd : spec.rawX ∣ spec.headSize)
    (hroom : alignUp float32Size
        (2 * rawPages * spec.blockSize * spec.numKvHeads * spec.headSize * spec.dtypeSize +
          warmPages * spec.blockSize * spec.numKvHeads * spec.headSize +
          warmPages * spec.blockSize * spec.numKvHeads * spec.warmVHead) +
        2 * (warmPages * spec.blockSize * spec.numKvHeads * 4) ≤ available) :
    ∃ tensors stop, (carve spec rawPages warmPages available).run 0 = .ok tensors stop ∧
      tensors.Planned spec rawPages warmPages ∧ Carved tensors.regions stop ∧
      stop ≤ available := by
  generalize hraw : 2 * rawPages * spec.blockSize * spec.numKvHeads * spec.headSize *
    spec.dtypeSize = rawBytes at hroom
  generalize hkey : warmPages * spec.blockSize * spec.numKvHeads * spec.headSize = keyBytes at hroom
  generalize hvalue : warmPages * spec.blockSize * spec.numKvHeads * spec.warmVHead = valueBytes
    at hroom
  generalize hscale : warmPages * spec.blockSize * spec.numKvHeads * 4 = scaleBytes at hroom
  -- bytes need no padding, and the second scale tensor starts where the first ends
  have hpad : ∀ cursor, alignUp 1 cursor = cursor := fun cursor => alignUp_of_dvd (one_dvd cursor)
  have hstart : alignUp spec.dtypeSize 0 = 0 := alignUp_of_dvd (dvd_zero _)
  have hle := le_alignUp float32Size (rawBytes + keyBytes + valueBytes)
  have hdvd4 : float32Size ∣ scaleBytes := ⟨_, hscale.symm.trans (Nat.mul_comm _ _)⟩
  have hnext : alignUp float32Size (alignUp float32Size (rawBytes + keyBytes + valueBytes) +
      scaleBytes) = alignUp float32Size (rawBytes + keyBytes + valueBytes) + scaleBytes :=
    alignUp_of_dvd (Nat.dvd_add (dvd_alignUp (by decide) _) hdvd4)
  obtain ⟨rawKvCache, hrun₁, hhas₁, hcarved⟩ := take_run
    [2, rawPages, spec.blockSize, spec.numKvHeads, spec.headSize] carved_nil hsize
    (hraw ▸ by simp [Nat.mul_assoc]) (by omega : alignUp spec.dtypeSize 0 + rawBytes ≤ available)
  rw [hstart, Nat.zero_add] at hrun₁ hcarved
  obtain ⟨warmKey, hrun₂, hhas₂, hcarved⟩ := take_run
    [warmPages, spec.blockSize, spec.numKvHeads, spec.headSize] hcarved Nat.one_pos
    (hkey ▸ by simp [Nat.mul_assoc]) (by rw [hpad]; omega : _ + keyBytes ≤ available)
  rw [hpad] at hrun₂ hcarved
  obtain ⟨warmValue, hrun₃, hhas₃, hcarved⟩ := take_run
    [warmPages, spec.blockSize, spec.numKvHeads, spec.warmVHead] hcarved Nat.one_pos
    (hvalue ▸ by simp [Nat.mul_assoc]) (by rw [hpad]; omega : _ + valueBytes ≤ available)
  rw [hpad] at hrun₃ hcarved
  obtain ⟨warmKScale, hrun₄, hhas₄, hcarved⟩ := take_run
    [warmPages, spec.blockSize, spec.numKvHeads] hcarved (by decide : 0 < float32Size)
    (hscale ▸ by simp [Nat.mul_assoc, float32Size]) (by omega : _ + scaleBytes ≤ available)
  obtain ⟨warmVScale, hrun₅, hhas₅, hcarved⟩ := take_run
    [warmPages, spec.blockSize, spec.numKvHeads] hcarved (by decide : 0 < float32Size)
    (hscale ▸ by simp [Nat.mul_assoc, float32Size])
    (by rw [hnext]; omega : _ + scaleBytes ≤ available)
  rw [hnext] at hrun₅ hcarved
  have hkeyView : (rawKeyShape rawPages spec).prod =
      rawPages * spec.blockSize * spec.numKvHeads * spec.headSize := by
    obtain ⟨blocks, hblocks⟩ := hdvd
    rw [rawKeyShape, hblocks, Nat.mul_div_cancel_left _ hx]
    simp only [List.prod_cons, List.prod_nil]
    ring
  have hvalueView : [rawPages, spec.numKvHeads, spec.headSize, spec.blockSize].prod =
      rawPages * spec.blockSize * spec.numKvHeads * spec.headSize := by
    simp only [List.prod_cons, List.prod_nil]
    ring
  refine ⟨⟨rawKvCache, rawKeyShape rawPages spec,
    [rawPages, spec.numKvHeads, spec.headSize, spec.blockSize], warmKey, warmValue, warmKScale,
    warmVScale⟩, _, ?_, ⟨hhas₁, rfl, rfl, hhas₂, hhas₃, hhas₄, hhas₅⟩, hcarved, by omega⟩
  unfold carve
  rw [if_neg (not_not.mpr hhead), hraw, hkey, hvalue, hscale]
  refine run_bind_ok.mpr ⟨_, _, hrun₁, ?_⟩
  rw [if_neg (Nat.ne_of_gt hx)]
  refine run_bind_ok.mpr ⟨_, _, viewAs_run hkeyView, ?_⟩
  refine run_bind_ok.mpr ⟨_, _, viewAs_run hvalueView, ?_⟩
  refine run_bind_ok.mpr ⟨_, _, hrun₂, ?_⟩
  refine run_bind_ok.mpr ⟨_, _, hrun₃, ?_⟩
  refine run_bind_ok.mpr ⟨_, _, hrun₄, ?_⟩
  exact run_bind_ok.mpr ⟨_, _, hrun₅, rfl⟩

theorem SizedSpec.rawPageSizeBytes_of_none {spec : SizedSpec} (hquant : spec.kvQuantMode = .none)
    (hhead : spec.headSizeV = spec.headSize) :
    spec.rawPageSizeBytes = 2 * (spec.blockSize * spec.numKvHeads * spec.headSize) *
      spec.dtypeSize := by
  unfold rawPageSizeBytes
  rw [hquant, hhead]
  dsimp only
  ring

theorem SizedSpec.warmPageSizeBytes_eq (spec : SizedSpec) :
    spec.warmPageSizeBytes = spec.blockSize * spec.numKvHeads * spec.headSize +
      spec.blockSize * spec.numKvHeads * spec.warmVHead +
      2 * (spec.blockSize * spec.numKvHeads * 4) := by
  have hhead : (if spec.tmhLateLayer then spec.headSizeV else cdiv spec.headSizeV 2) =
      spec.warmVHead := rfl
  unfold warmPageSizeBytes
  dsimp only
  rw [hhead, float32Size]
  ring

/-- The eight bytes of a block's descriptor cover the padding before the scales. -/
theorem room_of_planned (spec : SizedSpec) {rawPages warmPages numLogicalBlocks : Nat}
    (hcount : rawPages + warmPages = numLogicalBlocks) :
    alignUp float32Size
        (2 * rawPages * spec.blockSize * spec.numKvHeads * spec.headSize * spec.dtypeSize +
          warmPages * spec.blockSize * spec.numKvHeads * spec.headSize +
          warmPages * spec.blockSize * spec.numKvHeads * spec.warmVHead) +
        2 * (warmPages * spec.blockSize * spec.numKvHeads * 4) ≤
      rawPages * (2 * (spec.blockSize * spec.numKvHeads * spec.headSize) * spec.dtypeSize) +
        warmPages * (spec.blockSize * spec.numKvHeads * spec.headSize +
          spec.blockSize * spec.numKvHeads * spec.warmVHead +
          2 * (spec.blockSize * spec.numKvHeads * 4)) + numLogicalBlocks * 8 := by
  have hpieces :
      rawPages * (2 * (spec.blockSize * spec.numKvHeads * spec.headSize) * spec.dtypeSize) +
        warmPages * (spec.blockSize * spec.numKvHeads * spec.headSize +
          spec.blockSize * spec.numKvHeads * spec.warmVHead +
          2 * (spec.blockSize * spec.numKvHeads * 4)) =
      2 * rawPages * spec.blockSize * spec.numKvHeads * spec.headSize * spec.dtypeSize +
        warmPages * spec.blockSize * spec.numKvHeads * spec.headSize +
        warmPages * spec.blockSize * spec.numKvHeads * spec.warmVHead +
        2 * (warmPages * spec.blockSize * spec.numKvHeads * 4) := by ring
  rw [hpieces]
  rcases Nat.eq_zero_or_pos numLogicalBlocks with h0 | hpos
  · -- no blocks, nothing to take
    obtain ⟨rfl, rfl⟩ : rawPages = 0 ∧ warmPages = 0 := by omega
    simp [alignUp]
  · have hpad := alignUp_lt (by decide : 0 < float32Size)
      (2 * rawPages * spec.blockSize * spec.numKvHeads * spec.headSize * spec.dtypeSize +
        warmPages * spec.blockSize * spec.numKvHeads * spec.headSize +
        warmPages * spec.blockSize * spec.numKvHeads * spec.warmVHead)
    unfold float32Size at hpad ⊢
    omega

/-- **Planned bytes suffice.** A buffer of the planned size is carved into the planned tensors, each
    in a region of its length, and every region is aligned to its element size, inside the buffer,
    and apart from the others. -/
theorem carvePhysicalTensors_ok (spec : SizedSpec) (hhead : spec.headSizeV = spec.headSize)
    (hquant : spec.kvQuantMode = .none) (hsize : 0 < spec.dtypeSize) (hsize16 : spec.dtypeSize ≤ 16)
    (hdvd : 16 / spec.dtypeSize ∣ spec.headSize) (numLogicalBlocks : Nat) (r : Rounding) :
    ∃ tensors, carvePhysicalTensors spec numLogicalBlocks
        (spec.physicalAllocationBytes numLogicalBlocks r) r = .ok tensors ∧
      tensors.Planned spec (spec.physicalPoolPageCounts numLogicalBlocks r).1
        (spec.physicalPoolPageCounts numLogicalBlocks r).2 ∧
      (∀ region ∈ tensors.regions, region.elementSize ∣ region.start ∧
        region.stop ≤ spec.physicalAllocationBytes numLogicalBlocks r) ∧
      tensors.regions.Pairwise fun a b => Disjoint a.bytes b.bytes := by
  have hcount := spec.physicalPoolPageCounts_add numLogicalBlocks r
  generalize hplanned : spec.physicalAllocationBytes numLogicalBlocks r = available
  unfold SizedSpec.physicalAllocationBytes at hplanned
  unfold carvePhysicalTensors
  dsimp only at hplanned ⊢
  rw [spec.rawPageSizeBytes_of_none hquant hhead, spec.warmPageSizeBytes_eq] at hplanned
  obtain ⟨tensors, stop, hrun, hplan, hcarved, hstop⟩ :=
    carve_run hhead hsize (Nat.div_pos hsize16 hsize) hdvd (hplanned ▸ room_of_planned spec hcount)
  rw [hrun]
  exact ⟨tensors, rfl, hplan, fun region hr =>
    ⟨hcarved.aligned region hr, (hcarved.within region hr).trans hstop⟩, hcarved.disjoint⟩

/-- Six blocks of it: five raw pages and one warm. -/
theorem carvePhysicalTensors_fourPages :
    ∃ tensors, carvePhysicalTensors fourPages 6 (fourPages.physicalAllocationBytes 6 .binary64)
        .binary64 = .ok tensors ∧ tensors.Planned fourPages 5 1 ∧
      tensors.regions.Pairwise fun a b => Disjoint a.bytes b.bytes := by
  obtain ⟨tensors, hok, hplan, -, hdisjoint⟩ :=
    carvePhysicalTensors_ok fourPages rfl rfl (by decide) (by decide) (by decide) 6 .binary64
  have hcounts : fourPages.physicalPoolPageCounts 6 .binary64 = (5, 1) := by decide +kernel
  rw [hcounts] at hplan
  exact ⟨tensors, hok, hplan, hdisjoint⟩

/-! ## Addresses of key elements -/

/-- `raw_k_offset`, in both cache-write kernels. -/
def rawKOffset (stride : Nat → Nat) (rawX physicalSlot head offs offsetInPage : Nat) : Nat :=
  physicalSlot * stride 0 + head * stride 1 + offs / rawX * stride 2 + offsetInPage * stride 3 +
    offs % rawX * stride 4

/-- `cache.raw_key.stride(i)`. -/
def rawKeyStride (rawPages : Nat) (spec : SizedSpec) (i : Nat) : Nat :=
  (strides (rawKeyShape rawPages spec)).getD i 0

/-- One element of the keys in the raw pool. -/
structure KeyElement where
  slot : Nat
  head : Nat
  dim : Nat
  tok : Nat
  deriving DecidableEq, Repr

/-- The element is one of the pool's. -/
structure KeyElement.Within (e : KeyElement) (rawPages : Nat) (spec : SizedSpec) : Prop where
  slot : e.slot < rawPages
  head : e.head < spec.numKvHeads
  dim : e.dim < spec.headSize
  tok : e.tok < spec.blockSize

/-- Where the kernels write the element, when elements of the key have `keySize` bytes: they are
    launched with `RAW_X=16 // key.element_size()`. -/
def keyAddress (rawPages : Nat) (spec : SizedSpec) (keySize : Nat) (e : KeyElement) : Nat :=
  rawKOffset (rawKeyStride rawPages spec) (16 / keySize) e.slot e.head e.dim e.tok

/-- Every element of the pool has an address of its own in the pool. -/
structure AddressesKeys (rawPages : Nat) (spec : SizedSpec) (keySize : Nat) : Prop where
  injective : ∀ e e' : KeyElement, e.Within rawPages spec → e'.Within rawPages spec →
    keyAddress rawPages spec keySize e = keyAddress rawPages spec keySize e' → e = e'
  bounded : ∀ e : KeyElement, e.Within rawPages spec →
    keyAddress rawPages spec keySize e < (rawKeyShape rawPages spec).prod

/-- Cutting the head by the element size of the key comes to the same as cutting it by the element
    size of the cache: the sizes are equal, or the head is not longer than a cut. -/
def SameSplit (spec : SizedSpec) (keySize : Nat) : Prop :=
  keySize = spec.dtypeSize ∨ keySize < spec.dtypeSize ∧
    (spec.headSize ≤ 16 / spec.dtypeSize ∨ spec.blockSize = 1 ∧ spec.headSize ≤ 16 / keySize)

section Addresses

variable {rawPages : Nat} {spec : SizedSpec} (hdvd : spec.rawX ∣ spec.headSize)

include hdvd in
theorem SizedSpec.pageStride_eq : spec.headSize / spec.rawX * (spec.blockSize * spec.rawX) =
    spec.headSize * spec.blockSize := by
  rw [Nat.mul_comm spec.blockSize, ← Nat.mul_assoc, Nat.div_mul_cancel hdvd]

include hdvd in
/-- The address, with the strides of the view. -/
theorem rawKOffset_eq (rawX slot head dim tok : Nat) :
    rawKOffset (rawKeyStride rawPages spec) rawX slot head dim tok =
      slot * (spec.numKvHeads * (spec.headSize * spec.blockSize)) +
        head * (spec.headSize * spec.blockSize) + dim / rawX * (spec.blockSize * spec.rawX) +
        tok * spec.rawX + dim % rawX := by
  rw [← SizedSpec.pageStride_eq hdvd]
  simp [rawKOffset, rawKeyStride, rawKeyShape, strides]

include hdvd in
/-- Cut by the element size of the cache, the address is that of the view. -/
theorem rawKOffset_rawX (e : KeyElement) :
    rawKOffset (rawKeyStride rawPages spec) spec.rawX e.slot e.head e.dim e.tok =
      offset (strides (rawKeyShape rawPages spec))
        [e.slot, e.head, e.dim / spec.rawX, e.tok, e.dim % spec.rawX] := by
  rw [rawKOffset_eq hdvd, ← SizedSpec.pageStride_eq hdvd]
  simp [rawKeyShape, strides, offset]
  ring

include hdvd in
/-- Where the cuts come to the same, so do the addresses. -/
theorem rawKOffset_of_sameSplit {keySize : Nat} (hkey : 0 < keySize)
    (h : SameSplit spec keySize) {e : KeyElement} (he : e.Within rawPages spec) :
    keyAddress rawPages spec keySize e =
      rawKOffset (rawKeyStride rawPages spec) spec.rawX e.slot e.head e.dim e.tok := by
  unfold keyAddress
  have hdim := he.dim
  rcases h with heq | ⟨hlt, hshort | ⟨hone, hshort⟩⟩
  · rw [heq]
    rfl
  · -- the head is one cut
    have hle : 16 / spec.dtypeSize ≤ 16 / keySize := Nat.div_le_div_left (by omega) hkey
    have hcut : e.dim < spec.rawX := by
      unfold SizedSpec.rawX
      omega
    rw [rawKOffset_eq hdvd, rawKOffset_eq hdvd, Nat.div_eq_of_lt (by omega : e.dim < 16 / keySize),
      Nat.mod_eq_of_lt (by omega : e.dim < 16 / keySize), Nat.div_eq_of_lt hcut,
      Nat.mod_eq_of_lt hcut]
  · -- with one token in a block, the cuts of the view follow each other
    have hdiv := Nat.div_add_mod' e.dim spec.rawX
    rw [rawKOffset_eq hdvd, rawKOffset_eq hdvd, Nat.div_eq_of_lt (by omega : e.dim < 16 / keySize),
      Nat.mod_eq_of_lt (by omega : e.dim < 16 / keySize), hone, Nat.one_mul]
    omega

section Necessary

variable {keySize : Nat} (hkey : 0 < 16 / keySize) (h : AddressesKeys rawPages spec keySize)
  (hpages : 0 < rawPages) (hheads : 0 < spec.numKvHeads) (hhead : 0 < spec.headSize)
  (hblock : 0 < spec.blockSize)

include hdvd in
theorem keyAddress_eq (e : KeyElement) : keyAddress rawPages spec keySize e =
    e.slot * (spec.numKvHeads * (spec.headSize * spec.blockSize)) +
      e.head * (spec.headSize * spec.blockSize) +
      e.dim / (16 / keySize) * (spec.blockSize * spec.rawX) + e.tok * spec.rawX +
      e.dim % (16 / keySize) :=
  rawKOffset_eq hdvd ..

include hdvd hkey h hpages hheads hhead hblock in
/-- Cuts that are shorter than the view's lead out of the pool. -/
theorem AddressesKeys.not_shorter : ¬ 2 * (16 / keySize) ≤ spec.rawX := by
  intro hshorter
  have hcuts : spec.headSize / spec.rawX ≤ (spec.headSize - 1) / (16 / keySize) := by
    rw [Nat.le_div_iff_mul_le hkey]
    obtain ⟨cuts, hcuts⟩ := hdvd
    rw [hcuts, Nat.mul_div_cancel_left _ (by omega)]
    have hpos : 0 < cuts := Nat.pos_of_ne_zero fun h0 => by simp [h0] at hcuts; omega
    have hle := Nat.mul_le_mul_right cuts hshorter
    have hone : cuts * 1 ≤ cuts * (16 / keySize) := Nat.mul_le_mul_left _ hkey
    have htwo : 2 * (16 / keySize) * cuts = cuts * (16 / keySize) + cuts * (16 / keySize) := by ring
    omega
  have hpage : spec.headSize * spec.blockSize ≤
      (spec.headSize - 1) / (16 / keySize) * (spec.blockSize * spec.rawX) := by
    rw [← SizedSpec.pageStride_eq hdvd]
    exact Nat.mul_le_mul_right _ hcuts
  have hbound := h.bounded ⟨rawPages - 1, spec.numKvHeads - 1, spec.headSize - 1, 0⟩
    ⟨by dsimp only; omega, by dsimp only; omega, by dsimp only; omega, hblock⟩
  rw [keyAddress_eq hdvd] at hbound
  dsimp only at hbound
  have hprod : (rawKeyShape rawPages spec).prod =
      rawPages * (spec.numKvHeads * (spec.headSize * spec.blockSize)) := by
    rw [← SizedSpec.pageStride_eq hdvd]
    simp [rawKeyShape]
  rw [hprod] at hbound
  have hpages' : rawPages * (spec.numKvHeads * (spec.headSize * spec.blockSize)) =
      (rawPages - 1) * (spec.numKvHeads * (spec.headSize * spec.blockSize)) +
        spec.numKvHeads * (spec.headSize * spec.blockSize) := by
    rw [← Nat.succ_mul, Nat.succ_eq_add_one, Nat.sub_add_cancel hpages]
  have hheads' : spec.numKvHeads * (spec.headSize * spec.blockSize) =
      (spec.numKvHeads - 1) * (spec.headSize * spec.blockSize) +
        spec.headSize * spec.blockSize := by
    rw [← Nat.succ_mul, Nat.succ_eq_add_one, Nat.sub_add_cancel hheads]
  omega

include hdvd h hpages hheads hblock in
/-- Cuts that are longer than the view's run into the next token, or into the next cut. -/
theorem AddressesKeys.short_of_longer (hlonger : spec.rawX < 16 / keySize) :
    spec.headSize ≤ spec.rawX ∨ spec.blockSize = 1 ∧ spec.headSize ≤ 16 / keySize := by
  by_contra hcond
  push Not at hcond
  obtain ⟨hlong, hblocks⟩ := hcond
  -- the first dimension after a cut of the view
  have hnext : keyAddress rawPages spec keySize ⟨0, 0, spec.rawX, 0⟩ = spec.rawX := by
    rw [keyAddress_eq hdvd]
    simp [Nat.div_eq_of_lt hlonger, Nat.mod_eq_of_lt hlonger]
  rcases Nat.lt_or_ge 1 spec.blockSize with htwo | hone
  · have htok : keyAddress rawPages spec keySize ⟨0, 0, 0, 1⟩ = spec.rawX := by
      rw [keyAddress_eq hdvd]
      simp
    have heq := h.injective _ _ ⟨hpages, hheads, hlong, hblock⟩
      ⟨hpages, hheads, Nat.zero_lt_of_lt hlong, htwo⟩ (hnext.trans htok.symm)
    exact Nat.zero_ne_one (congrArg KeyElement.tok heq)
  · have hone : spec.blockSize = 1 := by omega
    have hcut : keyAddress rawPages spec keySize ⟨0, 0, 16 / keySize, 0⟩ = spec.rawX := by
      rw [keyAddress_eq hdvd]
      simp [Nat.div_self (by omega : 0 < 16 / keySize), hone]
    have heq := h.injective _ _ ⟨hpages, hheads, hlong, hblock⟩
      ⟨hpages, hheads, hblocks hone, hblock⟩ (hnext.trans hcut.symm)
    exact absurd (congrArg KeyElement.dim heq) (Nat.ne_of_lt hlonger)

end Necessary

end Addresses

theorem addressesKeys_of_empty {rawPages keySize : Nat} {spec : SizedSpec}
    (h : ∀ e : KeyElement, ¬ e.Within rawPages spec) : AddressesKeys rawPages spec keySize :=
  ⟨fun e _ he => absurd he (h e), fun e he => absurd he (h e)⟩

/-- Where the kernels cut the head as the view does, they address it as the view does. -/
theorem addressesKeys_of_sameSplit {rawPages keySize : Nat} {spec : SizedSpec}
    (hdvd : spec.rawX ∣ spec.headSize) (hkey : 0 < keySize) (hx : 0 < spec.rawX)
    (hsplit : SameSplit spec keySize) : AddressesKeys rawPages spec keySize := by
  have haddress : ∀ e : KeyElement, e.Within rawPages spec → keyAddress rawPages spec keySize e =
      offset (strides (rawKeyShape rawPages spec))
        [e.slot, e.head, e.dim / spec.rawX, e.tok, e.dim % spec.rawX] := fun e he =>
    (rawKOffset_of_sameSplit hdvd hkey hsplit he).trans (rawKOffset_rawX hdvd e)
  have hinside : ∀ e : KeyElement, e.Within rawPages spec →
      Inside [e.slot, e.head, e.dim / spec.rawX, e.tok, e.dim % spec.rawX]
        (rawKeyShape rawPages spec) := fun e he =>
    .cons he.slot (.cons he.head (.cons (Nat.div_lt_div_of_lt_of_dvd hdvd he.dim)
      (.cons he.tok (.cons (Nat.mod_lt _ hx) .nil))))
  refine ⟨fun e e' he he' heq => ?_, fun e he => ?_⟩
  · rw [haddress e he, haddress e' he'] at heq
    have hindex := offset_injective (hinside e he) (hinside e' he') heq
    simp only [List.cons.injEq, and_true] at hindex
    obtain ⟨hslot, hhead, hquot, htok, hmod⟩ := hindex
    have hdim : e.dim = e'.dim := by
      rw [← Nat.div_add_mod e.dim spec.rawX, hquot, hmod, Nat.div_add_mod]
    cases e
    cases e'
    simp_all
  · rw [haddress e he]
    exact offset_lt (hinside e he)

/-- **Raw key addressing.** Every element of the raw key pool has an address of its own in the pool
    exactly when the pool is empty, or the kernels cut the head as the view does. -/
theorem addressesKeys_iff (rawPages : Nat) (spec : SizedSpec) (keySize : Nat)
    (hcache : spec.dtypeSize ∈ [1, 2, 4]) (hkey : keySize ∈ [1, 2, 4])
    (hdvd : 16 / spec.dtypeSize ∣ spec.headSize) :
    AddressesKeys rawPages spec keySize ↔
      rawPages = 0 ∨ spec.numKvHeads = 0 ∨ spec.headSize = 0 ∨ spec.blockSize = 0 ∨
        SameSplit spec keySize := by
  have hsizes : ∀ size ∈ [1, 2, 4], 0 < size ∧ 0 < 16 / size := by decide
  have hx : 0 < spec.rawX := (hsizes _ hcache).2
  constructor
  · intro h
    refine or_iff_not_imp_left.mpr fun hpages => or_iff_not_imp_left.mpr fun hheads =>
      or_iff_not_imp_left.mpr fun hhead => or_iff_not_imp_left.mpr fun hblock => ?_
    replace hpages := Nat.pos_of_ne_zero hpages
    replace hheads := Nat.pos_of_ne_zero hheads
    replace hhead := Nat.pos_of_ne_zero hhead
    replace hblock := Nat.pos_of_ne_zero hblock
    have hlonger : ∀ d ∈ [1, 2, 4], ∀ k ∈ [1, 2, 4], k < d → 16 / d < 16 / k := by decide
    have hshorter : ∀ d ∈ [1, 2, 4], ∀ k ∈ [1, 2, 4], d < k → 2 * (16 / k) ≤ 16 / d := by decide
    rcases Nat.lt_trichotomy keySize spec.dtypeSize with hlt | heq | hgt
    · exact .inr ⟨hlt, h.short_of_longer hdvd hpages hheads hblock (hlonger _ hcache _ hkey hlt)⟩
    · exact .inl heq
    · exact absurd (hshorter _ hcache _ hkey hgt)
        (h.not_shorter hdvd (hsizes _ hkey).2 hpages hheads hhead hblock)
  · rintro (h0 | h0 | h0 | h0 | hsplit)
    · exact addressesKeys_of_empty fun e he => absurd he.slot (by omega)
    · exact addressesKeys_of_empty fun e he => absurd he.head (by omega)
    · exact addressesKeys_of_empty fun e he => absurd he.dim (by omega)
    · exact addressesKeys_of_empty fun e he => absurd he.tok (by omega)
    · exact addressesKeys_of_sameSplit hdvd (hsizes _ hkey).1 hx hsplit

/-- Keys of two bytes in a cache of two bytes. -/
theorem addressesKeys_fourPages : AddressesKeys 5 fourPages 2 :=
  (addressesKeys_iff 5 fourPages 2 (by decide) (by decide) (by decide)).mpr
    (.inr (.inr (.inr (.inr (.inl rfl)))))

/-- The layer with elements of one byte. -/
def bytePages : SizedSpec := { fourPages with dtypeSize := 1 }

/-- Keys of two bytes in a cache of one byte: dimension 8 of the last page is written behind the
    pool, and that of the page before on dimension 0 of the last. -/
theorem addressesKeys_fails :
    (⟨1, 0, 8, 0⟩ : KeyElement).Within 2 bytePages ∧
      (rawKeyShape 2 bytePages).prod = 512 ∧ keyAddress 2 bytePages 2 ⟨1, 0, 8, 0⟩ = 512 ∧
      keyAddress 2 bytePages 2 ⟨0, 0, 8, 0⟩ = keyAddress 2 bytePages 2 ⟨1, 0, 0, 0⟩ ∧
      ¬ AddressesKeys 2 bytePages 2 := by
  have hwithin : (⟨1, 0, 8, 0⟩ : KeyElement).Within 2 bytePages :=
    ⟨by decide, by decide, by decide, by decide⟩
  have haddress : keyAddress 2 bytePages 2 ⟨1, 0, 8, 0⟩ = 512 := by decide
  exact ⟨hwithin, by decide, haddress, by decide,
    fun h => absurd (h.bounded _ hwithin) (by rw [haddress]; decide)⟩

end Sock.Tmh
