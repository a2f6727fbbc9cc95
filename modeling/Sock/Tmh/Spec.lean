/-
  TMH fidelity-paged KV storage: page roles, page descriptors, physical events and the layer
  spec (`tmh_policy.py`, `tmh_physical.py`, `kv_cache_interface.py`).

  The scheduler side (`Sock.Tmh.Policy`) writes descriptors and events, the worker side
  (`Sock.Tmh.Physical`) applies them. Requests and layers are names of any type with decidable
  equality: the source compares the strings and looks them up, nothing else.

  Percentages and ratios are rationals, and the source rounds what it computes from them to
  doubles. The functions that do so take the rounding as their last argument: `.binary64` is the
  source's, and a rounding that is not named is exact.

  Not modelled: the pool tensors' contents.
-/
import Sock.Lib.Rounding

namespace Sock.Tmh

open Lib

/-! ## Roles, storage, quantisation -/

/-- `TMHPageRole`. -/
inductive PageRole where
  | pinnedRaw
  | hotRaw
  | warmInt8Int4
  | warmInt8Int8
  deriving DecidableEq, Repr

namespace PageRole

/-- `int(role)`, the value the role tables store. -/
def toInt : PageRole → Int
  | pinnedRaw => 0
  | hotRaw => 1
  | warmInt8Int4 => 2
  | warmInt8Int8 => 3

/-- `role in (PINNED_RAW, HOT_RAW)`: pages of the role live in the raw pool. -/
def raw : PageRole → Bool
  | pinnedRaw => true
  | hotRaw => true
  | warmInt8Int4 => false
  | warmInt8Int8 => false

@[simp] theorem raw_pinnedRaw : pinnedRaw.raw = true := rfl

@[simp] theorem raw_hotRaw : hotRaw.raw = true := rfl

theorem toInt_nonneg (k : PageRole) : 0 ≤ k.toInt := by
  cases k <;> decide

end PageRole

/-- `TMHStorageKind`. -/
inductive StorageKind where
  | canonical
  | requestOverlay
  deriving DecidableEq, Repr

/-- The quantisation modes a descriptor names. -/
inductive QuantMode where
  | raw
  | int8PerTokenHead
  | int4PerTokenHead
  deriving DecidableEq, Repr

/-- `_quant_modes_for_role`: the modes of keys and values. -/
def quantModesForRole : PageRole → QuantMode × QuantMode
  | .pinnedRaw => (.raw, .raw)
  | .hotRaw => (.raw, .raw)
  | .warmInt8Int4 => (.int8PerTokenHead, .int4PerTokenHead)
  | .warmInt8Int8 => (.int8PerTokenHead, .int8PerTokenHead)

/-- `_storage_kind_for_role`; policy and runtime each define it, with the same body. -/
def storageKindForRole (role : PageRole) (prefixCached : Bool) : StorageKind :=
  match role with
  | .warmInt8Int4 => .canonical
  | .warmInt8Int8 => .canonical
  | .pinnedRaw => .canonical
  | .hotRaw => if prefixCached then .requestOverlay else .canonical

theorem storageKindForRole_overlay {role : PageRole} {c : Bool} :
    storageKindForRole role c = .requestOverlay ↔ role = .hotRaw ∧ c = true := by
  cases role <;> cases c <;> simp [storageKindForRole]

@[simp] theorem storageKindForRole_false (role : PageRole) :
    storageKindForRole role false = .canonical := by
  cases role <;> rfl

/-! ## Descriptors and events -/

section Names

variable (Req Layer : Type)

/-- `TMHPhysicalPageDescriptor`. -/
structure PhysicalPageDescriptor where
  requestId : Req
  layerName : Layer
  logicalBlockId : Int
  pageIndex : Int
  role : PageRole
  storage : StorageKind
  prefixCached : Bool
  kQuantMode : QuantMode
  vQuantMode : QuantMode
  deriving DecidableEq

/-- `TMHPhysicalEvent`. -/
structure PhysicalEvent where
  requestId : Req
  descriptors : List (PhysicalPageDescriptor Req Layer)
  totalPages : Int
  recentStartPage : Int
  hotPages : Int
  releasedRequestIds : List Req := []
  releasedDescriptors : List (PhysicalPageDescriptor Req Layer) := []

end Names

variable {Req Layer : Type}

/-- The key under which a page's descriptor is kept: request, layer and page index. -/
def PhysicalPageDescriptor.key (d : PhysicalPageDescriptor Req Layer) : Req × Layer × Int :=
  (d.requestId, d.layerName, d.pageIndex)

/-- `_canonical_descriptor_key`: layer, block and role, for a page kept canonically. -/
def canonicalDescriptorKey (d : PhysicalPageDescriptor Req Layer) :
    Option (Layer × Int × PageRole) :=
  match d.storage with
  | .canonical => some (d.layerName, d.logicalBlockId, d.role)
  | .requestOverlay => none

theorem canonicalDescriptorKey_eq_some {d : PhysicalPageDescriptor Req Layer} {l : Layer} {b : Int}
    {k : PageRole} : canonicalDescriptorKey d = some (l, b, k) ↔
      d.storage = .canonical ∧ d.layerName = l ∧ d.logicalBlockId = b ∧ d.role = k := by
  unfold canonicalDescriptorKey
  cases d.storage <;> simp

/-! ## The layer spec -/

/-- `TMHFullAttentionSpec`, as far as pools and kernels read it. -/
structure FullAttentionSpec where
  blockSize : Nat
  tmhHotBudgetPct : ℚ := 25
  tmhLateLayer : Bool := false
  tmhMaxNumSeqs : Nat := 1
  tmhMaxModelPages : Nat := 1

namespace FullAttentionSpec

/-- `physical_pool_page_counts`: how many raw and warm pages back `numLogicalBlocks` blocks. -/
def physicalPoolPageCounts (spec : FullAttentionSpec) (numLogicalBlocks : Nat)
    (r : Rounding := .exact) : Nat × Nat :=
  if numLogicalBlocks ≤ 0 then (0, 0)
  else
    let hotRatio : ℚ := max 0 (min 1 (r (spec.tmhHotBudgetPct / 100)))
    let anchorPages := min numLogicalBlocks spec.tmhMaxNumSeqs
    let nonAnchorPages := max 0 (numLogicalBlocks - anchorPages)
    let rawPages :=
      min numLogicalBlocks (anchorPages + ⌈r (r nonAnchorPages * hotRatio)⌉.toNat)
    (rawPages, max 0 (numLogicalBlocks - rawPages))

/-- Together the two pools have one page for each logical block. -/
theorem physicalPoolPageCounts_add (spec : FullAttentionSpec) (n : Nat) (r : Rounding) :
    (spec.physicalPoolPageCounts n r).1 + (spec.physicalPoolPageCounts n r).2 = n := by
  unfold physicalPoolPageCounts
  split
  · omega
  · dsimp only
    omega

end FullAttentionSpec

end Sock.Tmh
