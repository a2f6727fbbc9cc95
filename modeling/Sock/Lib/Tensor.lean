/-
  LIBRARY. Tensors in a buffer.

  * `strides`, `offset`: a contiguous tensor is addressed in mixed radix, the last index fastest.
    An index inside the shape has an offset below the number of elements (`offset_lt`), and no
    two have the same (`offset_injective`).
  * `alignUp`: the next multiple of an element size.
  * `Piece`, `Carved`: pieces cut from a buffer one after the other, each aligned. `Carved.take`
    cuts the next; `Carved.disjoint` says that no byte is in two of them.
-/
import Mathlib.Algebra.Group.Nat.Defs
import Mathlib.Data.List.Forall2
import Mathlib.Data.Set.BooleanAlgebra
import Mathlib.Data.Set.Disjoint
import Mathlib.Order.CompletePartialOrder
import Mathlib.Order.Interval.Set.Basic
import Mathlib.Tactic.Common

namespace Lib.Tensor

/-! ## Addressing -/

/-- The strides of a contiguous tensor: how far one step of each index moves. -/
def strides : List Nat → List Nat
  | [] => []
  | _ :: shape => shape.prod :: strides shape

/-- The offset of the element at an index. -/
def offset : (strides index : List Nat) → Nat
  | stride :: strides, i :: index => i * stride + offset strides index
  | _, _ => 0

/-- The index is inside the shape. -/
abbrev Inside (index shape : List Nat) : Prop := List.Forall₂ (· < ·) index shape

theorem offset_lt {index shape : List Nat} (h : Inside index shape) :
    offset (strides shape) index < shape.prod := by
  induction h with
  | nil => exact Nat.one_pos
  | @cons i n index shape hi _ ih =>
      calc i * shape.prod + offset (strides shape) index
        _ < i * shape.prod + shape.prod := Nat.add_lt_add_left ih _
        _ = (i + 1) * shape.prod := (Nat.succ_mul _ _).symm
        _ ≤ n * shape.prod := Nat.mul_le_mul_right _ hi
        _ = (n :: shape).prod := List.prod_cons.symm

/-- Quotient and remainder determine a number. -/
theorem eq_of_mul_add_eq {i j a b n : Nat} (ha : a < n) (hb : b < n)
    (h : i * n + a = j * n + b) : i = j ∧ a = b := by
  have hn : 0 < n := Nat.zero_lt_of_lt ha
  have hi : (j * n + b) / n = i ∧ (j * n + b) % n = a :=
    (Nat.div_mod_unique hn).mpr ⟨by rw [← h, Nat.mul_comm n, Nat.add_comm], ha⟩
  have hj : (j * n + b) / n = j ∧ (j * n + b) % n = b :=
    (Nat.div_mod_unique hn).mpr ⟨by rw [Nat.mul_comm n, Nat.add_comm], hb⟩
  exact ⟨hi.1.symm.trans hj.1, hi.2.symm.trans hj.2⟩

theorem offset_injective {index index' shape : List Nat} (h : Inside index shape)
    (h' : Inside index' shape)
    (heq : offset (strides shape) index = offset (strides shape) index') : index = index' := by
  induction h generalizing index' with
  | nil =>
      cases h'
      rfl
  | cons hi htail ih =>
      cases h' with
      | cons hi' htail' =>
          obtain ⟨hhead, hrest⟩ := eq_of_mul_add_eq (offset_lt htail) (offset_lt htail') heq
          rw [hhead, ih htail' hrest]

/-! ## Carving -/

/-- The next multiple of `size`, by adding what the remainder lacks. -/
def alignUp (size cursor : Nat) : Nat :=
  if cursor % size ≠ 0 then cursor + (size - cursor % size) else cursor

theorem le_alignUp (size cursor : Nat) : cursor ≤ alignUp size cursor := by
  unfold alignUp
  split <;> omega

theorem alignUp_lt {size : Nat} (hsize : 0 < size) (cursor : Nat) :
    alignUp size cursor < cursor + size := by
  unfold alignUp
  split <;> omega

theorem dvd_alignUp {size : Nat} (hsize : 0 < size) (cursor : Nat) :
    size ∣ alignUp size cursor := by
  unfold alignUp
  split
  · have hmod := Nat.mod_lt cursor hsize
    have hdiv := Nat.div_add_mod cursor size
    exact ⟨cursor / size + 1, by rw [Nat.mul_succ]; omega⟩
  · next h => exact Nat.dvd_of_mod_eq_zero (not_not.mp h)

theorem alignUp_of_dvd {size cursor : Nat} (h : size ∣ cursor) : alignUp size cursor = cursor :=
  if_neg (not_not.mpr (Nat.mod_eq_zero_of_dvd h))

/-- Bytes `start` to `stop` of a buffer, read as elements of one size. -/
structure Piece where
  elementSize : Nat
  start : Nat
  stop : Nat
  deriving DecidableEq, Repr

/-- The bytes of a piece. -/
def Piece.bytes (r : Piece) : Set Nat := Set.Ico r.start r.stop

/-- The pieces were cut one after the other, each aligned, and end by `cursor`. -/
structure Carved (pieces : List Piece) (cursor : Nat) : Prop where
  aligned : ∀ r ∈ pieces, r.elementSize ∣ r.start
  within : ∀ r ∈ pieces, r.stop ≤ cursor
  ordered : pieces.Pairwise fun a b => a.stop ≤ b.start

theorem carved_nil : Carved [] 0 := ⟨nofun, nofun, .nil⟩

/-- The next piece starts at the next multiple of its element size. -/
theorem Carved.take {pieces : List Piece} {cursor : Nat} (h : Carved pieces cursor)
    {size : Nat} (hsize : 0 < size) (length : Nat) :
    Carved (pieces ++ [⟨size, alignUp size cursor, alignUp size cursor + length⟩])
      (alignUp size cursor + length) := by
  have hle := le_alignUp size cursor
  refine ⟨fun r hr => ?_, fun r hr => ?_, ?_⟩
  · rcases List.mem_append.mp hr with hr | hr
    · exact h.aligned r hr
    · cases List.mem_singleton.mp hr
      exact dvd_alignUp hsize cursor
  · rcases List.mem_append.mp hr with hr | hr
    · exact (h.within r hr).trans (by omega)
    · cases List.mem_singleton.mp hr
      exact le_refl _
  · refine List.pairwise_append.mpr ⟨h.ordered, List.pairwise_singleton _ _, fun a ha b hb => ?_⟩
    cases List.mem_singleton.mp hb
    exact (h.within a ha).trans hle

theorem Carved.disjoint {pieces : List Piece} {cursor : Nat} (h : Carved pieces cursor) :
    pieces.Pairwise fun a b => Disjoint a.bytes b.bytes :=
  h.ordered.imp fun hab => Set.disjoint_left.mpr fun _ ha hb =>
    absurd (Nat.lt_of_lt_of_le ha.2 hab) (not_lt.mpr hb.1)

end Lib.Tensor
