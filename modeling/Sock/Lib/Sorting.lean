/-
  LIBRARY. Sorting by a comparison.

  * `sortBy cmp`, `sort`: the stable sort of a list; `sortBy_perm`, `pairwise_sortBy`,
    `sortBy_sortBy`, `map_sortBy`, `sublist_sortBy_cons`; `filter_sortBy`: items that compare as
    equal keep their order; `sortBy_eq_of_perm`: without such items the result does not depend on
    the order of the list; `mem_drop_iff_of_pairwise`: what the items from a position on have in
    common.
  * `dedup`: drops an item equal to the one before it; `mem_dedup`, `pairwise_lt_dedup_sortBy`;
    `dedup_sort_eq_iff`: a sorted list without repetitions is determined by its members.
-/
import Mathlib.Data.List.Sort
import Mathlib.Data.List.Destutter

namespace Lib

open Std

variable {α : Type}

/-- The stable sort by `cmp`. -/
def sortBy (cmp : α → α → Ordering) (l : List α) : List α :=
  l.insertionSort fun a b => (cmp a b).isLE

/-- The stable sort by the order of the items. -/
def sort [Ord α] (l : List α) : List α := sortBy compare l

theorem sortBy_perm (cmp : α → α → Ordering) (l : List α) : (sortBy cmp l).Perm l :=
  List.perm_insertionSort _ l

theorem sort_perm [Ord α] (l : List α) : (sort l).Perm l := sortBy_perm _ l

theorem pairwise_sortBy (cmp : α → α → Ordering) [TransCmp cmp] (l : List α) :
    (sortBy cmp l).Pairwise fun a b => (cmp a b).isLE := by
  have htrans : IsTrans α fun a b => (cmp a b).isLE := ⟨fun _ _ _ => TransCmp.isLE_trans⟩
  have htotal : Std.Total fun a b : α => (cmp a b).isLE := ⟨fun a b => by
    have hswap : cmp b a = (cmp a b).swap := OrientedCmp.eq_swap
    rw [hswap]
    cases cmp a b <;> simp⟩
  exact List.pairwise_insertionSort _ l

/-- Sorting a sorted list changes nothing. -/
@[simp] theorem sortBy_sortBy (cmp : α → α → Ordering) [TransCmp cmp] (l : List α) :
    sortBy cmp (sortBy cmp l) = sortBy cmp l :=
  (pairwise_sortBy cmp l).insertionSort_eq

@[simp] theorem sort_sort [Ord α] [TransOrd α] (l : List α) : sort (sort l) = sort l :=
  sortBy_sortBy compare l

/-- Sorting commutes with a map under which the comparisons agree. -/
theorem map_sortBy {β : Type} {cmp : α → α → Ordering} {cmp' : β → β → Ordering} {f : α → β}
    (h : ∀ a b, cmp a b = cmp' (f a) (f b)) (l : List α) :
    (sortBy cmp l).map f = sortBy cmp' (l.map f) :=
  List.map_insertionSort _ _ f l fun a _ b _ => by rw [h]

/-- Lists that are permutations of each other are sorted to one list, if no two different items
    compare as equal. -/
theorem sortBy_eq_of_perm {cmp : α → α → Ordering} [TransCmp cmp] {l l' : List α}
    (hperm : l.Perm l') (hties : ∀ a ∈ l, ∀ b ∈ l, cmp a b = .eq → a = b) :
    sortBy cmp l = sortBy cmp l' := by
  have hsorted : (sortBy cmp l).Perm (sortBy cmp l') :=
    (sortBy_perm cmp l).trans (hperm.trans (sortBy_perm cmp l').symm)
  apply hsorted.eq_of_pairwise _ (pairwise_sortBy cmp l) (pairwise_sortBy cmp l')
  intro a b ha hb hab hba
  apply hties a ((sortBy_perm cmp l).mem_iff.mp ha) b
    (hperm.mem_iff.mpr ((sortBy_perm cmp l').mem_iff.mp hb))
  have hswap : cmp b a = (cmp a b).swap := OrientedCmp.eq_swap
  rw [hswap] at hba
  cases hcmp : cmp a b <;> simp_all

/-- The items that compare as equal to `a` keep their order. -/
theorem filter_sortBy {cmp : α → α → Ordering} [TransCmp cmp] (a : α) (l : List α) :
    (sortBy cmp l).filter (fun b => cmp a b = .eq) = l.filter fun b => cmp a b = .eq := by
  set tied : α → Bool := fun b => cmp a b = .eq
  have hequal : (l.filter tied).Pairwise fun b c => (cmp b c).isLE = true := by
    apply List.pairwise_of_forall_mem_list
    intro b hb c hc
    have hab : cmp a b = .eq := of_decide_eq_true (List.mem_filter.mp hb).2
    have hac : cmp a c = .eq := of_decide_eq_true (List.mem_filter.mp hc).2
    rw [TransCmp.eq_trans (OrientedCmp.eq_symm hab) hac]
    rfl
  have hsub : (l.filter tied).Sublist ((sortBy cmp l).filter tied) := by
    have h := (List.sublist_insertionSort hequal List.filter_sublist).filter tied
    simp only [List.filter_filter, Bool.and_self] at h
    exact h
  have hperm : ((sortBy cmp l).filter tied).Perm (l.filter tied) := (sortBy_perm cmp l).filter tied
  exact (hsub.eq_of_length hperm.length_eq.symm).symm

/-- The first item comes before the items that it is not greater than. -/
theorem sublist_sortBy_cons {cmp : α → α → Ordering} {a b : α} {l : List α}
    (hle : (cmp a b).isLE = true) (h : b ∈ l) : [a, b].Sublist (sortBy cmp (a :: l)) := by
  have hmem : b ∈ sortBy cmp l := (sortBy_perm cmp l).mem_iff.mpr h
  show [a, b].Sublist (List.orderedInsert _ a (sortBy cmp l))
  generalize sortBy cmp l = sorted at hmem
  induction sorted with
  | nil => cases hmem
  | cons c sorted ih =>
      rw [List.orderedInsert_cons]
      split
      case isTrue => exact (List.singleton_sublist.mpr hmem).cons_cons a
      case isFalse hgreater =>
        refine (ih ((List.mem_cons.mp hmem).resolve_left ?_)).cons c
        rintro rfl
        exact hgreater hle

/-- The items from position `k` on are those with `p` exactly when there are as many, and they come
    after the others. -/
theorem mem_drop_iff_of_pairwise {r : α → α → Prop} (hasymm : ∀ a b, r a b → ¬ r b a) {l : List α}
    (hl : l.Pairwise r) (k : Nat) (p : α → Bool) :
    (∀ a ∈ l, a ∈ l.drop k ↔ p a = true) ↔
      l.countP p = l.length - k ∧ ∀ a ∈ l, ∀ b ∈ l, p a = true → p b = false → r b a := by
  have hsplit := List.take_append_drop k l
  have hcount : l.countP p = (l.take k).countP p + (l.drop k).countP p := by
    rw [← List.countP_append, hsplit]
  have hlen : (l.drop k).length = l.length - k := List.length_drop
  have hmem : ∀ a, a ∈ l ↔ a ∈ l.take k ∨ a ∈ l.drop k := fun a => by
    rw [← List.mem_append, hsplit]
  have hbefore : ∀ b ∈ l.take k, ∀ a ∈ l.drop k, r b a :=
    (List.pairwise_append.mp (hsplit.symm ▸ hl)).2.2
  rw [hcount, ← hlen]
  constructor
  · intro h
    have hnone : ∀ b ∈ l.take k, ¬ p b = true := fun b hb hpb => by
      have hdrop := (h b ((hmem b).mpr (.inl hb))).mpr hpb
      exact hasymm b b (hbefore b hb b hdrop) (hbefore b hb b hdrop)
    have hall : ∀ a ∈ l.drop k, p a = true := fun a ha => (h a ((hmem a).mpr (.inr ha))).mp ha
    refine ⟨?_, fun a ha b hb hpa hpb => ?_⟩
    · rw [List.countP_eq_zero.mpr hnone, List.countP_eq_length.mpr hall, Nat.zero_add]
    · have hfirst : b ∈ l.take k := ((hmem b).mp hb).resolve_right fun hdrop =>
        Bool.false_ne_true (hpb.symm.trans (hall b hdrop))
      exact hbefore b hfirst a ((h a ha).mpr hpa)
  · rintro ⟨htotal, hupper⟩ a ha
    constructor
    · -- a later item without `p` leaves too few
      intro hdrop
      by_contra hpa
      have hpa : p a = false := Bool.eq_false_iff.mpr hpa
      have hnone : ∀ b ∈ l.take k, ¬ p b = true := fun b hb hpb =>
        hasymm b a (hbefore b hb a hdrop) (hupper b ((hmem b).mpr (.inl hb)) a ha hpb hpa)
      have hfew : (l.drop k).countP p < (l.drop k).length :=
        Nat.lt_of_le_of_ne List.countP_le_length fun heq =>
          Bool.false_ne_true (hpa.symm.trans (List.countP_eq_length.mp heq a hdrop))
      rw [List.countP_eq_zero.mpr hnone] at htotal
      omega
    · -- an earlier item with `p` makes too many
      intro hpa
      by_contra hdrop
      have htake : a ∈ l.take k := ((hmem a).mp ha).resolve_right hdrop
      have hall : ∀ b ∈ l.drop k, p b = true := fun b hb => by
        by_contra hpb
        exact hasymm a b (hbefore a htake b hb)
          (hupper a ha b ((hmem b).mpr (.inr hb)) hpa (Bool.eq_false_iff.mpr hpb))
      have hsome : 0 < (l.take k).countP p := List.countP_pos_iff.mpr ⟨a, htake, hpa⟩
      rw [List.countP_eq_length.mpr hall] at htotal
      omega

/-! ## Repetitions -/

/-- Drops an item that equals the one before it. -/
def dedup [DecidableEq α] (l : List α) : List α := l.destutter (· ≠ ·)

theorem mem_destutter'_ne [DecidableEq α] {a x : α} {l : List α} :
    x ∈ l.destutter' (· ≠ ·) a ↔ x = a ∨ x ∈ l := by
  induction l generalizing a with
  | nil => simp
  | cons b l ih =>
      by_cases hab : a = b
      · rw [List.destutter'_cons_neg _ (not_not.mpr hab), ih, List.mem_cons, hab]
        tauto
      · rw [List.destutter'_cons_pos _ hab, List.mem_cons, ih, List.mem_cons]

@[simp] theorem mem_dedup [DecidableEq α] {x : α} {l : List α} : x ∈ dedup l ↔ x ∈ l := by
  cases l with
  | nil => rfl
  | cons a l => rw [dedup, List.destutter_cons', mem_destutter'_ne, List.mem_cons]

/-- Sorted and without repetitions: strictly increasing. -/
theorem pairwise_lt_dedup_sortBy [DecidableEq α] (cmp : α → α → Ordering) [TransCmp cmp]
    [LawfulEqCmp cmp] (l : List α) :
    (dedup (sortBy cmp l)).Pairwise fun a b => cmp a b = .lt := by
  have hle : (dedup (sortBy cmp l)).Pairwise fun a b => (cmp a b).isLE :=
    (pairwise_sortBy cmp l).sublist (List.destutter_sublist _ _)
  have hne : (dedup (sortBy cmp l)).IsChain (· ≠ ·) := List.isChain_destutter _ _
  have htrans : IsTrans α fun a b => cmp a b = .lt := ⟨fun _ _ _ => TransCmp.lt_trans⟩
  rw [← List.isChain_iff_pairwise, List.isChain_iff_forall_rel_of_append_cons_cons]
  intro a b l₁ l₂ hsplit
  have hle := List.isChain_iff_forall_rel_of_append_cons_cons.mp hle.isChain hsplit
  have hne := List.isChain_iff_forall_rel_of_append_cons_cons.mp hne hsplit
  cases hcmp : cmp a b with
  | lt => rfl
  | eq => exact absurd (LawfulEqCmp.eq_of_compare hcmp) hne
  | gt =>
      rw [hcmp] at hle
      cases hle

/-- A sorted list without repetitions is determined by its members. -/
theorem dedup_sort_eq_iff [DecidableEq α] [Ord α] [TransOrd α] [LawfulEqOrd α] {l l' : List α} :
    dedup (sort l) = dedup (sort l') ↔ ∀ a, a ∈ l ↔ a ∈ l' := by
  have hmem : ∀ (m : List α) (a : α), a ∈ dedup (sort m) ↔ a ∈ m := fun m a => by
    rw [mem_dedup, (sort_perm m).mem_iff]
  constructor
  · intro heq a
    rw [← hmem l, heq, hmem]
  · intro h
    have hirrefl : Std.Irrefl fun a b : α => compare a b = .lt := ⟨fun a => by simp⟩
    have hantisymm : Std.Antisymm fun a b : α => compare a b = .lt :=
      ⟨fun a b hab hba => by simp [OrientedCmp.gt_of_lt hab] at hba⟩
    apply (pairwise_lt_dedup_sortBy compare l).eq_of_mem_iff (pairwise_lt_dedup_sortBy compare l')
    intro a
    exact (hmem l a).trans ((h a).trans (hmem l' a).symm)

@[simp] theorem dedup_sort_dedup_sort [DecidableEq α] [Ord α] [TransOrd α] [LawfulEqOrd α]
    (l : List α) : dedup (sort (dedup (sort l))) = dedup (sort l) :=
  dedup_sort_eq_iff.mpr fun a => by rw [mem_dedup, (sort_perm l).mem_iff]

end Lib
