/-
  LIBRARY. Chained digests.

  `digests step iv bs` is the list of the digests of the prefixes of `bs`: each block is hashed
  with the digest of what precedes it. No assumption is made on `step`; instead, two lists of
  blocks with an equal digest are equal up to there, or they exhibit a collision (`binding`).

  * `getElem?_digests`: the digest at an index is the fold over the prefix.
  * `digests_append`: hashing on from the last digest.
  * `Collides`: two different inputs of `step` on the way with one value, or a prefix whose
    digest is the initial value.
-/
import Mathlib.Data.List.Induction

namespace Lib.HashChain

variable {δ β : Type} (step : δ → β → δ) (iv : δ)

/-- The digests of the prefixes, shortest first. -/
def digests (iv : δ) : List β → List δ
  | [] => []
  | b :: bs => step iv b :: digests (step iv b) bs

@[simp] theorem length_digests (bs : List β) : (digests step iv bs).length = bs.length := by
  induction bs generalizing iv with
  | nil => rfl
  | cons b bs ih => simp [digests, ih]

theorem digests_append (bs cs : List β) :
    digests step iv (bs ++ cs) = digests step iv bs ++ digests step (bs.foldl step iv) cs := by
  induction bs generalizing iv with
  | nil => rfl
  | cons b bs ih => simp [digests, ih]

/-- The digest at an index is the digest of the prefix that ends there. -/
theorem getElem?_digests (bs : List β) {i : Nat} (hi : i < bs.length) :
    (digests step iv bs)[i]? = some ((bs.take (i + 1)).foldl step iv) := by
  induction bs generalizing iv i with
  | nil => simp at hi
  | cons b bs ih =>
      cases i with
      | zero => simp [digests]
      | succ i =>
          simp only [digests, List.getElem?_cons_succ, List.take_succ_cons, List.foldl_cons]
          exact ih (step iv b) (Nat.lt_of_succ_lt_succ hi)

/-- The last digest is the digest of all blocks. -/
theorem getLast?_digests {bs : List β} (hbs : bs ≠ []) :
    (digests step iv bs).getLast? = some (bs.foldl step iv) := by
  have hpos : 0 < bs.length := List.length_pos_iff.mpr hbs
  rw [List.getLast?_eq_getElem?, length_digests, getElem?_digests step iv bs (by omega),
    Nat.sub_add_cancel hpos, List.take_length]

/-- The digest of a prefix depends on the prefix only. -/
theorem digests_take (bs : List β) (n : Nat) :
    digests step iv (bs.take n) = (digests step iv bs).take n := by
  induction bs generalizing iv n with
  | nil => simp [digests]
  | cons b bs ih =>
      cases n with
      | zero => rfl
      | succ n => simp [digests, ih]

/-- Two inputs that differ and hash to one value, each met on the way through its list; or a
    prefix that hashes to the initial value. -/
def Collides (bs bs' : List β) : Prop :=
  (∃ u b v b', u ++ [b] <+: bs ∧ v ++ [b'] <+: bs' ∧
      (u.foldl step iv, b) ≠ (v.foldl step iv, b') ∧
        step (u.foldl step iv) b = step (v.foldl step iv) b') ∨
    ∃ u, u ≠ [] ∧ (u <+: bs ∨ u <+: bs') ∧ u.foldl step iv = iv

variable {step iv}

theorem Collides.mono {bs bs' cs cs' : List β} (h : Collides step iv bs bs') (hp : bs <+: cs)
    (hp' : bs' <+: cs') : Collides step iv cs cs' := by
  rcases h with ⟨u, b, v, b', hu, hv, hne, he⟩ | ⟨u, hu, hpre, he⟩
  · exact .inl ⟨u, b, v, b', hu.trans hp, hv.trans hp', hne, he⟩
  · exact .inr ⟨u, hu, hpre.imp (·.trans hp) (·.trans hp'), he⟩

/-- A single block collides with itself only when it hashes to the initial value. -/
theorem not_collides_singleton {b : β} (h : step iv b ≠ iv) : ¬ Collides step iv [b] [b] := by
  have hpre : ∀ {u : List β} {c : β}, u ++ [c] <+: [b] → u = [] ∧ c = b := by
    intro u c hu
    have hnil : u = [] := List.length_eq_zero_iff.mp (by simpa using hu.length_le)
    subst hnil
    exact ⟨rfl, by simpa using hu⟩
  rintro (⟨u, c, v, c', hu, hv, hne, -⟩ | ⟨u, hne, hu, he⟩)
  · obtain ⟨rfl, rfl⟩ := hpre hu
    obtain ⟨rfl, rfl⟩ := hpre hv
    exact hne rfl
  · obtain ⟨v, c, rfl⟩ := (List.eq_nil_or_concat u).resolve_left hne
    rw [List.concat_eq_append, or_self] at hu
    obtain ⟨rfl, rfl⟩ := hpre hu
    exact h he

/-- **Binding.** Lists of blocks with one digest are equal, or they collide. -/
theorem binding (bs bs' : List β) (h : bs.foldl step iv = bs'.foldl step iv) :
    bs = bs' ∨ Collides step iv bs bs' := by
  induction bs using List.reverseRecOn generalizing bs' with
  | nil =>
      rcases List.eq_nil_or_concat bs' with rfl | ⟨v, b', rfl⟩
      · exact .inl rfl
      · refine .inr (.inr ⟨_, by simp, .inr List.prefix_rfl, h.symm⟩)
  | append_singleton u b ih =>
      rcases List.eq_nil_or_concat bs' with rfl | ⟨v, b', rfl⟩
      · exact .inr (.inr ⟨u ++ [b], by simp, .inl List.prefix_rfl, h⟩)
      · simp only [List.concat_eq_append, List.foldl_append, List.foldl_cons, List.foldl_nil] at h ⊢
        by_cases he : (u.foldl step iv, b) = (v.foldl step iv, b')
        · -- the last inputs agree, so the shorter lists have one digest
          obtain ⟨hfold, rfl⟩ := Prod.mk.inj he
          rcases ih v hfold with rfl | hc
          · exact .inl rfl
          · exact .inr (hc.mono (List.prefix_append u [b]) (List.prefix_append v [b]))
        · exact .inr (.inl ⟨u, b, v, b', List.prefix_rfl, List.prefix_rfl, he, h⟩)

end Lib.HashChain
