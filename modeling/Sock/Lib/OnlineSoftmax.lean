/-
  LIBRARY. Softmax over keys that arrive in tiles.

  A score is a number, or `none` for minus infinity. The weight of a key is the exponential of its
  score. The running state keeps the sum of the weights and the weighted sum of the values relative
  to a reference, which only serves to keep the numbers small: whatever it is, it cancels.

  * `State.Holds st W T`: the state stands for the total weight `W` and the weighted values `T`.
  * `step_holds`: a tile adds its keys.
  * `merge_eq`: states over disjoint parts of the keys merge into the softmax over all of them.

  The numbers are an ordered field with an exponential.
-/
import Mathlib.Algebra.BigOperators.Intervals
import Mathlib.Algebra.BigOperators.Ring.List
import Mathlib.Algebra.Order.Field.Basic
import Mathlib.Tactic.Ring

namespace Lib.OnlineSoftmax

/-- An exponential. -/
structure Exponential (K : Type) [Field K] [LinearOrder K] where
  exp : K → K
  exp_pos : ∀ x, 0 < exp x
  exp_add : ∀ x y, exp (x + y) = exp x * exp y

variable {K D : Type} [Field K] [LinearOrder K] (E : Exponential K)

/-- A key: its score and its value. -/
structure Key (K D : Type) where
  score : Option K
  value : D → K

/-- The exponential of a score relative to a reference. -/
def shifted (s : Option K) (m : K) : K :=
  match s with
  | none => 0
  | some s => E.exp (s - m)

/-- The weight of a score. -/
def weight (s : Option K) : K :=
  match s with
  | none => 0
  | some s => E.exp s

/-- The total weight of keys. -/
def totalWeight (keys : List (Key K D)) : K := (keys.map fun k => weight E k.score).sum

/-- The weighted sum of the values. -/
def totalValue (keys : List (Key K D)) (d : D) : K :=
  (keys.map fun k => weight E k.score * k.value d).sum

/-- The reference, the sum of the weights and the accumulated values. -/
structure State (K D : Type) where
  ref : Option K
  sum : K
  acc : D → K

/-- The larger of two scores. -/
def maxScore : Option K → Option K → Option K
  | none, t => t
  | some s, none => some s
  | some s, some t => some (max s t)

/-- One tile. A tile and a state without a finite score take zero as the reference. -/
def step (st : State K D) (tile : List (Key K D)) : State K D :=
  let m := ((tile.map Key.score).foldl maxScore st.ref).getD 0
  let alpha := shifted E st.ref m
  { ref := some m
    sum := st.sum * alpha + (tile.map fun k => shifted E k.score m).sum
    acc := fun d => st.acc d * alpha + (tile.map fun k => shifted E k.score m * k.value d).sum }

/-- All tiles. -/
def run (st : State K D) (tiles : List (List (Key K D))) : State K D := tiles.foldl (step E) st

/-- The state stands for the weight `W` and the values `T`. -/
def State.Holds (st : State K D) (W : K) (T : D → K) : Prop :=
  match st.ref with
  | none => W = 0 ∧ ∀ d, T d = 0
  | some m => W = st.sum * E.exp m ∧ ∀ d, T d = st.acc d * E.exp m

variable {E} {st : State K D} {W : K} {T : D → K}

theorem shifted_mul_exp (s : Option K) (m : K) : shifted E s m * E.exp m = weight E s := by
  cases s with
  | none => exact zero_mul _
  | some s => rw [shifted, weight, ← E.exp_add, sub_add_cancel]

/-- What the state stands for, seen from any reference. -/
theorem State.Holds.at (h : st.Holds E W T) (m : K) :
    st.sum * shifted E st.ref m * E.exp m = W ∧
      ∀ d, st.acc d * shifted E st.ref m * E.exp m = T d := by
  simp only [mul_assoc, shifted_mul_exp]
  unfold State.Holds at h
  cases href : st.ref with
  | none =>
      rw [href] at h
      simpa [weight, eq_comm] using h
  | some r =>
      rw [href] at h
      exact ⟨h.1.symm, fun d => (h.2 d).symm⟩

theorem sum_shifted_mul_exp (tile : List (Key K D)) (m : K) :
    (tile.map fun k => shifted E k.score m).sum * E.exp m = totalWeight E tile := by
  simp only [totalWeight, ← List.sum_map_mul_right, shifted_mul_exp]

theorem sum_shifted_value_mul_exp (tile : List (Key K D)) (m : K) (d : D) :
    (tile.map fun k => shifted E k.score m * k.value d).sum * E.exp m = totalValue E tile d := by
  rw [← List.sum_map_mul_right]
  simp only [totalValue, mul_right_comm _ _ (E.exp m), shifted_mul_exp]

/-- A tile adds its weights and values. -/
theorem step_holds (h : st.Holds E W T) (tile : List (Key K D)) :
    (step E st tile).Holds E (W + totalWeight E tile) fun d => T d + totalValue E tile d := by
  obtain ⟨hW, hT⟩ := h.at (((tile.map Key.score).foldl maxScore st.ref).getD 0)
  refine ⟨?_, fun d => (?_ : T d + totalValue E tile d = _)⟩
  · rw [← hW, ← sum_shifted_mul_exp, ← add_mul]
    rfl
  · rw [← hT d, ← sum_shifted_value_mul_exp, ← add_mul]
    rfl

theorem totalWeight_append (u v : List (Key K D)) :
    totalWeight E (u ++ v) = totalWeight E u + totalWeight E v := by
  simp [totalWeight]

theorem totalValue_append (u v : List (Key K D)) (d : D) :
    totalValue E (u ++ v) d = totalValue E u d + totalValue E v d := by
  simp [totalValue]

/-- A run adds the keys of all its tiles. -/
theorem run_holds (h : st.Holds E W T) (tiles : List (List (Key K D))) :
    (run E st tiles).Holds E (W + totalWeight E tiles.flatten)
      fun d => T d + totalValue E tiles.flatten d := by
  induction tiles generalizing st W T with
  | nil => simpa [run, totalWeight, totalValue] using h
  | cons tile tiles ih =>
      have hrest := ih (step_holds h tile)
      simpa only [run, List.foldl_cons, List.flatten_cons, totalWeight_append, totalValue_append,
        add_assoc] using hrest

/-- The quotient does not depend on the reference. -/
theorem State.Holds.quotient (h : st.Holds E W T) (hW : W ≠ 0) (d : D) :
    st.acc d / st.sum = T d / W := by
  unfold State.Holds at h
  cases href : st.ref with
  | none =>
      rw [href] at h
      exact absurd h.1 hW
  | some m =>
      rw [href] at h
      rw [h.1, h.2 d, mul_div_mul_right _ _ (E.exp_pos m).ne']

/-! ## Tiles of positions -/

omit [LinearOrder K] in
theorem sum_range_map {f : ℕ → K} (n : ℕ) :
    ((List.range n).map f).sum = ∑ t ∈ Finset.range n, f t := by
  induction n with
  | zero => rfl
  | succ n ih => simp [List.range_succ, Finset.sum_range_succ, ih]

omit [LinearOrder K] in
/-- A sum over the tiles `lo` to `lo + n`, of `size` keys each, is one over their positions. -/
theorem sum_tiles {κ : Type} {key : ℕ → ℕ → κ} {g : κ → K} {f : ℕ → K} {size : ℕ}
    (h : ∀ j, ∀ t < size, g (key j t) = f (j * size + t)) (lo n : ℕ) :
    (((List.range' lo n).map fun j => (List.range size).map (key j)).flatten.map g).sum =
      ∑ k ∈ Finset.Ico (lo * size) ((lo + n) * size), f k := by
  induction n with
  | zero => simp
  | succ n ih =>
      have hnext : (lo + n) * size ≤ (lo + (n + 1)) * size := Nat.mul_le_mul_right _ (by omega)
      rw [List.range'_concat, List.map_append, List.flatten_append, List.map_append,
        List.sum_append, ih, ← Finset.sum_Ico_consecutive f
          (Nat.mul_le_mul_right _ (Nat.le_add_right lo n)) hnext]
      simp only [List.map_cons, List.map_nil, List.flatten_cons, List.flatten_nil, List.append_nil,
        Nat.one_mul, List.map_map, sum_range_map]
      congr 1
      rw [Finset.sum_Ico_eq_sum_range, ← Nat.sub_mul, ← Nat.add_assoc, Nat.add_sub_cancel_left,
        Nat.one_mul]
      exact Finset.sum_congr rfl fun t ht => h (lo + n) t (Finset.mem_range.mp ht)

/-- A run over tiles adds the weights `w` and the values `v` of their positions. -/
theorem run_tiles_holds (h : st.Holds E W T) {key : ℕ → ℕ → Key K D} {size : ℕ} (w : ℕ → K)
    (v : D → ℕ → K) (hw : ∀ j, ∀ t < size, weight E (key j t).score = w (j * size + t))
    (hv : ∀ d j, ∀ t < size, weight E (key j t).score * (key j t).value d = v d (j * size + t))
    (lo n : ℕ) :
    (run E st ((List.range' lo n).map fun j => (List.range size).map (key j))).Holds E
      (W + ∑ k ∈ Finset.Ico (lo * size) ((lo + n) * size), w k)
      fun d => T d + ∑ k ∈ Finset.Ico (lo * size) ((lo + n) * size), v d k := by
  have hrun := run_holds h ((List.range' lo n).map fun j => (List.range size).map (key j))
  have hvalue := fun d =>
    sum_tiles (g := fun k : Key K D => weight E k.score * k.value d) (hv d) lo n
  rw [totalWeight, sum_tiles (g := fun k : Key K D => weight E k.score) hw lo n] at hrun
  simpa only [totalValue, hvalue] using hrun

/-! ## Merging -/

variable (E) in
/-- The weights and the values of states relative to a common reference. -/
def merge (m : K) (sts : List (State K D)) (d : D) : K × K :=
  ((sts.map fun st => st.sum * shifted E st.ref m).sum,
    (sts.map fun st => st.acc d * shifted E st.ref m).sum)

/-- Merged states stand for all their keys. -/
theorem merge_eq {ι : Type} (parts : List ι) (state : ι → State K D) (W : ι → K) (T : ι → D → K)
    (h : ∀ i ∈ parts, (state i).Holds E (W i) (T i)) (m : K) (d : D) :
    (merge E m (parts.map state) d).1 * E.exp m = (parts.map W).sum ∧
      (merge E m (parts.map state) d).2 * E.exp m = (parts.map fun i => T i d).sum := by
  unfold merge
  simp only [List.map_map, ← List.sum_map_mul_right, Function.comp_def]
  exact ⟨congrArg List.sum (List.map_congr_left fun i hi => ((h i hi).at m).1),
    congrArg List.sum (List.map_congr_left fun i hi => ((h i hi).at m).2 d)⟩

end Lib.OnlineSoftmax
