/-
  LIBRARY. Rounding: exact arithmetic, and the doubles.

  A computation with rationals rounds after every operation. `Rounding` has what proofs about such a
  computation need of its arithmetic: rounding is monotone, it keeps the small whole numbers, and
  at these it commutes with a step to a larger one (`shift`, and `div_shift` for a quotient).

  * `roundHalfEven`: the nearest integer, halves to the even one.
  * `ulp`, `nearestDouble`: the spacing of the doubles at a number, and the double nearest to it.
  * `Rounding.exact` keeps every number; `Rounding.binary64` takes the nearest double.

  Not modelled: infinities (no bound on the exponent above), NaN, and the sign of zero.
-/
import Mathlib.Algebra.Order.Field.Power
import Mathlib.Data.Int.Log
import Mathlib.Data.Rat.Floor
import Mathlib.Tactic.FieldSimp
import Mathlib.Tactic.Linarith
import Mathlib.Tactic.NormNum
import Mathlib.Tactic.Positivity
import Mathlib.Tactic.Ring

namespace Lib

/-! ## The nearest integer -/

/-- Round to the nearest integer; halves go to the even neighbour. -/
def roundHalfEven (x : ℚ) : Int :=
  let fraction := x - ⌊x⌋
  if fraction < 1 / 2 then ⌊x⌋
  else if fraction > 1 / 2 then ⌊x⌋ + 1
  else if ⌊x⌋ % 2 = 0 then ⌊x⌋ else ⌊x⌋ + 1

/-- Rounding is off by at most a half. -/
theorem roundHalfEven_sub_le (x : ℚ) : |(roundHalfEven x : ℚ) - x| ≤ 1 / 2 := by
  have hlo := Int.floor_le x
  have hhi := Int.lt_floor_add_one x
  rw [abs_le]
  unfold roundHalfEven
  dsimp only
  split
  · constructor <;> linarith
  · split
    · push_cast
      constructor <;> linarith
    · split
      · constructor <;> linarith
      · push_cast
        constructor <;> linarith

@[simp] theorem roundHalfEven_intCast (k : Int) : roundHalfEven (k : ℚ) = k := by
  unfold roundHalfEven
  simp

theorem roundHalfEven_natCast (n : Nat) : roundHalfEven (n : ℚ) = n :=
  roundHalfEven_intCast n

/-- A half above an even number goes down. -/
theorem roundHalfEven_even_add_half (k : Int) : roundHalfEven (2 * k + 1 / 2) = 2 * k := by
  have hfloor : ⌊(2 * k + 1 / 2 : ℚ)⌋ = 2 * k := by
    rw [Int.floor_eq_iff]
    push_cast
    constructor <;> linarith
  unfold roundHalfEven
  dsimp only
  rw [hfloor]
  push_cast
  rw [if_neg (by linarith), if_neg (by linarith), if_pos (by omega)]

theorem lt_roundHalfEven {x : ℚ} {k : Int} (h : k + 1 / 2 < x) : k < roundHalfEven x := by
  obtain ⟨hlo, -⟩ := abs_le.mp (roundHalfEven_sub_le x)
  exact_mod_cast (by linarith : (k : ℚ) < roundHalfEven x)

theorem roundHalfEven_mono {x y : ℚ} (hxy : x ≤ y) : roundHalfEven x ≤ roundHalfEven y := by
  by_contra hlt
  obtain ⟨-, hx⟩ := abs_le.mp (roundHalfEven_sub_le x)
  obtain ⟨hy, -⟩ := abs_le.mp (roundHalfEven_sub_le y)
  have hstep : (roundHalfEven y : ℚ) + 1 ≤ roundHalfEven x := by exact_mod_cast not_le.mp hlt
  -- both would be the half between two neighbours
  have heq : x = y := by linarith
  exact hlt (heq ▸ le_refl _)

/-! ## Doubles -/

/-- The exponent of the spacing at a positive number: 52 digits after the first, and no digit
    behind the last of the subnormal numbers. -/
def ulpExponent (x : ℚ) : Int := max (Int.log 2 x - 52) (-1074)

/-- The spacing of the doubles at a positive number. -/
def ulp (x : ℚ) : ℚ := 2 ^ ulpExponent x

/-- The double nearest to a number that is not negative. -/
def nearestPos (x : ℚ) : ℚ := roundHalfEven (x / ulp x) * ulp x

/-- The double nearest to a number. -/
def nearestDouble (x : ℚ) : ℚ := if x < 0 then -nearestPos (-x) else nearestPos x

section Doubles

variable {x y : ℚ}

theorem ulp_pos (x : ℚ) : 0 < ulp x := by
  unfold ulp
  positivity

theorem ulp_congr (h : Int.log 2 x = Int.log 2 y) : ulp x = ulp y := by
  rw [ulp, ulp, ulpExponent, ulpExponent, h]

theorem ulp_mono (hx : 0 < x) (hxy : x ≤ y) : ulp x ≤ ulp y := by
  have hlog := Int.log_mono_right (b := 2) hx hxy
  exact zpow_le_zpow_right₀ one_le_two (by unfold ulpExponent; omega)

/-- A multiple of the spacing that is not below the number is not below its double. -/
theorem nearestPos_le {k : Int} (h : x ≤ k * ulp x) : nearestPos x ≤ k * ulp x := by
  refine mul_le_mul_of_nonneg_right ?_ (ulp_pos x).le
  have := roundHalfEven_mono ((div_le_iff₀ (ulp_pos x)).mpr h)
  rw [roundHalfEven_intCast] at this
  exact_mod_cast this

theorem le_nearestPos {k : Int} (h : k * ulp x ≤ x) : k * ulp x ≤ nearestPos x := by
  refine mul_le_mul_of_nonneg_right ?_ (ulp_pos x).le
  have := roundHalfEven_mono ((le_div_iff₀ (ulp_pos x)).mpr h)
  rw [roundHalfEven_intCast] at this
  exact_mod_cast this

/-- A power of two is a multiple of the powers below it. -/
theorem zpow_eq_mul {e f : Int} (h : f ≤ e) :
    (2 : ℚ) ^ e = ((2 ^ (e - f).toNat : Int) : ℚ) * 2 ^ f := by
  push_cast
  rw [← zpow_natCast, ← zpow_add₀ two_ne_zero, Int.toNat_of_nonneg (by omega)]
  congr 1
  omega

theorem nearestPos_le_zpow {e : Int} (he : -1074 ≤ e) (hx : 0 < x) (h : x ≤ 2 ^ e) :
    nearestPos x ≤ 2 ^ e := by
  have hlog : Int.log 2 x ≤ e := by
    have hcast : x ≤ ((2 : Nat) : ℚ) ^ e := by exact_mod_cast h
    have := Int.log_mono_right (b := 2) hx hcast
    rwa [Int.log_zpow (by norm_num)] at this
  have hle : ulpExponent x ≤ e := by
    unfold ulpExponent
    omega
  rw [zpow_eq_mul hle] at h ⊢
  exact nearestPos_le h

theorem zpow_log_le (hx : 0 < x) : (2 : ℚ) ^ Int.log 2 x ≤ x := by
  exact_mod_cast Int.zpow_log_le_self (b := 2) (by norm_num) hx

theorem zpow_le_nearestPos {e : Int} (he : -1074 ≤ e) (h : 2 ^ e ≤ x) : 2 ^ e ≤ nearestPos x := by
  have hx : 0 < x := lt_of_lt_of_le (by positivity) h
  have hlog : e ≤ Int.log 2 x := (Int.zpow_le_iff_le_log (by norm_num) hx).mp (by exact_mod_cast h)
  have hself := zpow_log_le hx
  refine (zpow_le_zpow_right₀ one_le_two hlog).trans ?_
  have hle : ulpExponent x ≤ Int.log 2 x := by
    unfold ulpExponent
    omega
  rw [zpow_eq_mul hle] at hself ⊢
  exact le_nearestPos hself

theorem nearestPos_nonneg (hx : 0 ≤ x) : 0 ≤ nearestPos x := by
  have := le_nearestPos (x := x) (k := 0) (by simpa using hx)
  simpa using this

theorem nearestPos_mono (hx : 0 ≤ x) (hxy : x ≤ y) : nearestPos x ≤ nearestPos y := by
  rcases hx.eq_or_lt with rfl | hx
  · simpa [nearestPos, roundHalfEven] using nearestPos_nonneg hxy
  · have hlog := Int.log_mono_right (b := 2) hx hxy
    rcases eq_or_ne (ulpExponent x) (ulpExponent y) with heq | hne
    · have hulp : ulp x = ulp y := by rw [ulp, ulp, heq]
      unfold nearestPos
      rw [hulp]
      refine mul_le_mul_of_nonneg_right ?_ (ulp_pos y).le
      exact_mod_cast roundHalfEven_mono (div_le_div_of_nonneg_right hxy (ulp_pos y).le)
    · -- the first power of two at or below `y` lies between them
      have hlt : Int.log 2 x + 1 ≤ Int.log 2 y ∧ -1074 ≤ Int.log 2 y := by
        unfold ulpExponent at hne
        omega
      have hnext : x ≤ (2 : ℚ) ^ (Int.log 2 x + 1) := by
        exact_mod_cast (Int.lt_zpow_succ_log_self (b := 2) (by norm_num) x).le
      exact (nearestPos_le_zpow hlt.2 hx
        (hnext.trans (zpow_le_zpow_right₀ one_le_two hlt.1))).trans
        (zpow_le_nearestPos hlt.2 (zpow_log_le (hx.trans_le hxy)))

theorem nearestDouble_of_nonneg (hx : 0 ≤ x) : nearestDouble x = nearestPos x :=
  if_neg (not_lt.mpr hx)

theorem nearestDouble_mono : Monotone nearestDouble := by
  intro x y hxy
  rcases lt_or_ge x 0 with hx | hx
  · have hneg : nearestDouble x = -nearestPos (-x) := if_pos hx
    rcases lt_or_ge y 0 with hy | hy
    · have : nearestDouble y = -nearestPos (-y) := if_pos hy
      rw [hneg, this]
      exact neg_le_neg (nearestPos_mono (by linarith) (neg_le_neg hxy))
    · rw [hneg, nearestDouble_of_nonneg hy]
      linarith [nearestPos_nonneg (x := -x) (by linarith), nearestPos_nonneg hy]
  · rw [nearestDouble_of_nonneg hx, nearestDouble_of_nonneg (hx.trans hxy)]
    exact nearestPos_mono hx hxy

/-! ### At whole numbers below 2 ^ 52 -/

variable {n : Nat}

theorem ulpExponent_natCast (n : Nat) : ulpExponent n = (Nat.log 2 n : Int) - 52 := by
  unfold ulpExponent
  rw [Int.log_natCast]
  omega

/-- Such a number is an even multiple of its spacing. -/
theorem natCast_eq_mul_ulp (h0 : 0 < n) (hn : n < 2 ^ 52) :
    (n : ℚ) = ((2 * (n * 2 ^ (51 - Nat.log 2 n) : Nat) : Int) : ℚ) * ulp n := by
  have hlog : Nat.log 2 n < 52 := Nat.log_lt_of_lt_pow h0.ne' hn
  rw [ulp, ulpExponent_natCast]
  push_cast
  rw [← zpow_natCast, mul_assoc, mul_assoc, ← zpow_add₀ two_ne_zero, mul_left_comm,
    ← zpow_one_add₀ two_ne_zero]
  rw [show (1 + (((51 - Nat.log 2 n : Nat) : Int) + ((Nat.log 2 n : Int) - 52))) = 0 by omega]
  simp

theorem ulp_natCast_le_one (h0 : 0 < n) (hn : n < 2 ^ 52) : ulp n ≤ 1 := by
  have hlog : Nat.log 2 n < 52 := Nat.log_lt_of_lt_pow h0.ne' hn
  rw [ulp, ulpExponent_natCast]
  exact zpow_le_one_of_nonpos₀ one_le_two (by omega)

theorem natCast_add_one_le (n : Nat) : (n : ℚ) + 1 ≤ 2 ^ ((Nat.log 2 n : Int) + 1) := by
  have := Nat.lt_pow_succ_log_self (b := 2) (by norm_num) n
  exact_mod_cast this

/-- Up to half a spacing above it, numbers round to it or below. -/
theorem nearestPos_le_natCast (h0 : 0 < n) (hn : n < 2 ^ 52) (hx : 0 ≤ x)
    (h : x ≤ n + ulp n / 2) : nearestPos x ≤ n := by
  have hpos := ulp_pos (n : ℚ)
  have hn0 : (0 : ℚ) < n := Nat.cast_pos.mpr h0
  have hone := ulp_natCast_le_one h0 hn
  have hlog : Int.log 2 ((n : ℚ) + ulp n / 2) = Int.log 2 (n : ℚ) := by
    refine le_antisymm ?_ (Int.log_mono_right hn0 (by linarith))
    refine Int.lt_add_one_iff.mp ((Int.lt_zpow_iff_log_lt (by norm_num) (by linarith)).mp ?_)
    rw [Int.log_natCast]
    have := natCast_add_one_le n
    push_cast
    linarith
  have hulp : ulp ((n : ℚ) + ulp n / 2) = ulp n := ulp_congr hlog
  refine (nearestPos_mono hx h).trans (le_of_eq ?_)
  have heven := natCast_eq_mul_ulp h0 hn
  obtain ⟨k, hk⟩ : ∃ k : Int, (n : ℚ) = (2 * k : Int) * ulp n := ⟨_, heven⟩
  rw [nearestPos, hulp]
  have hdiv : ((n : ℚ) + ulp n / 2) / ulp n = 2 * k + 1 / 2 := by
    rw [div_eq_iff hpos.ne']
    push_cast at hk
    linarith
  rw [hdiv, roundHalfEven_even_add_half, ← hk]

/-- Farther above it, they round to the next double or above. -/
theorem add_ulp_le_nearestPos (h0 : 0 < n) (hn : n < 2 ^ 52) (h : n + ulp n / 2 < x) :
    n + ulp n ≤ nearestPos x := by
  have hpos := ulp_pos (n : ℚ)
  have hn0 : (0 : ℚ) < n := Nat.cast_pos.mpr h0
  have hlog := Int.log_mono_right (b := 2) hn0 (by linarith : (n : ℚ) ≤ x)
  rcases hlog.eq_or_lt with heq | hlt
  · have hulp : ulp x = ulp n := ulp_congr heq.symm
    obtain ⟨k, hk⟩ : ∃ k : Int, (n : ℚ) = (2 * k : Int) * ulp n := ⟨_, natCast_eq_mul_ulp h0 hn⟩
    have hdiv : ((2 * k : Int) : ℚ) + 1 / 2 < x / ulp n := by
      rw [lt_div_iff₀ hpos]
      linarith
    have hround : ((2 * k : Int) : ℚ) + 1 ≤ roundHalfEven (x / ulp n) := by
      exact_mod_cast lt_roundHalfEven hdiv
    have := mul_le_mul_of_nonneg_right hround hpos.le
    rw [nearestPos, hulp]
    linarith
  · -- the next power of two lies between them
    have hx : 0 < x := by linarith
    rw [Int.log_natCast] at hlt
    have hpow := zpow_le_nearestPos (by omega) (zpow_log_le hx)
    have hnext : (2 : ℚ) ^ ((Nat.log 2 n : Int) + 1) ≤ 2 ^ Int.log 2 x :=
      zpow_le_zpow_right₀ one_le_two hlt
    linarith [natCast_add_one_le n, ulp_natCast_le_one h0 hn]

theorem nearestDouble_natCast (hn : n < 2 ^ 52) : nearestDouble n = n := by
  rw [nearestDouble_of_nonneg (Nat.cast_nonneg n)]
  rcases Nat.eq_zero_or_pos n with rfl | h0
  · simp [nearestPos, roundHalfEven]
  · obtain ⟨k, hk⟩ : ∃ k : Int, (n : ℚ) = k * ulp n := ⟨_, natCast_eq_mul_ulp h0 hn⟩
    rw [nearestPos, (div_eq_iff (ulp_pos _).ne').mpr hk, roundHalfEven_intCast, ← hk]

/-- Only a tiny number rounds to nothing. -/
theorem le_of_nearestDouble_nonpos {e : Int} (he : -1074 ≤ e) (h : nearestDouble x < 2 ^ e) :
    x < 2 ^ e := by
  by_contra hx
  rw [not_lt] at hx
  rw [nearestDouble_of_nonneg ((by positivity : (0 : ℚ) ≤ 2 ^ e).trans hx)] at h
  exact absurd (zpow_le_nearestPos he hx) (not_le.mpr h)

theorem nearestDouble_le_natCast (h0 : 0 < n) (hn : n < 2 ^ 52) (h : x ≤ n + ulp n / 2) :
    nearestDouble x ≤ n := by
  rcases lt_or_ge x 0 with hx | hx
  · have hzero := nearestDouble_mono hx.le
    rw [show nearestDouble 0 = 0 from nearestDouble_natCast (n := 0) (by norm_num)] at hzero
    exact hzero.trans (Nat.cast_nonneg n)
  · rw [nearestDouble_of_nonneg hx]
    exact nearestPos_le_natCast h0 hn hx h

/-- A number whose double is at most `n` is at most half a spacing above it. -/
theorem le_of_nearestDouble_lt (h0 : 0 < n) (hn : n < 2 ^ 52) (h : nearestDouble x < n + ulp n) :
    x ≤ n + ulp n / 2 := by
  by_contra hx
  rw [not_le] at hx
  have hpos := ulp_pos (n : ℚ)
  rw [nearestDouble_of_nonneg (by linarith [Nat.cast_nonneg (α := ℚ) n])] at h
  exact absurd (add_ulp_le_nearestPos h0 hn hx) (not_le.mpr h)

/-- A tiny number is lost in the sum with a whole one. -/
theorem nearestDouble_tiny_add_le (h0 : 0 < n) (hn : n < 2 ^ 52) (hx : x < 2 ^ (-53 : Int)) :
    nearestDouble (x + n) ≤ n := by
  have hulp : (2 : ℚ) ^ (-52 : Int) ≤ ulp n := by
    rw [ulp, ulpExponent_natCast]
    exact zpow_le_zpow_right₀ one_le_two (by omega)
  refine nearestDouble_le_natCast h0 hn ?_
  norm_num at hx hulp ⊢
  linarith

variable {d : Nat}

/-- A step of whole numbers from a rounded number is a step of the number. -/
theorem nearestDouble_add_le (hd : 0 < d) (hn : n + d < 2 ^ 52) (h : nearestDouble x ≤ n) :
    nearestDouble (x + d) ≤ n + d := by
  rcases Nat.eq_zero_or_pos n with rfl | h0
  · have hx : x < 2 ^ (-53 : Int) :=
      le_of_nearestDouble_nonpos (by norm_num) (lt_of_le_of_lt h (by norm_num))
    simpa using nearestDouble_tiny_add_le hd (by omega) hx
  · have hle := le_of_nearestDouble_lt h0 (by omega) (lt_of_le_of_lt h (by linarith [ulp_pos n]))
    have hmono := ulp_mono (Nat.cast_pos.mpr h0)
      (by exact_mod_cast Nat.le_add_right n d : (n : ℚ) ≤ (n : ℚ) + d)
    exact_mod_cast nearestDouble_le_natCast (Nat.add_pos_right n hd) hn (by push_cast; linarith)

/-- The spacing at `n`, times `d`, is less than two spacings at `d * n`. -/
theorem mul_ulp_lt (d : Nat) (h0 : 0 < n) : d * ulp n < 2 * ulp ((d * n : Nat) : ℚ) := by
  have hself : ((2 ^ Nat.log 2 n : Nat) : ℚ) ≤ n := by
    exact_mod_cast Nat.pow_log_le_self 2 h0.ne'
  have hnext := natCast_add_one_le (d * n)
  have hsplit : ∀ k : Nat, ulp (k : ℚ) = (2 ^ Nat.log 2 k : Nat) * 2 ^ (-52 : Int) := by
    intro k
    rw [ulp, ulpExponent_natCast, sub_eq_add_neg, zpow_add₀ two_ne_zero]
    norm_num
  rw [hsplit, hsplit, ← mul_assoc, ← mul_assoc]
  refine mul_lt_mul_of_pos_right ?_ (by positivity)
  rw [zpow_add_one₀ two_ne_zero, zpow_natCast] at hnext
  push_cast at hself hnext ⊢
  have := mul_le_mul_of_nonneg_left hself (Nat.cast_nonneg (α := ℚ) d)
  linarith

/-- What a quotient's double says about the dividend: a number of at most `n * d`, or a tiny one. -/
theorem nearestDouble_div_le (hd : 0 < d) (hn : d * (n + 1) < 2 ^ 52)
    (h : nearestDouble (nearestDouble x / d) ≤ n) :
    nearestDouble (x + d) ≤ (d * (n + 1) : Nat) := by
  have hd0 : (0 : ℚ) < d := Nat.cast_pos.mpr hd
  rcases Nat.eq_zero_or_pos n with rfl | h0
  · have hsmall : nearestDouble x / d < 2 ^ (-1000 : Int) :=
      le_of_nearestDouble_nonpos (by norm_num) (lt_of_le_of_lt h (by positivity))
    have hd52 : (d : ℚ) ≤ 2 ^ (52 : Int) := by exact_mod_cast (by omega : d ≤ 2 ^ 52)
    have hx : x < 2 ^ (-53 : Int) := by
      refine le_of_nearestDouble_nonpos (by norm_num) ?_
      rw [div_lt_iff₀ hd0] at hsmall
      have hmul := mul_le_mul_of_nonneg_left hd52
        (by positivity : (0 : ℚ) ≤ 2 ^ (-1000 : Int))
      rw [← zpow_add₀ two_ne_zero] at hmul
      exact (hsmall.trans_le hmul).trans (zpow_lt_zpow_right₀ one_lt_two (by norm_num))
    simpa using nearestDouble_tiny_add_le hd (by omega) hx
  · have hdn : 0 < d * n := Nat.mul_pos hd h0
    have hlt52 : d * n < 2 ^ 52 := lt_of_le_of_lt (Nat.mul_le_mul_left d (Nat.le_succ n)) hn
    have hquot := le_of_nearestDouble_lt h0
      (lt_of_le_of_lt (Nat.le_mul_of_pos_left n hd) hlt52)
      (lt_of_le_of_lt h (by linarith [ulp_pos n]))
    have hspacing := mul_ulp_lt d h0
    have hx : nearestDouble x ≤ (d * n : Nat) := by
      refine nearestDouble_le_natCast hdn hlt52 (le_of_nearestDouble_lt hdn hlt52 ?_)
      have := (div_le_iff₀ hd0).mp hquot
      push_cast at hspacing ⊢
      linarith
    have := nearestDouble_add_le hd (by omega) hx
    push_cast at this ⊢
    linarith

end Doubles

/-! ## Arithmetics -/

/-- An arithmetic that rounds the result of every operation. Some whole numbers are in its range:
    these it has, and there it rounds evenly. -/
structure Rounding where
  round : ℚ → ℚ
  InRange : Nat → Prop
  inRange_of_le : ∀ {m n}, m ≤ n → InRange n → InRange m
  inRange_zero : InRange 0
  mono : Monotone round
  natCast : ∀ {n : Nat}, InRange n → round n = n
  shift : ∀ {x : ℚ} {n : Nat}, InRange (n + 1) → round x ≤ n → round (x + 1) ≤ n + 1
  div_shift : ∀ {x : ℚ} {n d : Nat}, 0 < d → InRange (d * (n + 1)) →
    round (round x / d) ≤ n → round (round (x + d) / d) ≤ n + 1

namespace Rounding

instance : CoeFun Rounding fun _ => ℚ → ℚ := ⟨round⟩

/-- Exact arithmetic. -/
def exact : Rounding where
  round x := x
  InRange _ := True
  inRange_of_le _ _ := trivial
  inRange_zero := trivial
  mono := monotone_id
  natCast _ := rfl
  shift _ h := by linarith
  div_shift {x n d} hd _ h := by
    have hd0 : (0 : ℚ) < d := Nat.cast_pos.mpr hd
    rw [add_div, div_self hd0.ne']
    linarith

/-- The doubles. -/
def binary64 : Rounding where
  round := nearestDouble
  InRange n := n < 2 ^ 52
  inRange_of_le h hn := h.trans_lt hn
  inRange_zero := by norm_num
  mono := nearestDouble_mono
  natCast := nearestDouble_natCast
  shift hn h := by simpa using nearestDouble_add_le Nat.one_pos hn h
  div_shift {x n d} hd hn h := by
    have hle := nearestDouble_div_le hd hn h
    have hd0 : (0 : ℚ) < d := Nat.cast_pos.mpr hd
    have hquot : nearestDouble (x + d) / d ≤ (n + 1 : Nat) := by
      rw [div_le_iff₀ hd0]
      push_cast at hle ⊢
      linarith
    have hround := nearestDouble_mono hquot
    rw [nearestDouble_natCast
      (lt_of_le_of_lt (Nat.le_mul_of_pos_left (n + 1) hd) hn)] at hround
    exact_mod_cast hround

@[simp] theorem exact_apply (x : ℚ) : exact x = x := rfl

variable (r : Rounding)

@[simp] theorem map_zero : r 0 = 0 := by simpa using r.natCast r.inRange_zero

theorem nonneg {x : ℚ} (h : 0 ≤ x) : 0 ≤ r x := r.map_zero ▸ r.mono h

theorem nonpos {x : ℚ} (h : x ≤ 0) : r x ≤ 0 := r.map_zero ▸ r.mono h

end Rounding

end Lib
