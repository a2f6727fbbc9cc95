/-
  LIBRARY. Binary search.

  * `upperBound`: the number of leading keys that are at most a target. The loop keeps an
    interval that contains the boundary, and `upperBound_eq` asks for the boundary only: keys up
    to an index are at most the target, later ones exceed it.
  * `double`, `bisect`: the largest number that passes a test, when no upper bound is known. The
    first doubles a candidate until it fails, the second halves the interval below it.
    `Doubles`, `Bisects`: the two loops without fuel, as the runs that come to an end;
    `double_run` and `bisect_run` say that the functions compute them.
-/
import Mathlib.Tactic.Common

namespace Lib.Search

/-- The loop: `left` and `right` move towards the first index below `right` whose key exceeds the
    target. `fuel` bounds the rounds; the width of the interval is enough. -/
def upperBound (key : Nat → Int) (target : Int) : Nat → Nat → Nat → Nat
  | 0, left, _ => left
  | fuel + 1, left, right =>
      if left < right then
        let mid := (left + right) / 2
        if key mid ≤ target then upperBound key target fuel (mid + 1) right
        else upperBound key target fuel left mid
      else left

theorem upperBound_of_boundary {key : Nat → Int} {target : Int} {n i : Nat}
    (hle : ∀ j ≤ i, key j ≤ target) (hgt : ∀ j, i < j → j < n → target < key j) (fuel : Nat) :
    ∀ left right, right - left ≤ fuel → left ≤ i + 1 → i + 1 ≤ right → right ≤ n →
      upperBound key target fuel left right = i + 1 := by
  induction fuel with
  | zero =>
      intro left right hfuel hl hr _
      unfold upperBound
      omega
  | succ fuel ih =>
      intro left right hfuel hl hr hn
      unfold upperBound
      split
      · next hlt =>
          dsimp only
          have hmid : left ≤ (left + right) / 2 ∧ (left + right) / 2 < right := by omega
          split
          · next hkey =>
              -- a key at most the target is not past the boundary
              have hi : (left + right) / 2 ≤ i := by
                by_contra hlt
                have := hgt ((left + right) / 2) (by omega) (by omega)
                omega
              exact ih _ _ (by omega) (by omega) hr hn
          · next hkey =>
              have hi : i < (left + right) / 2 := by
                by_contra hle'
                exact hkey (hle _ (by omega))
              exact ih _ _ (by omega) hl (by omega) (by omega)
      · omega

/-- The search over the first `n` keys finds the boundary. -/
theorem upperBound_eq {key : Nat → Int} {target : Int} {n i : Nat} (hi : i < n)
    (hle : ∀ j ≤ i, key j ≤ target) (hgt : ∀ j, i < j → j < n → target < key j) :
    upperBound key target n 0 n = i + 1 :=
  upperBound_of_boundary hle hgt n 0 n (by omega) (by omega) (by omega) (Nat.le_refl n)

/-! ## Search without an upper bound -/

/-- Doubles `hi` while it passes the test. -/
def double (fits : Nat → Bool) : Nat → Nat → Nat
  | 0, hi => hi
  | fuel + 1, hi => if fits hi then double fits fuel (hi * 2) else hi

/-- Halves the interval from `lo`, which passes, to `hi`, which does not. -/
def bisect (fits : Nat → Bool) : Nat → Nat → Nat → Nat
  | 0, lo, _ => lo
  | fuel + 1, lo, hi =>
      if lo + 1 < hi then
        let mid := (lo + hi) / 2
        if fits mid then bisect fits fuel mid hi else bisect fits fuel lo mid
      else lo

variable {fits : Nat → Bool}

/-- Doubling stops at a candidate that fails, if every large enough one does. -/
theorem double_fails {bound : Nat} (h : ∀ n, bound ≤ n → fits n = false) (fuel : Nat) :
    ∀ hi, 0 < hi → bound ≤ hi + fuel →
      fits (double fits fuel hi) = false ∧ 0 < double fits fuel hi := by
  induction fuel with
  | zero =>
      intro hi hpos hle
      exact ⟨h hi hle, hpos⟩
  | succ fuel ih =>
      intro hi hpos hle
      unfold double
      split
      · exact ih _ (by omega) (by omega)
      · next hfit => exact ⟨Bool.eq_false_iff.mpr hfit, hpos⟩

/-- Bisection ends at a number that passes and whose successor fails. -/
theorem bisect_boundary (fuel : Nat) :
    ∀ lo hi, fits lo = true → fits hi = false → lo < hi → hi - lo ≤ fuel + 1 →
      fits (bisect fits fuel lo hi) = true ∧ fits (bisect fits fuel lo hi + 1) = false := by
  induction fuel with
  | zero =>
      intro lo hi hlo hhi hlt hle
      have heq : hi = lo + 1 := by omega
      exact ⟨hlo, heq ▸ hhi⟩
  | succ fuel ih =>
      intro lo hi hlo hhi hlt hle
      unfold bisect
      split
      · dsimp only
        split
        · next hfit => exact ih _ _ hfit hhi (by omega) (by omega)
        · next hfit => exact ih _ _ hlo (Bool.eq_false_iff.mpr hfit) (by omega) (by omega)
      · have heq : hi = lo + 1 := by omega
        exact ⟨hlo, heq ▸ hhi⟩

/-- A run of the first loop from `hi` to its end. -/
inductive Doubles (fits : Nat → Bool) : Nat → Nat → Prop
  | stop {hi : Nat} (h : fits hi = false) : Doubles fits hi hi
  | again {hi result : Nat} (h : fits hi = true) (hrest : Doubles fits (hi * 2) result) :
      Doubles fits hi result

/-- A run of the second loop from `lo` and `hi` to its end. -/
inductive Bisects (fits : Nat → Bool) : Nat → Nat → Nat → Prop
  | stop {lo hi : Nat} (h : ¬ lo + 1 < hi) : Bisects fits lo hi lo
  | upper {lo hi result : Nat} (h : lo + 1 < hi) (hmid : fits ((lo + hi) / 2) = true)
      (hrest : Bisects fits ((lo + hi) / 2) hi result) : Bisects fits lo hi result
  | lower {lo hi result : Nat} (h : lo + 1 < hi) (hmid : fits ((lo + hi) / 2) = false)
      (hrest : Bisects fits lo ((lo + hi) / 2) result) : Bisects fits lo hi result

/-- The first loop ends, if every large enough candidate fails. -/
theorem double_run {bound : Nat} (h : ∀ n, bound ≤ n → fits n = false) (fuel : Nat) :
    ∀ hi, 0 < hi → bound ≤ hi + fuel → Doubles fits hi (double fits fuel hi) := by
  induction fuel with
  | zero => exact fun hi _ hle => .stop (h hi hle)
  | succ fuel ih =>
      intro hi hpos hle
      unfold double
      split
      · next hfit => exact .again hfit (ih _ (by omega) (by omega))
      · next hfit => exact .stop (Bool.eq_false_iff.mpr hfit)

/-- The second loop ends. -/
theorem bisect_run (fuel : Nat) :
    ∀ lo hi, hi - lo ≤ fuel + 1 → Bisects fits lo hi (bisect fits fuel lo hi) := by
  induction fuel with
  | zero => exact fun lo hi hle => .stop (by omega)
  | succ fuel ih =>
      intro lo hi hle
      unfold bisect
      split
      · next hlt =>
          dsimp only
          split
          · next hfit => exact .upper hlt hfit (ih _ _ (by omega))
          · next hfit => exact .lower hlt (Bool.eq_false_iff.mpr hfit) (ih _ _ (by omega))
      · next hlt => exact .stop hlt

/-- **Doubling, then bisection.** The search ends at the boundary. -/
theorem bisect_double_boundary {bound : Nat} (h0 : fits 0 = true)
    (h : ∀ n, bound ≤ n → fits n = false) (fuel : Nat) (hfuel : bound ≤ fuel) :
    let hi := double fits fuel 1
    fits (bisect fits hi 0 hi) = true ∧ fits (bisect fits hi 0 hi + 1) = false := by
  obtain ⟨hfail, hpos⟩ := double_fails h fuel 1 Nat.one_pos (by omega)
  exact bisect_boundary _ 0 _ h0 hfail hpos (by omega)

end Lib.Search
