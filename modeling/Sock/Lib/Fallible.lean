/-
  LIBRARY. Programs that change a state and may raise: `EStateM ε σ`.

  A raise keeps the changes made before it, so a program has an end state (`endState`)
  whether it returns or raises.

  * `run_bind_ok`, `run_bind_error`, `run_mapM_cons_ok`: how a sequence returns and how it raises.
  * `Keeps I x`: every run of `x` from a state with `I` ends in one, raised or not. The rules
    follow the program text (`keeps_bind`, `keeps_forM`, `keeps_mapM`).
  * `Raises P x`: every raise of `x` satisfies `P`, with rules of the same shape.
  * `Finishes x s Q R`: the run of `x` from `s` returns with `Q` or raises with `R`
    (`Finishes.bind`).
  * `visits f xs s`: the states in which the loop over `xs` runs its body (`visits_invariant`).
  * `forM_ok`, `forM_error`: loop rules with an invariant on the rest of the list and the
    state, given a condition on every visit.
  * `require p e`, `forM_eq_ok`: checks, and loops of them.
  * `trace step s xs`: the states a machine `step : σ → α → Except ε σ` passes through on the
    inputs `xs`; `foldlM_ok`, `foldlM_error`: the same two rules for its runs.
-/
import Mathlib.Tactic.Common

namespace Lib.Fallible

variable {ε σ α β : Type}

/-- The state a run ends in, returned or raised. -/
def endState : EStateM.Result ε σ α → σ
  | .ok _ s => s
  | .error _ s => s

/-- What a run returned or raised. -/
def endValue : EStateM.Result ε σ α → Except ε α
  | .ok a _ => .ok a
  | .error e _ => .error e

@[simp] theorem endState_ok (a : α) (s : σ) :
    endState (.ok a s : EStateM.Result ε σ α) = s := rfl

@[simp] theorem endState_error (e : ε) (s : σ) :
    endState (.error e s : EStateM.Result ε σ α) = s := rfl

/-! ## Sequencing -/

theorem run_bind_ok {x : EStateM ε σ α} {f : α → EStateM ε σ β} {s s'' : σ} {b : β} :
    (x >>= f).run s = .ok b s'' ↔ ∃ a s', x.run s = .ok a s' ∧ (f a).run s' = .ok b s'' := by
  rw [EStateM.run_bind]
  cases x.run s with
  | ok a s' =>
      constructor
      · exact fun h => ⟨a, s', rfl, h⟩
      · rintro ⟨a', t, ht, h⟩
        cases ht
        exact h
  | error e s' => simp

theorem run_bind_error {x : EStateM ε σ α} {f : α → EStateM ε σ β} {s s'' : σ} {e : ε} :
    (x >>= f).run s = .error e s'' ↔
      x.run s = .error e s'' ∨ ∃ a s', x.run s = .ok a s' ∧ (f a).run s' = .error e s'' := by
  rw [EStateM.run_bind]
  cases x.run s with
  | ok a s' =>
      constructor
      · exact fun h => .inr ⟨a, s', rfl, h⟩
      · rintro (h | ⟨a', t, ht, h⟩)
        · cases h
        · cases ht
          exact h
  | error e' s' => simp

theorem run_mapM_cons_ok {f : α → EStateM ε σ β} {x : α} {xs : List α} {s s'' : σ} {ys : List β} :
    ((x :: xs).mapM f).run s = .ok ys s'' ↔
      ∃ y s' ys', (f x).run s = .ok y s' ∧ (xs.mapM f).run s' = .ok ys' s'' ∧ ys = y :: ys' := by
  rw [List.mapM_cons, run_bind_ok]
  constructor
  · rintro ⟨y, s', hx, h⟩
    obtain ⟨ys', _, hxs, hpure⟩ := run_bind_ok.mp h
    cases hpure
    exact ⟨y, s', ys', hx, hxs, rfl⟩
  · rintro ⟨y, s', ys', hx, hxs, rfl⟩
    exact ⟨y, s', hx, run_bind_ok.mpr ⟨ys', s'', hxs, rfl⟩⟩

/-! ## Invariants -/

/-- `x` keeps `I`: a run from a state with `I` ends in one, returned or raised. -/
def Keeps (I : σ → Prop) (x : EStateM ε σ α) : Prop := ∀ s, I s → I (endState (x.run s))

variable {I : σ → Prop}

theorem keeps_pure (a : α) : Keeps I (pure a : EStateM ε σ α) := fun _ h => h

theorem keeps_bind {x : EStateM ε σ α} {f : α → EStateM ε σ β} (hx : Keeps I x)
    (hf : ∀ a, Keeps I (f a)) : Keeps I (x >>= f) := by
  intro s hs
  have h := hx s hs
  rw [EStateM.run_bind]
  cases hr : x.run s with
  | ok a s' =>
      rw [hr] at h
      exact hf a s' h
  | error e s' =>
      rw [hr] at h
      exact h

theorem keeps_forM {f : α → EStateM ε σ PUnit} (xs : List α) (hf : ∀ x, Keeps I (f x)) :
    Keeps I (forM xs f) := by
  induction xs with
  | nil => exact keeps_pure _
  | cons x xs ih =>
      rw [List.forM_cons]
      exact keeps_bind (hf x) fun _ => ih

theorem keeps_mapM {f : α → EStateM ε σ β} {xs : List α} (hf : ∀ x ∈ xs, Keeps I (f x)) :
    Keeps I (xs.mapM f) := by
  induction xs with
  | nil => exact keeps_pure _
  | cons x xs ih =>
      rw [List.mapM_cons]
      refine keeps_bind (hf x List.mem_cons_self) fun _ => ?_
      exact keeps_bind (ih fun y hy => hf y (List.mem_cons_of_mem x hy)) fun _ => keeps_pure _

theorem Keeps.of_ok {x : EStateM ε σ α} {s s' : σ} {a : α} (h : Keeps I x) (hs : I s)
    (hrun : x.run s = .ok a s') : I s' := by
  have hend := h s hs
  rw [hrun] at hend
  exact hend

/-! ## Raises -/

/-- Every raise of `x` satisfies `P`. -/
def Raises (P : ε → Prop) (x : EStateM ε σ α) : Prop := ∀ s e s', x.run s = .error e s' → P e

section Raises

variable {P : ε → Prop}

theorem raises_pure (a : α) : Raises P (pure a : EStateM ε σ α) := by
  intro s e s' h
  cases h

theorem raises_throw {e : ε} (he : P e) : Raises P (throw e : EStateM ε σ α) := by
  intro s e' s' h
  cases h
  exact he

theorem raises_modifyGet (f : σ → α × σ) : Raises P (modifyGet f : EStateM ε σ α) := by
  intro s e s' h
  cases h

theorem raises_get : Raises P (get : EStateM ε σ σ) := by
  intro s e s' h
  cases h

theorem raises_set (s₀ : σ) : Raises P (set s₀ : EStateM ε σ PUnit) := by
  intro s e s' h
  cases h

theorem raises_bind {x : EStateM ε σ α} {f : α → EStateM ε σ β} (hx : Raises P x)
    (hf : ∀ a, Raises P (f a)) : Raises P (x >>= f) := by
  intro s e s' h
  rcases run_bind_error.mp h with h | ⟨a, s₁, -, h⟩
  · exact hx s e s' h
  · exact hf a s₁ e s' h

/-- A check that raises, and then the rest. -/
theorem raises_check {c : Prop} [Decidable c] {e : ε} {x : EStateM ε σ α} (he : P e)
    (hx : Raises P x) :
    Raises P (if c then (throw e : EStateM ε σ PUnit) >>= fun _ => x else x) := by
  split
  · exact raises_bind (raises_throw he) fun _ => hx
  · exact hx

end Raises

/-! ## Both ends -/

/-- The run of `x` from `s` returns with `Q` or raises with `R`. -/
def Finishes (x : EStateM ε σ α) (s : σ) (Q : α → σ → Prop) (R : ε → Prop) : Prop :=
  match x.run s with
  | .ok a s' => Q a s'
  | .error e _ => R e

section Finishes

variable {x : EStateM ε σ α} {f : α → EStateM ε σ β} {s s' : σ} {a : α} {e : ε}
  {P P' : α → σ → Prop} {Q : β → σ → Prop} {R R' : ε → Prop}

theorem finishes_of_ok (h : x.run s = .ok a s') (hP : P a s') : Finishes x s P R := by
  rw [Finishes, h]
  exact hP

theorem finishes_of_error (h : x.run s = .error e s') (hR : R e) : Finishes x s P R := by
  rw [Finishes, h]
  exact hR

theorem finishes_trivial (x : EStateM ε σ α) (s : σ) :
    Finishes x s (fun _ _ => True) fun _ => True := by
  cases hrun : x.run s with
  | ok a s' => exact finishes_of_ok hrun trivial
  | error e s' => exact finishes_of_error hrun trivial

theorem Finishes.of_ok (h : Finishes x s P R) (hrun : x.run s = .ok a s') : P a s' := by
  rw [Finishes, hrun] at h
  exact h

theorem Finishes.of_error (h : Finishes x s P R) (hrun : x.run s = .error e s') : R e := by
  rw [Finishes, hrun] at h
  exact h

theorem Finishes.imp (h : Finishes x s P R) (hP : ∀ a s', P a s' → P' a s') (hR : ∀ e, R e → R' e) :
    Finishes x s P' R' := by
  cases hrun : x.run s with
  | ok a s' => exact finishes_of_ok hrun (hP a s' (h.of_ok hrun))
  | error e s' => exact finishes_of_error hrun (hR e (h.of_error hrun))

/-- A sequence ends as its second part does, or as its first part raises. -/
theorem Finishes.bind (h : Finishes x s P R) (hf : ∀ a s', P a s' → Finishes (f a) s' Q R) :
    Finishes (x >>= f) s Q R := by
  unfold Finishes
  rw [EStateM.run_bind]
  cases hrun : x.run s with
  | ok a s' => exact hf a s' (h.of_ok hrun)
  | error e s' => exact h.of_error hrun

end Finishes

/-! ## Loops -/

/-- The states in which the loop `forM xs f` runs its body, each with the item at hand. -/
def visits (f : α → EStateM ε σ PUnit) : List α → σ → List (σ × α)
  | [], _ => []
  | x :: xs, s =>
      (s, x) :: match (f x).run s with
        | .ok _ s' => visits f xs s'
        | .error _ _ => []

theorem visits_singleton (f : α → EStateM ε σ PUnit) (x : α) (s : σ) :
    visits f [x] s = [(s, x)] := by
  unfold visits
  cases (f x).run s <;> rfl

/-- Loop rule. `I rest s` is the invariant with `rest` still to do; `C` may be assumed of every
    visit. A raise comes from the body, in a state that satisfies the invariant. -/
theorem forM_rule {f : α → EStateM ε σ PUnit} {I : List α → σ → Prop} {C : σ → α → Prop}
    (hstep : ∀ x rest s s', C s x → I (x :: rest) s → (f x).run s = .ok ⟨⟩ s' → I rest s') :
    ∀ (xs : List α) (s : σ), (∀ v ∈ visits f xs s, C v.1 v.2) → I xs s →
      (∀ s', (forM xs f).run s = .ok ⟨⟩ s' → I [] s') ∧
      ∀ e s', (forM xs f).run s = .error e s' →
        ∃ x rest s₁, C s₁ x ∧ I (x :: rest) s₁ ∧ (f x).run s₁ = .error e s'
  | [], s, _, hI => ⟨by rintro s' ⟨⟩; exact hI, by rintro e s' ⟨⟩⟩
  | x :: xs, s, hC, hI => by
      have hx : C s x := hC (s, x) List.mem_cons_self
      rw [List.forM_cons, EStateM.run_bind]
      cases h : (f x).run s with
      | ok _ s₁ =>
          have hv : visits f (x :: xs) s = (s, x) :: visits f xs s₁ := by simp only [visits, h]
          rw [hv] at hC
          exact forM_rule hstep xs s₁ (fun v hm => hC v (List.mem_cons_of_mem _ hm))
            (hstep x xs s s₁ hx hI h)
      | error e s₁ =>
          refine ⟨by rintro s' ⟨⟩, ?_⟩
          rintro e' s' ⟨⟩
          exact ⟨x, xs, s, hx, hI, h⟩

/-- What holds before a loop and is kept by its bodies holds at every visit. -/
theorem visits_invariant {f : α → EStateM ε σ PUnit} {I : σ → Prop} {xs : List α} {s : σ}
    (hstep : ∀ x ∈ xs, ∀ s s', I s → (f x).run s = .ok ⟨⟩ s' → I s') (hI : I s) :
    ∀ v ∈ visits f xs s, I v.1 ∧ v.2 ∈ xs := by
  induction xs generalizing s with
  | nil => exact fun v hv => absurd hv List.not_mem_nil
  | cons x xs ih =>
      intro v hv
      rw [visits] at hv
      rcases List.mem_cons.mp hv with rfl | hv
      · exact ⟨hI, List.mem_cons_self⟩
      · cases hx : (f x).run s with
        | ok _ s' =>
            rw [hx] at hv
            obtain ⟨hIv, hm⟩ := ih (fun y hy => hstep y (List.mem_cons_of_mem _ hy))
              (hstep x List.mem_cons_self s s' hI hx) v hv
            exact ⟨hIv, List.mem_cons_of_mem _ hm⟩
        | error e s' =>
            rw [hx] at hv
            cases hv

/-! ## Machines -/

/-- What a run raised. -/
def raised : Except ε σ → Option ε
  | .ok _ => none
  | .error e => some e

theorem eq_error_of_raised {x : Except ε σ} {e : ε} (h : raised x = some e) : x = .error e := by
  cases x with
  | ok s => cases h
  | error e' =>
      cases h
      rfl

/-- A result that is checked to be there. -/
theorem exists_ok_of_any {x : Except ε σ} {p : σ → Bool} (h : x.toOption.any p = true) :
    ∃ s, x = .ok s ∧ p s = true := by
  cases x with
  | ok s => exact ⟨s, rfl, h⟩
  | error e => cases h

/-- Two computations, the second from the value of the first. -/
theorem exists_ok_of_any₂ {x : Except ε σ} {y : σ → Except ε σ} {p : σ → σ → Bool}
    (h : x.toOption.any (fun s => (y s).toOption.any (p s)) = true) :
    ∃ s s', x = .ok s ∧ y s = .ok s' ∧ p s s' = true := by
  obtain ⟨s, hx, h⟩ := exists_ok_of_any h
  obtain ⟨s', hy, h⟩ := exists_ok_of_any h
  exact ⟨s, s', hx, hy, h⟩

theorem bind_eq_ok {x : Except ε α} {f : α → Except ε β} {b : β} :
    (x >>= f) = .ok b ↔ ∃ a, x = .ok a ∧ f a = .ok b := by
  cases x with
  | error e =>
      refine ⟨fun h => (by cases h), ?_⟩
      rintro ⟨a, ha, -⟩
      cases ha
  | ok a =>
      refine ⟨fun h => ⟨a, rfl, h⟩, ?_⟩
      rintro ⟨a', ha, h⟩
      cases ha
      exact h

theorem mapM_cons_ok {f : α → Except ε β} {x : α} {xs : List α} {ys : List β} :
    (x :: xs).mapM f = .ok ys ↔ ∃ y ys', f x = .ok y ∧ xs.mapM f = .ok ys' ∧ ys = y :: ys' := by
  rw [List.mapM_cons]
  cases f x with
  | error e =>
      refine ⟨fun h => (by cases h), ?_⟩
      rintro ⟨y, ys', hy, -⟩
      cases hy
  | ok y =>
      cases hxs : xs.mapM f with
      | error e =>
          refine ⟨fun h => (by cases h), ?_⟩
          rintro ⟨y, ys', -, hys, -⟩
          cases hys
      | ok ys' =>
          refine ⟨fun h => ⟨y, ys', rfl, rfl, (Except.ok.inj h).symm⟩, ?_⟩
          rintro ⟨z, zs, hz, hzs, rfl⟩
          cases hz
          cases hzs
          rfl

/-- A loop of calls that all return. -/
theorem mapM_eq_ok_map {f : α → Except ε β} {g : α → β} {xs : List α}
    (h : ∀ x ∈ xs, f x = .ok (g x)) : xs.mapM f = .ok (xs.map g) := by
  induction xs with
  | nil => rfl
  | cons x xs ih =>
      exact mapM_cons_ok.mpr ⟨g x, xs.map g, h x List.mem_cons_self,
        ih fun x' hx' => h x' (List.mem_cons_of_mem _ hx'), rfl⟩

/-- What every call keeps, a loop of calls keeps item by item. -/
theorem map_of_mapM_ok {γ : Type} {f : α → Except ε β} {g : α → γ} {g' : β → γ}
    (h : ∀ x y, f x = .ok y → g' y = g x) {xs : List α} {ys : List β} (hys : xs.mapM f = .ok ys) :
    ys.map g' = xs.map g := by
  induction xs generalizing ys with
  | nil =>
      cases hys
      rfl
  | cons x xs ih =>
      obtain ⟨y, ys', hy, hys', rfl⟩ := mapM_cons_ok.mp hys
      rw [List.map_cons, List.map_cons, h x y hy, ih hys']

/-- The rest after a check. -/
theorem check_bind_eq_ok {x : Except ε Unit} {f : Unit → Except ε β} {b : β} :
    (x >>= f) = .ok b ↔ x = .ok () ∧ f () = .ok b := by
  rw [bind_eq_ok]
  exact ⟨fun ⟨_, hx, hf⟩ => ⟨hx, hf⟩, fun ⟨hx, hf⟩ => ⟨(), hx, hf⟩⟩

/-- A check. -/
def require (p : Prop) [Decidable p] (e : ε) : Except ε Unit := if p then .ok () else .error e

@[simp] theorem require_eq_ok {p : Prop} [Decidable p] {e : ε} : require p e = .ok () ↔ p := by
  unfold require
  by_cases h : p <;> simp [h]

/-- A loop of checks passes when every check does. -/
theorem forM_eq_ok {f : α → Except ε Unit} {xs : List α} :
    forM xs f = .ok () ↔ ∀ x ∈ xs, f x = .ok () := by
  induction xs with
  | nil => simp [pure, Except.pure]
  | cons x xs ih =>
      rw [List.forM_cons, check_bind_eq_ok, List.forall_mem_cons, ← ih]

/-- The states in which the machine `step` takes its inputs `xs`, each with the input. -/
def trace (step : σ → α → Except ε σ) : σ → List α → List (σ × α)
  | _, [] => []
  | s, x :: xs =>
      (s, x) :: match step s x with
        | .ok s' => trace step s' xs
        | .error _ => []

theorem trace_cons_ok {step : σ → α → Except ε σ} {s s' : σ} {x : α} (h : step s x = .ok s')
    (xs : List α) : trace step s (x :: xs) = (s, x) :: trace step s' xs := by
  simp only [trace, h]

/-- Every input of a trace is one of the list. -/
theorem mem_of_mem_trace {step : σ → α → Except ε σ} {s : σ} {xs : List α} {v : σ × α}
    (h : v ∈ trace step s xs) : v.2 ∈ xs := by
  induction xs generalizing s with
  | nil => cases h
  | cons x xs ih =>
      rw [trace] at h
      rcases List.mem_cons.mp h with rfl | h
      · exact List.mem_cons_self
      · cases hs : step s x with
        | ok s' =>
            rw [hs] at h
            exact List.mem_cons_of_mem _ (ih h)
        | error e =>
            rw [hs] at h
            cases h

theorem foldlM_cons_ok {step : σ → α → Except ε σ} {s s'' : σ} {x : α} {xs : List α} :
    (x :: xs).foldlM step s = .ok s'' ↔
      ∃ s', step s x = .ok s' ∧ xs.foldlM step s' = .ok s'' := by
  rw [List.foldlM_cons]
  cases step s x with
  | ok s' =>
      refine ⟨fun h => ⟨s', rfl, h⟩, ?_⟩
      rintro ⟨t, ht, h⟩
      cases ht
      exact h
  | error e =>
      refine ⟨fun h => (by cases h), ?_⟩
      rintro ⟨t, ht, -⟩
      cases ht

theorem foldlM_cons_error {step : σ → α → Except ε σ} {s : σ} {x : α} {xs : List α} {e : ε} :
    (x :: xs).foldlM step s = .error e ↔
      step s x = .error e ∨ ∃ s', step s x = .ok s' ∧ xs.foldlM step s' = .error e := by
  rw [List.foldlM_cons]
  cases step s x with
  | ok s' =>
      refine ⟨fun h => .inr ⟨s', rfl, h⟩, ?_⟩
      rintro (h | ⟨t, ht, h⟩)
      · cases h
      · cases ht
        exact h
  | error e' =>
      refine ⟨fun h => .inl ?_, ?_⟩
      · cases h
        rfl
      · rintro (h | ⟨t, ht, -⟩)
        · cases h
          rfl
        · cases ht

/-- A machine raises exactly when it raises on an input of its trace. -/
theorem foldlM_eq_error {step : σ → α → Except ε σ} {e : ε} :
    ∀ (xs : List α) (s : σ),
      xs.foldlM step s = .error e ↔ ∃ v ∈ trace step s xs, step v.1 v.2 = .error e
  | [], s => by
      refine ⟨fun h => (by cases h), ?_⟩
      rintro ⟨v, hv, -⟩
      cases hv
  | x :: xs, s => by
      rw [foldlM_cons_error, trace]
      cases hs : step s x with
      | ok s' =>
          simp only [Except.ok.injEq, exists_eq_left', reduceCtorEq, false_or,
            foldlM_eq_error xs s', List.mem_cons, exists_eq_or_imp, hs]
      | error e' => simp [hs]

/-- What holds at the start and is kept holds in every state of the trace. -/
theorem trace_invariant {step : σ → α → Except ε σ} {I : σ → Prop} {C : σ → α → Prop}
    (hstep : ∀ s x s', C s x → I s → step s x = .ok s' → I s') {xs : List α} {s : σ}
    (hC : ∀ v ∈ trace step s xs, C v.1 v.2) (hs : I s) : ∀ v ∈ trace step s xs, I v.1 := by
  induction xs generalizing s with
  | nil =>
      intro v hv
      cases hv
  | cons x xs ih =>
      intro v hv
      have hCx : C s x := hC (s, x) (by simp [trace])
      rw [trace] at hv
      rcases List.mem_cons.mp hv with rfl | hv
      · exact hs
      · cases hx : step s x with
        | ok s' =>
            rw [hx] at hv
            rw [trace_cons_ok hx] at hC
            exact ih (fun v h => hC v (List.mem_cons_of_mem _ h)) (hstep s x s' hCx hs hx) v hv
        | error e =>
            rw [hx] at hv
            cases hv

/-- Run rule for a machine. It raises in a state that satisfies the invariant. -/
theorem foldlM_rule {step : σ → α → Except ε σ} {I : List α → σ → Prop} {C : σ → α → Prop}
    (hstep : ∀ x rest s s', C s x → I (x :: rest) s → step s x = .ok s' → I rest s') :
    ∀ (xs : List α) (s : σ), (∀ v ∈ trace step s xs, C v.1 v.2) → I xs s →
      (∀ s', xs.foldlM step s = .ok s' → I [] s') ∧
      ∀ e, xs.foldlM step s = .error e →
        ∃ x rest s₁, C s₁ x ∧ I (x :: rest) s₁ ∧ step s₁ x = .error e
  | [], s, _, hI => ⟨by rintro s' ⟨⟩; exact hI, by rintro e ⟨⟩⟩
  | x :: xs, s, hC, hI => by
      have hx : C s x := hC (s, x) (by simp [trace])
      rw [List.foldlM_cons]
      cases h : step s x with
      | ok s₁ =>
          rw [trace_cons_ok h] at hC
          exact foldlM_rule hstep xs s₁ (fun v hm => hC v (List.mem_cons_of_mem _ hm))
            (hstep x xs s s₁ hx hI h)
      | error e =>
          refine ⟨by rintro s' ⟨⟩, ?_⟩
          rintro e' ⟨⟩
          exact ⟨x, xs, s, hx, hI, h⟩

end Lib.Fallible
