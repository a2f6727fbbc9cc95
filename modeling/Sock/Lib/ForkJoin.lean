/-
  LIBRARY. Loops that fork threads and wait for all of them, over arbitrary control states.

  * `Program.each`: a program for each item, one after the other; `Program.Returns`: what a program
    can return, whatever other threads do to the state.
  * `Round`: what a loop does next. It has finished, or it forks threads whose results it joins.
  * `Loop.Step`: one step of the loop or of one of its threads. The threads of a round run in any
    order; when all have ended, the loop goes on, or ends with the error of the first that raised.
  * `Invariant`: what the rounds keep, with a measure that they lower. Then every run ends
    (`Invariant.acc`), at a round that is finished or with an error of a thread
    (`Loop.ended_of_not_step`).
-/
import Sock.Lib.Threads

namespace Lib.Threads

open Fallible Relation

variable {κ σ ε α β γ : Type}

/-! ## Programs -/

namespace Program

/-- The programs of the items, one after the other. -/
def each (f : γ → Program σ ε α) : List γ → Program σ ε (List α)
  | [] => pure []
  | x :: xs => do
      let a ← f x
      let as ← each f xs
      return a :: as

theorem serial_each (f : γ → Program σ ε α) (xs : List γ) :
    (each f xs).serial = xs.mapM fun x => (f x).serial := by
  induction xs with
  | nil => rfl
  | cons x xs ih =>
      rw [each, serial_bind, List.mapM_cons]
      refine congrArg _ (funext fun a => ?_)
      rw [serial_bind, ih]
      rfl

/-- The program returns as `P` says and raises as `F` says, whatever others do. -/
def Returns (P : α → Prop) (F : ε → Prop) : Program σ ε α → Prop
  | done a => P a
  | raised e => F e
  | step _ next => ∀ s, Returns P F (next s)

section Returns

variable {P : α → Prop} {Q : β → Prop} {F : ε → Prop}

theorem Returns.bind {p : Program σ ε α} {f : α → Program σ ε β} (h : p.Returns P F)
    (hf : ∀ a, P a → (f a).Returns Q F) : (p >>= f).Returns Q F := by
  induction p with
  | done a => exact hf a h
  | raised e => exact h
  | step act next ih => exact fun s => ih s (h s)

theorem returns_atomic {x : EStateM ε σ α} (h : ∀ s, Finishes x s (fun a _ => P a) F) :
    (atomic x).Returns P F := by
  intro s
  show (ofResult (x.run s)).Returns P F
  cases hrun : x.run s with
  | ok a s' => exact (h s).of_ok hrun
  | error e s' => exact (h s).of_error hrun

theorem returns_each {R : γ → α → Prop} {f : γ → Program σ ε α} {xs : List γ}
    (h : ∀ x ∈ xs, (f x).Returns (R x) F) : (each f xs).Returns (List.Forall₂ R xs) F := by
  induction xs with
  | nil => exact List.Forall₂.nil
  | cons x xs ih =>
      rw [List.forall_mem_cons] at h
      exact h.1.bind fun a ha => (ih h.2).bind fun as has => List.Forall₂.cons ha has

theorem Returns.of_serial {p : Program σ ε α} (h : p.Returns P F) {s s' : σ} {a : α}
    (hrun : p.serial.run s = .ok a s') : P a := by
  induction p generalizing s with
  | done b =>
      cases hrun
      exact h
  | raised e => cases hrun
  | step act next ih => exact ih s (h s) hrun

end Returns

/-- The program has no step left. -/
def Ended : Program σ ε α → Prop
  | step _ _ => False
  | _ => True

end Program

/-! ## Loops -/

/-- What a loop does in a control state. -/
inductive Round (κ σ ε α β : Type)
  | finished (r : Except ε β)
  | fork (n : Nat) (threads : Fin n → Program σ ε α) (join : (Fin n → α) → κ)

/-- Where a loop is: between two rounds, waiting for the threads of one, or at its end. -/
inductive Phase (κ σ ε α β : Type)
  | control (k : κ)
  | running (n : Nat) (threads : Fin n → Program σ ε α) (join : (Fin n → α) → κ)
  | finished (r : Except ε β)
  | raised (e : ε)

/-- A loop and the state that its threads share. -/
structure Loop (κ σ ε α β : Type) where
  phase : Phase κ σ ε α β
  state : σ

namespace Loop

variable (round : κ → Round κ σ ε α β)

inductive Step : Loop κ σ ε α β → Loop κ σ ε α β → Prop
  | finish {k : κ} {s : σ} {r : Except ε β} (h : round k = .finished r) :
      Step ⟨.control k, s⟩ ⟨.finished r, s⟩
  | fork {k : κ} {s : σ} {n : Nat} {threads : Fin n → Program σ ε α} {join : (Fin n → α) → κ}
      (h : round k = .fork n threads join) :
      Step ⟨.control k, s⟩ ⟨.running n threads join, s⟩
  | thread {n : Nat} {threads threads' : Fin n → Program σ ε α} {join : (Fin n → α) → κ} {s s' : σ}
      (h : Threads.Step ⟨threads, s⟩ ⟨threads', s'⟩) :
      Step ⟨.running n threads join, s⟩ ⟨.running n threads' join, s'⟩
  | join {n : Nat} {threads : Fin n → Program σ ε α} {join : (Fin n → α) → κ} {s : σ}
      {results : Fin n → α} (h : ∀ i, threads i = .done (results i)) :
      Step ⟨.running n threads join, s⟩ ⟨.control (join results), s⟩
  | raise {n : Nat} {threads : Fin n → Program σ ε α} {join : (Fin n → α) → κ} {s : σ} {i : Fin n}
      {e : ε} (hended : ∀ j, (threads j).Ended) (hi : threads i = .raised e)
      (hfirst : ∀ j < i, ∀ e', threads j ≠ .raised e') :
      Step ⟨.running n threads join, s⟩ ⟨.raised e, s⟩

abbrev Reaches : Loop κ σ ε α β → Loop κ σ ε α β → Prop := ReflTransGen (Step round)

variable {round}

/-- Steps of the threads are steps of the loop. -/
theorem reaches_of_interleaves {n : Nat} {join : (Fin n → α) → κ} {c c' : Config (Fin n) σ ε α}
    (h : Interleaves c c') : Reaches round ⟨.running n c.threads join, c.state⟩
      ⟨.running n c'.threads join, c'.state⟩ := by
  induction h with
  | refl => exact .refl
  | tail _ hstep ih => exact ih.tail (.thread hstep)

/-- A single thread runs to its end and is joined. -/
theorem reaches_of_serial {p : Program σ ε α} {join : (Fin 1 → α) → κ} {s s' : σ} {a : α}
    (h : p.serial.run s = .ok a s') : Reaches round ⟨.running 1 (fun _ => p) join, s⟩
      ⟨.control (join fun _ => a), s'⟩ := by
  have hsteps : Interleaves (⟨fun _ => p, s⟩ : Config (Fin 1) σ ε α)
      ⟨Function.update (fun _ => p) 0 (.done a), s'⟩ := .of_advances rfl (.of_serial h)
  refine (reaches_of_interleaves hsteps).tail (.join fun i => ?_)
  cases Subsingleton.elim i 0
  rfl

theorem reaches_of_serial_error {p : Program σ ε α} {join : (Fin 1 → α) → κ} {s s' : σ} {e : ε}
    (h : p.serial.run s = .error e s') : Reaches round ⟨.running 1 (fun _ => p) join, s⟩
      ⟨.raised e, s'⟩ := by
  have hsteps : Interleaves (⟨fun _ => p, s⟩ : Config (Fin 1) σ ε α)
      ⟨Function.update (fun _ => p) 0 (.raised e), s'⟩ := .of_advances rfl (.of_serial_error h)
  refine (reaches_of_interleaves hsteps).tail (.raise (i := 0) (fun j => ?_) rfl fun j hj => ?_)
  · cases Subsingleton.elim j 0
    trivial
  · exact absurd hj (Fin.not_lt_zero j)

/-- A loop that cannot go on is at its end. -/
theorem ended_of_not_step {c : Loop κ σ ε α β} (h : ∀ c', ¬ Step round c c') :
    (∃ r, c.phase = .finished r) ∨ ∃ e, c.phase = .raised e := by
  obtain ⟨phase, s⟩ := c
  cases phase with
  | finished r => exact .inl ⟨r, rfl⟩
  | raised e => exact .inr ⟨e, rfl⟩
  | control k =>
      cases hround : round k with
      | finished r => exact absurd (Step.finish hround) (h _)
      | fork n threads join => exact absurd (Step.fork hround) (h _)
  | running n threads join =>
      have hended : ∀ i, (threads i).Ended := by
        intro i
        cases hi : threads i with
        | done a => trivial
        | raised e => trivial
        | step act next => exact absurd (Step.thread (.mk i hi)) (h _)
      by_cases hdone : ∀ i, ∃ a, threads i = .done a
      · choose results hresults using hdone
        exact absurd (Step.join hresults) (h _)
      · -- all have ended and one has raised, so there is a first that has
        have hraised : ∃ i, ∃ e, threads i = .raised e := by
          obtain ⟨i, hi⟩ := not_forall.mp hdone
          refine ⟨i, ?_⟩
          have hend := hended i
          cases hp : threads i with
          | done a => exact absurd ⟨a, hp⟩ hi
          | raised e => exact ⟨e, rfl⟩
          | step act next => rw [hp] at hend; exact hend.elim
        obtain ⟨i, ⟨e, he⟩, hfirst⟩ := WellFounded.has_min (wellFounded_lt (α := Fin n))
          {i | ∃ e, threads i = .raised e} hraised
        refine absurd (Step.raise hended he fun j hj e' hj' => hfirst j ⟨e', hj'⟩ hj) (h _)

end Loop

/-! ## Invariants -/

/-- What holds of the control states: joining what threads can return keeps it, and lowers the
    measure. The threads raise as `F` says. -/
structure Invariant (round : κ → Round κ σ ε α β) (I : κ → Prop) (F : ε → Prop)
    (measure : κ → Nat) : Prop where
  keeps : ∀ {k n threads join}, I k → round k = .fork n threads join →
    ∃ L : Fin n → α → Prop, (∀ i, (threads i).Returns (L i) F) ∧
      ∀ results, (∀ i, L i (results i)) → I (join results) ∧ measure (join results) < measure k

namespace Invariant

variable {round : κ → Round κ σ ε α β} {I : κ → Prop} {F : ε → Prop} {measure : κ → Nat}

/-- The invariant at any point of the loop. -/
def Holds (round : κ → Round κ σ ε α β) (I : κ → Prop) (F : ε → Prop) : Phase κ σ ε α β → Prop
  | .control k => I k
  | .running n threads join => ∃ L : Fin n → α → Prop, (∀ i, (threads i).Returns (L i) F) ∧
      ∀ results, (∀ i, L i (results i)) → I (join results)
  | .finished r => ∃ k, I k ∧ round k = .finished r
  | .raised e => F e

theorem returns_step {n : Nat} {threads threads' : Fin n → Program σ ε α} {s s' : σ}
    {L : Fin n → α → Prop} (h : Threads.Step ⟨threads, s⟩ ⟨threads', s'⟩)
    (hreturns : ∀ i, (threads i).Returns (L i) F) (i : Fin n) :
    (threads' i).Returns (L i) F := by
  cases h with
  | @mk j act next hj =>
      by_cases hij : i = j
      · subst hij
        rw [Function.update_self]
        have hi := hreturns i
        dsimp only at hj
        rw [hj] at hi
        exact hi s
      · rw [Function.update_of_ne hij]
        exact hreturns i

theorem holds_step (h : Invariant round I F measure) {c c' : Loop κ σ ε α β}
    (hc : Holds round I F c.phase) (hstep : Loop.Step round c c') : Holds round I F c'.phase := by
  cases hstep with
  | finish hround => exact ⟨_, hc, hround⟩
  | fork hround =>
      obtain ⟨L, hreturns, hjoin⟩ := h.keeps hc hround
      exact ⟨L, hreturns, fun results hresults => (hjoin results hresults).1⟩
  | thread hthread =>
      obtain ⟨L, hreturns, hjoin⟩ := hc
      exact ⟨L, returns_step hthread hreturns, hjoin⟩
  | join hdone =>
      obtain ⟨L, hreturns, hjoin⟩ := hc
      refine hjoin _ fun i => ?_
      have hi := hreturns i
      rw [hdone i] at hi
      exact hi
  | @raise _ _ _ _ i e _ hi _ =>
      obtain ⟨L, hreturns, -⟩ := hc
      have hraised := hreturns i
      rw [hi] at hraised
      exact hraised

theorem holds_of_reaches (h : Invariant round I F measure) {c c' : Loop κ σ ε α β}
    (hc : Holds round I F c.phase) (hreach : Loop.Reaches round c c') :
    Holds round I F c'.phase := by
  induction hreach with
  | refl => exact hc
  | tail _ hstep ih => exact h.holds_step ih hstep

/-- The threads of a round end. -/
theorem acc_running {n : Nat} {join : (Fin n → α) → κ} {L : Fin n → α → Prop}
    (hjoin : ∀ results, (∀ i, L i (results i)) → ∀ s,
      Acc (fun c' c => Loop.Step round c c') ⟨.control (join results), s⟩)
    (config : Config (Fin n) σ ε α) (hreturns : ∀ i, (config.threads i).Returns (L i) F) :
    Acc (fun c' c => Loop.Step round c c') ⟨.running n config.threads join, config.state⟩ := by
  have hended : WellFounded fun c' c : Config (Fin n) σ ε α => Step c c' := wellFounded_step
  induction config using hended.induction with
  | _ config ih =>
      refine ⟨_, fun c' hstep => ?_⟩
      cases hstep with
      | @thread _ _ threads' _ _ s' hthread =>
          exact ih ⟨threads', s'⟩ hthread (returns_step hthread hreturns)
      | join hdone =>
          refine hjoin _ (fun i => ?_) _
          have hi := hreturns i
          rw [hdone i] at hi
          exact hi
      | raise => exact ⟨_, fun c' h => by cases h⟩

/-- **Termination.** No run of the loop goes on forever. -/
theorem acc (h : Invariant round I F measure) {k : κ} (hk : I k) (s : σ) :
    Acc (fun c' c => Loop.Step round c c') ⟨.control k, s⟩ := by
  induction hm : measure k using Nat.strong_induction_on generalizing k s with
  | _ m ih =>
      refine ⟨_, fun c' hstep => ?_⟩
      cases hstep with
      | finish => exact ⟨_, fun c' h => by cases h⟩
      | @fork _ _ n threads join hround =>
          obtain ⟨L, hreturns, hjoin⟩ := h.keeps hk hround
          refine acc_running (fun results hresults s' => ?_) ⟨threads, s⟩ hreturns
          obtain ⟨hI, hlt⟩ := hjoin results hresults
          exact ih _ (hm ▸ hlt) hI s' rfl

end Invariant

end Lib.Threads
