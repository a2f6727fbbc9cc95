/-
  LIBRARY. Programs that share a state and run step by step, over arbitrary states and results.

  A `Program` is done, has raised, or takes an atomic step: the step changes the state, and how
  the program goes on depends on the state before it.

  * `serial`: the program alone, from begin to end, as a program in `EStateM`.
  * `Interleaves`: the steps of several threads in any order; `wellFounded_step`: no order goes on
    forever.
  * `Ensures R G Q p s`: if others change the state as `R` says, then the steps of `p` are as `G`
    says, `p` does not raise, and it ends with `Q`. The rules follow the program text
    (`Ensures.bind`, `ensures_atomic`, `ensures_forM`).
  * `Interleaves.ensures`: threads each of which relies on no more than what the others guarantee.
  * `Interleaves.serial`: a single thread runs as if alone.
  * `Advances`: some steps of one thread, from which an interleaving is put together.
-/
import Mathlib.Data.Fintype.Basic
import Mathlib.Logic.Hydra
import Sock.Lib.Fallible

namespace Lib.Threads

open Fallible

/-- A program whose steps act on a shared state. What comes next depends on the state before the
    step. -/
inductive Program (σ ε α : Type)
  | done (a : α)
  | raised (e : ε)
  | step (act : σ → σ) (next : σ → Program σ ε α)

variable {σ ε α β ι : Type}

namespace Program

def bind : Program σ ε α → (α → Program σ ε β) → Program σ ε β
  | done a, f => f a
  | raised e, _ => raised e
  | step act next, f => step act fun s => (next s).bind f

instance : Monad (Program σ ε) where
  pure := done
  bind := bind

@[simp] theorem done_bind (a : α) (f : α → Program σ ε β) : (done a >>= f) = f a := rfl

theorem bind_assoc {γ : Type} (p : Program σ ε α) (f : α → Program σ ε β)
    (g : β → Program σ ε γ) : (p >>= f >>= g) = p >>= fun a => f a >>= g := by
  induction p with
  | done a => rfl
  | raised e => rfl
  | step act next ih => exact congrArg (step act) (funext ih)

/-- What is left of a computation that has run. -/
def ofResult : EStateM.Result ε σ α → Program σ ε α
  | .ok a _ => done a
  | .error e _ => raised e

/-- A computation as one step. -/
def atomic (x : EStateM ε σ α) : Program σ ε α :=
  step (fun s => endState (x.run s)) fun s => ofResult (x.run s)

/-! ## One program alone -/

/-- The program from begin to end. -/
def serial : Program σ ε α → EStateM ε σ α
  | done a => pure a
  | raised e => throw e
  | step act next => fun s => (next s).serial (act s)

@[simp] theorem serial_pure (a : α) : (pure a : Program σ ε α).serial = pure a := rfl

theorem run_serial_step (act : σ → σ) (next : σ → Program σ ε α) (s : σ) :
    (step act next).serial.run s = (next s).serial.run (act s) := rfl

@[simp] theorem serial_bind (p : Program σ ε α) (f : α → Program σ ε β) :
    (p >>= f).serial = p.serial >>= fun a => (f a).serial := by
  induction p with
  | done a => rfl
  | raised e => rfl
  | step act next ih =>
      funext s
      show (next s >>= f).serial.run (act s) = ((step act next).serial >>= _).run s
      rw [ih s, EStateM.run_bind, EStateM.run_bind, run_serial_step]

@[simp] theorem serial_atomic (x : EStateM ε σ α) : (atomic x).serial = x := by
  funext s
  show (ofResult (x.run s)).serial.run (endState (x.run s)) = x.run s
  cases x.run s <;> rfl

/-! ## Some steps of one program -/

/-- From the program and state on the left some steps lead to those on the right. -/
inductive Advances : Program σ ε α → σ → Program σ ε α → σ → Prop
  | refl (p : Program σ ε α) (s : σ) : Advances p s p s
  | step {act : σ → σ} {next : σ → Program σ ε α} {s s' : σ} {p' : Program σ ε α}
      (h : Advances (next s) (act s) p' s') : Advances (.step act next) s p' s'

namespace Advances

variable {p p' p'' : Program σ ε α} {s s' s'' : σ}

theorem trans (h : Advances p s p' s') (h' : Advances p' s' p'' s'') : Advances p s p'' s'' := by
  induction h with
  | refl => exact h'
  | step _ ih => exact .step (ih h')

theorem bind (h : Advances p s p' s') (f : α → Program σ ε β) :
    Advances (p >>= f) s (p' >>= f) s' := by
  induction h with
  | refl => exact .refl _ _
  | step _ ih => exact .step ih

/-- A program that runs to its end gets there. -/
theorem of_serial {a : α} (h : p.serial.run s = .ok a s') : Advances p s (.done a) s' := by
  induction p generalizing s with
  | done b =>
      cases h
      exact .refl _ _
  | raised e => cases h
  | step act next ih => exact .step (ih s h)

theorem of_serial_error {e : ε} (h : p.serial.run s = .error e s') :
    Advances p s (.raised e) s' := by
  induction p generalizing s with
  | done b => cases h
  | raised e' =>
      cases h
      exact .refl _ _
  | step act next ih => exact .step (ih s h)

/-- A first part that runs to its end is followed by the second. -/
theorem of_serial_bind {x : Program σ ε β} {f : β → Program σ ε α} {b : β}
    (h : x.serial.run s = .ok b s') (hnext : Advances (f b) s' p'' s'') :
    Advances (x >>= f) s p'' s'' := ((of_serial h).bind f).trans hnext

theorem raised_of_serial {x : EStateM ε σ β} {f : β → Program σ ε α} {e : ε}
    (h : x.run s = .error e s') : Advances (atomic x >>= f) s (.raised e) s' := by
  refine .step ?_
  show Advances (ofResult (x.run s) >>= f) (endState (x.run s)) _ _
  rw [h]
  exact .refl _ _

end Advances

/-! ## Programs among others -/

/-- If others change the state as `R` says, then the steps of the program are as `G` says, it does
    not raise, and it ends with `Q`. -/
def Ensures (R G : σ → σ → Prop) (Q : α → σ → Prop) : Program σ ε α → σ → Prop
  | done a, s => ∀ s', R s s' → Q a s'
  | raised _, _ => False
  | step act next, s => ∀ s', R s s' → G s' (act s') ∧ Ensures R G Q (next s') (act s')

section Ensures

variable {R G : σ → σ → Prop} {P : σ → Prop} {Q : α → σ → Prop} {Q' : β → σ → Prop} {s s' : σ}

/-- Others do not change what holds. -/
def Stable (R : σ → σ → Prop) (P : σ → Prop) : Prop := ∀ s s', R s s' → P s → P s'

theorem ensures_done {a : α} (hQ : Stable R (Q a)) (h : Q a s) :
    Ensures R G Q (done a : Program σ ε α) s := fun s' hR => hQ s s' hR h

/-- A step that returns in every state with `P`. -/
theorem ensures_atomic {x : EStateM ε σ α} (hP : Stable R P) (hQ : ∀ a, Stable R (Q a)) (hs : P s)
    (h : ∀ t, P t → ∃ a t', x.run t = .ok a t' ∧ G t t' ∧ Q a t') :
    Ensures R G Q (atomic x) s := by
  intro t hR
  obtain ⟨a, t', hrun, hG, ht⟩ := h t (hP s t hR hs)
  show G t (endState (x.run t)) ∧ Ensures R G Q (ofResult (x.run t)) (endState (x.run t))
  rw [hrun]
  exact ⟨hG, ensures_done (hQ a) ht⟩

theorem Ensures.imp {G' : σ → σ → Prop} (hG : ∀ s s', G s s' → G' s s') {p : Program σ ε α}
    (h : Ensures R G Q p s) : Ensures R G' Q p s := by
  induction p generalizing s with
  | done a => exact h
  | raised e => exact h
  | step act next ih => exact fun t ht => ⟨hG _ _ (h t ht).1, ih t (h t ht).2⟩

variable [IsPreorder σ R]

theorem Ensures.of_rely {p : Program σ ε α} (h : Ensures R G Q p s) (hR : R s s') :
    Ensures R G Q p s' := by
  cases p with
  | done a => exact fun t ht => h t (IsTrans.trans _ _ _ hR ht)
  | raised e => exact h
  | step act next => exact fun t ht => h t (IsTrans.trans _ _ _ hR ht)

theorem Ensures.bind {p : Program σ ε α} {f : α → Program σ ε β} (h : Ensures R G Q p s)
    (hnext : ∀ a s', Q a s' → Ensures R G Q' (f a) s') : Ensures R G Q' (p >>= f) s := by
  induction p generalizing s with
  | done a => exact hnext a s (h s (refl s))
  | raised e => exact h.elim
  | step act next ih => exact fun t ht => ⟨(h t ht).1, ih t (h t ht).2⟩

theorem ensures_forM {xs : List α} {f : α → Program σ ε PUnit} (hP : Stable R P) (hs : P s)
    (h : ∀ x ∈ xs, ∀ t, P t → Ensures R G (fun _ => P) (f x) t) :
    Ensures R G (fun _ => P) (forM xs f) s := by
  induction xs generalizing s with
  | nil => exact ensures_done hP hs
  | cons x xs ih =>
      rw [List.forM_cons]
      rw [List.forall_mem_cons] at h
      exact (h.1 s hs).bind fun _ t ht => ih ht h.2

end Ensures

/-! ## Termination -/

/-- What a program is after one of its steps. -/
inductive Child : Program σ ε α → Program σ ε α → Prop
  | mk (act : σ → σ) (next : σ → Program σ ε α) (s : σ) : Child (next s) (step act next)

theorem wellFounded_child : WellFounded (Child : Program σ ε α → Program σ ε α → Prop) := by
  refine ⟨fun p => ?_⟩
  induction p with
  | done a => exact ⟨_, fun _ h => nomatch h⟩
  | raised e => exact ⟨_, fun _ h => nomatch h⟩
  | step act next ih =>
      refine ⟨_, fun _ h => ?_⟩
      cases h with
      | mk _ _ s => exact ih s

end Program

/-! ## Threads -/

/-- Threads and the state they share. -/
structure Config (ι σ ε α : Type) where
  threads : ι → Program σ ε α
  state : σ

variable [DecidableEq ι]

/-- One thread takes one step. -/
inductive Step : Config ι σ ε α → Config ι σ ε α → Prop
  | mk {c : Config ι σ ε α} (i : ι) {act : σ → σ} {next : σ → Program σ ε α}
      (h : c.threads i = .step act next) :
      Step c ⟨Function.update c.threads i (next c.state), act c.state⟩

/-- The steps of the threads, in any order. -/
abbrev Interleaves : Config ι σ ε α → Config ι σ ε α → Prop := Relation.ReflTransGen Step

theorem map_update_add [Fintype ι] {γ : Type} (f : ι → γ) (i : ι) (v : γ) :
    Finset.univ.val.map (Function.update f i v) + {f i} = Finset.univ.val.map f + {v} := by
  have huniv : (Finset.univ : Finset ι).val = i ::ₘ (Finset.univ.erase i).val := by
    rw [← Finset.insert_val_of_notMem (Finset.notMem_erase i _), Finset.insert_erase
      (Finset.mem_univ i)]
  have hrest : (Finset.univ.erase i).val.map (Function.update f i v) =
      (Finset.univ.erase i).val.map f :=
    Multiset.map_congr rfl fun j hj => Function.update_of_ne (Finset.ne_of_mem_erase hj) v f
  rw [huniv, Multiset.map_cons, Multiset.map_cons, hrest, Function.update_self,
    Multiset.add_comm, Multiset.singleton_add, Multiset.add_comm (f i ::ₘ _),
    Multiset.singleton_add, Multiset.cons_swap]

/-- Finitely many threads end in whatever order they run. -/
theorem wellFounded_step [Finite ι] :
    WellFounded fun c' c : Config ι σ ε α => Step c c' := by
  have := Fintype.ofFinite ι
  refine Subrelation.wf ?_ (InvImage.wf (fun c : Config ι σ ε α => Finset.univ.val.map c.threads)
    Program.wellFounded_child.cutExpand)
  rintro c' c ⟨i, h⟩
  refine ⟨_, c.threads i, ?_, map_update_add c.threads i _⟩
  intro p hp
  rw [Multiset.mem_singleton.mp hp, h]
  exact .mk _ _ _

/-- Some steps of one thread are steps of all. -/
theorem Interleaves.of_advances {threads : ι → Program σ ε α} {i : ι} {p p' : Program σ ε α}
    {s s' : σ} (hi : threads i = p) (h : p.Advances s p' s') :
    Interleaves ⟨threads, s⟩ ⟨Function.update threads i p', s'⟩ := by
  induction h generalizing threads with
  | refl p s =>
      rw [← hi, Function.update_eq_self]
  | @step act next s s' p' _ ih =>
      have hrest := @ih (Function.update threads i (next s)) (Function.update_self ..)
      rw [Function.update_idem] at hrest
      exact .head (.mk i hi) hrest

/-- Steps of one thread between two parts of another. -/
theorem Interleaves.of_advances_between {c : Config ι σ ε α} {i j : ι} (hij : i ≠ j)
    {p p' q : Program σ ε α} {s₁ s₂ s' : σ} (hfirst : (c.threads j).Advances c.state p s₁)
    (hbetween : (c.threads i).Advances s₁ q s₂) (hsecond : p.Advances s₂ p' s') :
    ∃ c', Interleaves c c' ∧ c'.threads j = p' := by
  have hi : Function.update c.threads j p i = c.threads i := Function.update_of_ne hij p c.threads
  have hj : Function.update (Function.update c.threads j p) i q j = p := by
    rw [Function.update_of_ne hij.symm, Function.update_self]
  exact ⟨_, ((of_advances rfl hfirst).trans (of_advances hi hbetween)).trans
    (of_advances hj hsecond), Function.update_self ..⟩

/-- A single thread runs as if alone. -/
theorem Interleaves.serial [Subsingleton ι] {c c' : Config ι σ ε α} (h : Interleaves c c')
    (i : ι) : (c'.threads i).serial.run c'.state = (c.threads i).serial.run c.state := by
  induction h with
  | refl => rfl
  | tail _ hstep ih =>
      rw [← ih]
      cases hstep with
      | mk j hj =>
          cases Subsingleton.elim i j
          dsimp only
          rw [Function.update_self, hj]
          rfl

section Rely

variable {R G : ι → σ → σ → Prop} {Q : ι → α → σ → Prop} [∀ i, IsPreorder σ (R i)]
  {c c' : Config ι σ ε α}

/-- **Threads that rely on each other.** If each thread ensures its result, relying on no more than
    what every other guarantees, then it still does after any steps of all, and what all guarantee
    to keep is kept. -/
theorem Interleaves.ensures (hcompat : ∀ i j, i ≠ j → ∀ s s', G i s s' → R j s s')
    (h : Interleaves c c') (hstart : ∀ i, (c.threads i).Ensures (R i) (G i) (Q i) c.state) :
    (∀ i, (c'.threads i).Ensures (R i) (G i) (Q i) c'.state) ∧
      ∀ J : σ → Prop, (∀ i s s', G i s s' → J s → J s') → J c.state → J c'.state := by
  induction h with
  | refl => exact ⟨hstart, fun _ _ hJ => hJ⟩
  | @tail c₁ c₂ _ hstep ih =>
      obtain ⟨hensures, hkeep⟩ := ih
      cases hstep with
      | @mk i act next hi =>
          have hrun := hensures i
          rw [hi] at hrun
          obtain ⟨hG, hnext⟩ := hrun c₁.state (refl _)
          refine ⟨fun j => ?_, fun J hJ hc => hJ i _ _ hG (hkeep J hJ hc)⟩
          dsimp only
          by_cases hij : i = j
          · subst hij
            rw [Function.update_self]
            exact hnext
          · rw [Function.update_of_ne (Ne.symm hij)]
            exact (hensures j).of_rely (hcompat i j hij _ _ hG)

/-- Threads that cannot go on are done, with their results. -/
theorem exists_done (hensures : ∀ i, (c.threads i).Ensures (R i) (G i) (Q i) c.state)
    (hend : ∀ c', ¬ Step c c') (i : ι) : ∃ a, c.threads i = .done a ∧ Q i a c.state := by
  have hi := hensures i
  cases hthread : c.threads i with
  | done a =>
      rw [hthread] at hi
      exact ⟨a, rfl, hi c.state (refl _)⟩
  | raised e =>
      rw [hthread] at hi
      exact hi.elim
  | step act next => exact absurd (.mk i hthread) (hend _)

end Rely

end Lib.Threads
