/-
  LIBRARY. Nodes that depend on each other, run in batches, over arbitrary nodes.

  * `Ordered`: a list in which each node comes after what it depends on; `Orderable`: nodes that
    can be listed so.
  * `ready`: the pending nodes whose dependencies are complete. Running them keeps whether the rest
    can be ordered (`orderable_ready`), and nodes that can be ordered have some (`ready_ne_nil`).
  * `Blocked`: a chain of open dependencies leads to an unknown node or into a cycle;
    `blocked_of_ready_eq_nil`: if no node is ready, all are blocked.
-/
import Mathlib.Data.List.Perm.Basic
import Mathlib.Data.Set.Finite.Basic
import Mathlib.Logic.Relation
import Mathlib.Order.WellFounded

namespace Lib.Schedule

open Relation

variable {α : Type} (deps : α → List α)

/-- Each node comes after what it depends on, as far as that is not complete. -/
def Ordered (completed : List α) : List α → Prop
  | [] => True
  | a :: order => (∀ d ∈ deps a, d ∈ completed) ∧ Ordered (a :: completed) order

def Orderable (completed pending : List α) : Prop :=
  ∃ order, order.Perm pending ∧ Ordered deps completed order

variable {deps} {completed completed' pending order batch : List α}

/-! ## Orders -/

/-- Nodes that are complete are left out, and more may be complete than before. -/
theorem Ordered.filter {p : α → Bool} (h : Ordered deps completed order)
    (hsub : ∀ a ∈ completed, a ∈ completed') (hout : ∀ a ∈ order, p a = false → a ∈ completed') :
    Ordered deps completed' (order.filter p) := by
  induction order generalizing completed completed' with
  | nil => trivial
  | cons a order ih =>
      obtain ⟨hdeps, hrest⟩ := h
      rw [List.forall_mem_cons] at hout
      cases hp : p a with
      | true =>
          rw [List.filter_cons_of_pos hp]
          refine ⟨fun d hd => hsub d (hdeps d hd), ih hrest ?_ ?_⟩
          · exact fun b hb => List.mem_cons.mpr ((List.mem_cons.mp hb).imp_right (hsub b))
          · exact fun b hb hpb => List.mem_cons_of_mem _ (hout.2 b hb hpb)
      | false =>
          rw [List.filter_cons_of_neg (by simp [hp])]
          refine ih hrest ?_ hout.2
          intro b hb
          rcases List.mem_cons.mp hb with rfl | hb
          · exact hout.1 hp
          · exact hsub b hb

theorem Ordered.mono (h : Ordered deps completed order) (hsub : ∀ a ∈ completed, a ∈ completed') :
    Ordered deps completed' order := by
  have hall := h.filter (p := fun _ => true) hsub (by simp)
  rwa [List.filter_true] at hall

theorem ordered_append_iff {order' : List α} : Ordered deps completed (order ++ order') ↔
    Ordered deps completed order ∧ Ordered deps (order ++ completed) order' := by
  induction order generalizing completed with
  | nil => exact (true_and _).symm.to_iff
  | cons a order ih =>
      have hsame : Ordered deps (order ++ a :: completed) order' ↔
          Ordered deps (a :: order ++ completed) order' := by
        constructor <;> refine fun h => h.mono fun b hb => ?_ <;>
          simp only [List.cons_append, List.mem_cons, List.mem_append] at hb ⊢ <;> tauto
      rw [List.cons_append, Ordered, ih, hsame]
      exact and_assoc.symm

/-- Nodes whose dependencies are complete, in any order. -/
theorem ordered_of_complete (h : ∀ a ∈ batch, ∀ d ∈ deps a, d ∈ completed) :
    Ordered deps completed batch := by
  induction batch generalizing completed with
  | nil => trivial
  | cons a batch ih =>
      rw [List.forall_mem_cons] at h
      exact ⟨h.1, ih fun b hb d hd => List.mem_cons_of_mem _ (h.2 b hb d hd)⟩

/-! ## Batches -/

section Batches

variable [DecidableEq α]

variable (deps) in
/-- The pending nodes whose dependencies are complete. -/
def ready (completed pending : List α) : List α :=
  pending.filter fun a => (deps a).all (· ∈ completed)

theorem mem_ready {a : α} :
    a ∈ ready deps completed pending ↔ a ∈ pending ∧ ∀ d ∈ deps a, d ∈ completed := by
  simp [ready]

theorem ready_append_perm : (ready deps completed pending ++
    pending.filter (· ∉ ready deps completed pending)).Perm pending := by
  have hrest : pending.filter (· ∉ ready deps completed pending) =
      pending.filter fun a => !(deps a).all (· ∈ completed) := by
    refine List.filter_congr fun a ha => ?_
    rw [Bool.eq_iff_iff]
    simp [mem_ready, ha]
  rw [hrest]
  exact List.filter_append_perm _ _

/-- Running what is ready keeps whether the nodes can be ordered. -/
theorem orderable_ready : Orderable deps completed pending ↔
    Orderable deps (ready deps completed pending ++ completed)
      (pending.filter (· ∉ ready deps completed pending)) := by
  constructor
  · rintro ⟨order, hperm, h⟩
    refine ⟨_, hperm.filter _, h.filter ?_ ?_⟩
    · exact fun a ha => List.mem_append_right _ ha
    · intro a _ ha
      exact List.mem_append_left _ (by simpa using ha)
  · rintro ⟨order, hperm, h⟩
    refine ⟨ready deps completed pending ++ order, ?_, ordered_append_iff.mpr ⟨?_, h⟩⟩
    · exact (hperm.append_left _).trans ready_append_perm
    · exact ordered_of_complete fun a ha => (mem_ready.mp ha).2

/-- Nodes that can be ordered can start. -/
theorem ready_ne_nil (h : Orderable deps completed pending) (hne : pending ≠ []) :
    ready deps completed pending ≠ [] := by
  obtain ⟨order, hperm, h⟩ := h
  cases order with
  | nil => exact absurd hperm.nil_eq.symm hne
  | cons a order => exact List.ne_nil_of_mem (mem_ready.mpr ⟨hperm.subset List.mem_cons_self, h.1⟩)

end Batches

/-! ## Blocked nodes -/

variable (deps) in
/-- The node waits for a dependency that is not complete. -/
def Waits (nodes completed : List α) (a d : α) : Prop :=
  a ∈ nodes ∧ d ∈ deps a ∧ d ∉ completed

variable (deps) in
/-- A chain of open dependencies leads to an unknown node or into a cycle. -/
def Blocked (nodes completed : List α) (a : α) : Prop :=
  ∃ b, ReflTransGen (Waits deps nodes completed) a b ∧
    ((b ∉ nodes ∧ b ∉ completed) ∨ TransGen (Waits deps nodes completed) b b)

/-- In a finite set that has a step from every node, the steps run into a cycle. -/
theorem exists_cycle {r : α → α → Prop} {s : Set α} [Finite s] (h : ∀ a ∈ s, ∃ b ∈ s, r a b)
    {a : α} (ha : a ∈ s) : ∃ b, ReflTransGen r a b ∧ TransGen r b b := by
  by_contra hnone
  -- without a cycle the nodes that can be reached are ordered, and one of them is the last
  let later (x y : {x : s // ReflTransGen r a x}) : Prop := TransGen r y.1 x.1
  have : IsTrans _ later := ⟨fun x y z hxy hyz => hyz.trans hxy⟩
  have : Std.Irrefl later := ⟨fun x hx => hnone ⟨x.1, x.2, hx⟩⟩
  obtain ⟨x, -, hlast⟩ := (Finite.wellFounded_of_trans_of_irrefl later).has_min Set.univ
    ⟨⟨⟨a, ha⟩, .refl⟩, trivial⟩
  obtain ⟨b, hb, hstep⟩ := h x.1 x.1.2
  exact hlast ⟨⟨b, hb⟩, x.2.tail hstep⟩ trivial (.single hstep)

/-- If no pending node is ready, each of them is blocked: it waits for a pending node again, or for
    an unknown one. -/
theorem blocked_of_ready_eq_nil [DecidableEq α] {nodes : List α}
    (hnone : ready deps completed' pending = [])
    (hsub : ∀ a ∈ completed, a ∈ completed') (hpending : ∀ a ∈ pending, a ∈ nodes)
    (hnodes : ∀ a ∈ nodes, a ∉ completed' → a ∈ pending) {a : α} (ha : a ∈ pending) :
    Blocked deps nodes completed a := by
  have hwaits : ∀ b ∈ pending, ∃ d, Waits deps nodes completed b d ∧ d ∉ completed' := by
    intro b hb
    by_contra hall
    refine List.ne_nil_of_mem (mem_ready.mpr ⟨hb, fun d hd => ?_⟩) hnone
    by_contra hopen
    exact hall ⟨d, ⟨hpending b hb, hd, fun h => hopen (hsub d h)⟩, hopen⟩
  by_cases hunknown : ∃ b, ReflTransGen (Waits deps nodes completed) a b ∧ b ∉ nodes ∧ b ∉ completed
  · obtain ⟨b, hpath, hb⟩ := hunknown
    exact ⟨b, hpath, .inl hb⟩
  · let s : Set α := {b | b ∈ pending ∧ ReflTransGen (Waits deps nodes completed) a b}
    have hfinite : Finite s := 
      pending.toFinset.finite_toSet.subset fun b hb => List.mem_toFinset.mpr hb.1
    have hnext : ∀ b ∈ s, ∃ d ∈ s, Waits deps nodes completed b d := by
      rintro b ⟨hb, hpath⟩
      obtain ⟨d, hd, hopen⟩ := hwaits b hb
      refine ⟨d, ⟨?_, hpath.tail hd⟩, hd⟩
      by_contra hd'
      exact hunknown ⟨d, hpath.tail hd, fun h => hd' (hnodes d h hopen), hd.2.2⟩
    obtain ⟨b, hpath, hcycle⟩ := exists_cycle hnext ⟨ha, .refl⟩
    exact ⟨b, hpath, .inr hcycle⟩

end Lib.Schedule
