/-
  LIBRARY. Doubly linked lists between two sentinels, as link fields.

  A `Links α` has the two link fields of every node: the sentinels `head` and `tail`, and one
  node for each item. `Holds L l`: following the links from `head` to `tail` passes the items `l`,
  both ways, and every other item is unlinked.

  * `Holds.splice`: link a batch of unlinked items between two neighbours.
  * `Holds.unlink`: take one item out; its links tell its neighbours.
  * `Holds.detach`: take a batch off the front.

  Each is stated for the writes in the order in which code makes them.
-/
import Mathlib.Data.List.Chain
import Mathlib.Data.List.Nodup
import Mathlib.Logic.Function.Basic

namespace Lib.LinkedList

/-- A node: one of the two sentinels, or the node of an item. -/
inductive Node (α : Type) where
  | head
  | tail
  | item (a : α)
  deriving DecidableEq

variable {α : Type}

/-- The link fields of all nodes. -/
structure Links (α : Type) where
  prev : Node α → Option (Node α)
  next : Node α → Option (Node α)

/-- `p` and `q` are linked, both ways. -/
def Linked (L : Links α) (p q : Node α) : Prop := L.next p = some q ∧ L.prev q = some p

/-- A chain of links depends on the next fields of all nodes but the last, and on the previous
    fields of all but the first. -/
theorem isChain_congr {L L' : Links α} {ns : List (Node α)}
    (hnext : ∀ p ∈ ns.dropLast, L'.next p = L.next p) (hprev : ∀ p ∈ ns.tail, L'.prev p = L.prev p)
    (h : ns.IsChain (Linked L)) : ns.IsChain (Linked L') := by
  induction ns with
  | nil => exact .nil
  | cons p ns ih =>
      cases ns with
      | nil => exact .singleton p
      | cons q ns =>
          obtain ⟨⟨hn, hp⟩, hrest⟩ := List.isChain_cons_cons.mp h
          refine List.isChain_cons_cons.mpr ⟨⟨?_, ?_⟩, ih ?_ ?_ hrest⟩
          · rw [hnext p List.mem_cons_self, hn]
          · rw [hprev q List.mem_cons_self, hp]
          · exact fun r hr => hnext r (List.mem_cons_of_mem p hr)
          · exact fun r hr => hprev r (List.mem_cons_of_mem q hr)

/-! ## Nodes of a list -/

/-- The nodes of the items. -/
def items (l : List α) : List (Node α) := l.map .item

/-- The nodes up to and with the items `u`. -/
def front (u : List α) : List (Node α) := .head :: items u

/-- The nodes from the items `v` on. -/
def back (v : List α) : List (Node α) := items v ++ [.tail]

/-- The nodes of a list, with the sentinels. -/
def nodes (l : List α) : List (Node α) := .head :: back l

/-- The last node of `front u`. -/
def before (u : List α) : Node α := (u.getLast?.map .item).getD .head

/-- The first node of `back v`. -/
def after (v : List α) : Node α := (v.head?.map .item).getD .tail

@[simp] theorem before_nil : before ([] : List α) = .head := rfl

@[simp] theorem before_concat (u : List α) (a : α) : before (u ++ [a]) = .item a := by
  simp [before]

@[simp] theorem after_nil : after ([] : List α) = .tail := rfl

@[simp] theorem after_cons (a : α) (v : List α) : after (a :: v) = .item a := rfl

@[simp] theorem item_mem_items {a : α} {l : List α} : .item a ∈ items l ↔ a ∈ l := by
  simp [items]

@[simp] theorem head_notMem_items (l : List α) : .head ∉ items l := by simp [items]

@[simp] theorem tail_notMem_items (l : List α) : .tail ∉ items l := by simp [items]

theorem items_append (u v : List α) : items (u ++ v) = items u ++ items v := List.map_append

theorem nodup_items {l : List α} (h : l.Nodup) : (items l).Nodup :=
  h.map fun _ _ he => Node.item.inj he

theorem front_eq (u : List α) : front u = (front u).dropLast ++ [before u] := by
  rcases List.eq_nil_or_concat u with rfl | ⟨u, a, rfl⟩
  · rfl
  · rw [List.concat_eq_append, before_concat, front, items_append, ← List.cons_append]
    show _ = ((Node.head :: items u) ++ [Node.item a]).dropLast ++ _
    rw [List.dropLast_concat]
    rfl

theorem front_append (u bs : List α) :
    front (u ++ bs) = (front u).dropLast ++ before u :: items bs := by
  have h : front (u ++ bs) = front u ++ items bs := by simp [front, items_append]
  rw [h]
  conv_lhs => rw [front_eq u]
  simp

theorem back_eq (v : List α) : back v = after v :: (back v).tail := by cases v <;> rfl

/-- The last node of the front is not one of the others. -/
theorem ne_before {u : List α} (hu : u.Nodup) {p : Node α} (hp : p ∈ (front u).dropLast) :
    p ≠ before u := by
  have hn : (front u).Nodup := List.nodup_cons.mpr ⟨head_notMem_items u, nodup_items hu⟩
  rw [front_eq] at hn
  exact (List.nodup_append.mp hn).2.2 p hp _ (List.mem_singleton_self _)

/-- The first node of the back is not one of the others. -/
theorem ne_after {v : List α} (hv : v.Nodup) {p : Node α} (hp : p ∈ (back v).tail) :
    p ≠ after v := by
  have hn : (back v).Nodup := by
    refine List.nodup_append.mpr ⟨nodup_items hv, List.nodup_singleton _, ?_⟩
    rintro p hp _ htail rfl
    exact tail_notMem_items v (List.mem_singleton.mp htail ▸ hp)
  rw [back_eq] at hn
  rintro rfl
  exact (List.nodup_cons.mp hn).1 hp

theorem before_mem (u : List α) : before u ∈ front u := by
  rw [front_eq u]
  exact List.mem_append_right _ (List.mem_singleton_self _)

theorem after_mem (v : List α) : after v ∈ back v := by
  rw [back_eq v]
  exact List.mem_cons_self

theorem item_ne_before {u : List α} {a : α} (h : a ∉ u) : .item a ≠ before u := by
  intro he
  have hmem := before_mem u
  rw [← he] at hmem
  simp [front, h] at hmem

theorem item_ne_after {v : List α} {a : α} (h : a ∉ v) : .item a ≠ after v := by
  intro he
  have hmem := after_mem v
  rw [← he] at hmem
  simp [back, h] at hmem

/-- The front of one list, the items of a second and the back of a third have no node in common
    when the lists have no item in common. -/
theorem front_disjoint_items {u l : List α} (h : ∀ a ∈ u, a ∉ l) {p : Node α} (hp : p ∈ front u) :
    p ∉ items l := by
  rcases List.mem_cons.mp hp with rfl | hp
  · exact head_notMem_items l
  · obtain ⟨a, ha, rfl⟩ := List.mem_map.mp hp
    rw [item_mem_items]
    exact h a ha

theorem back_disjoint_items {v l : List α} (h : ∀ a ∈ v, a ∉ l) {p : Node α} (hp : p ∈ back v) :
    p ∉ items l := by
  rcases List.mem_append.mp hp with hp | hp
  · obtain ⟨a, ha, rfl⟩ := List.mem_map.mp hp
    rw [item_mem_items]
    exact h a ha
  · rw [List.mem_singleton.mp hp]
    exact tail_notMem_items l

theorem front_ne_back {u v : List α} (h : ∀ a ∈ u, a ∉ v) {p q : Node α} (hp : p ∈ front u)
    (hq : q ∈ back v) : p ≠ q := by
  rintro rfl
  rcases List.mem_append.mp hq with hq | hq
  · exact front_disjoint_items h hp hq
  · rcases List.mem_cons.mp hp with rfl | hp
    · cases List.mem_singleton.mp hq
    · exact tail_notMem_items u (List.mem_singleton.mp hq ▸ hp)

/-- The links pass the items `l` from one sentinel to the other; no other item is linked. -/
structure Holds (L : Links α) (l : List α) : Prop where
  nodup : l.Nodup
  chain : (nodes l).IsChain (Linked L)
  head : L.prev .head = none
  tail : L.next .tail = none
  out : ∀ a, a ∉ l → L.prev (.item a) = none ∧ L.next (.item a) = none

/-- A list in two parts: each part is a chain, and the parts are linked. -/
theorem isChain_nodes_append {L : Links α} {u v : List α} :
    (nodes (u ++ v)).IsChain (Linked L) ↔
      (front u).IsChain (Linked L) ∧ (back v).IsChain (Linked L) ∧
        Linked L (before u) (after v) := by
  have hsplit : nodes (u ++ v) = (front u).dropLast ++ before u :: after v :: (back v).tail := by
    have hnodes : nodes (u ++ v) = front u ++ back v := by
      simp [nodes, front, back, items_append]
    rw [hnodes, ← back_eq]
    conv_lhs => rw [front_eq u]
    simp
  rw [hsplit, List.isChain_append_cons_cons, ← front_eq, ← back_eq, and_comm (a := Linked _ _ _)]

namespace Holds

variable {L : Links α} {l u v : List α}

/-- The first node after the head. -/
theorem next_head (h : Holds L l) : L.next .head = some (after l) :=
  (isChain_nodes_append.mp (show (nodes ([] ++ l)).IsChain (Linked L) from h.chain)).2.2.1

/-- The last node before the tail. -/
theorem prev_tail (h : Holds L l) : L.prev .tail = some (before l) := by
  have hc : (nodes (l ++ [])).IsChain (Linked L) := by
    rw [List.append_nil]
    exact h.chain
  exact (isChain_nodes_append.mp hc).2.2.2

/-- The links of an item are its neighbours. -/
theorem around {a : α} (h : Holds L (u ++ a :: v)) :
    L.prev (.item a) = some (before u) ∧ L.next (.item a) = some (after v) := by
  refine ⟨(isChain_nodes_append.mp h.chain).2.2.2, ?_⟩
  have hc : (nodes ((u ++ [a]) ++ v)).IsChain (Linked L) := by
    rw [List.append_assoc]
    exact h.chain
  have hlink := (isChain_nodes_append.mp hc).2.2
  rw [before_concat] at hlink
  exact hlink.1

end Holds

/-! ## Writes -/

variable [DecidableEq α]

/-- `p.prev = q`. -/
def Links.setPrev (L : Links α) (p : Node α) (q : Option (Node α)) : Links α :=
  { L with prev := Function.update L.prev p q }

/-- `p.next = q`. -/
def Links.setNext (L : Links α) (p : Node α) (q : Option (Node α)) : Links α :=
  { L with next := Function.update L.next p q }

@[simp] theorem Links.setPrev_prev (L : Links α) (p r : Node α) (q : Option (Node α)) :
    (L.setPrev p q).prev r = if r = p then q else L.prev r := Function.update_apply ..

@[simp] theorem Links.setPrev_next (L : Links α) (p r : Node α) (q : Option (Node α)) :
    (L.setPrev p q).next r = L.next r := rfl

@[simp] theorem Links.setNext_next (L : Links α) (p r : Node α) (q : Option (Node α)) :
    (L.setNext p q).next r = if r = p then q else L.next r := Function.update_apply ..

@[simp] theorem Links.setNext_prev (L : Links α) (p r : Node α) (q : Option (Node α)) :
    (L.setNext p q).prev r = L.prev r := rfl

/-! ## Linking a batch in -/

/-- Link the items one after the other behind `p`; the last node of the batch. -/
def linkAfter (L : Links α) (p : Node α) : List α → Links α × Node α
  | [] => (L, p)
  | b :: bs => linkAfter ((L.setPrev (.item b) (some p)).setNext p (some (.item b))) (.item b) bs

/-- Link the items between `p` and `q`. -/
def spliced (L : Links α) (p : Node α) (bs : List α) (q : Node α) : Links α :=
  ((linkAfter L p bs).1.setNext (linkAfter L p bs).2 (some q)).setPrev q
    (some (linkAfter L p bs).2)

/-- What linking behind `p` does: a chain from `p` over the batch; no other field changes. -/
structure LinkedAfter (L L' : Links α) (p last : Node α) (bs : List α) : Prop where
  last : p :: items bs = (p :: items bs).dropLast ++ [last]
  chain : (p :: items bs).IsChain (Linked L')
  next : ∀ r ∉ (p :: items bs).dropLast, L'.next r = L.next r
  prev : ∀ r ∉ items bs, L'.prev r = L.prev r

theorem linkAfter_spec (L : Links α) (p : Node α) (bs : List α) (hn : (p :: items bs).Nodup) :
    LinkedAfter L (linkAfter L p bs).1 p (linkAfter L p bs).2 bs := by
  induction bs generalizing L p with
  | nil => exact ⟨rfl, .singleton p, fun _ _ => rfl, fun _ _ => rfl⟩
  | cons b bs ih =>
      obtain ⟨hp, hn⟩ := List.nodup_cons.mp hn
      have h := ih ((L.setPrev (.item b) (some p)).setNext p (some (.item b))) (.item b) hn
      have hb : Node.item b ∉ items bs := (List.nodup_cons.mp hn).1
      refine ⟨congrArg (p :: ·) h.last, ?_, ?_, ?_⟩
      · refine List.isChain_cons_cons.mpr ⟨⟨?_, ?_⟩, h.chain⟩
        · refine (h.next p fun hm => hp ?_).trans (by simp)
          exact List.dropLast_subset _ hm
        · exact (h.prev _ hb).trans (by simp)
      · intro r hr
        have hr' : r ∉ p :: (Node.item b :: items bs).dropLast := hr
        obtain ⟨hrp, hr'⟩ := not_or.mp (List.mem_cons.not.mp hr')
        exact (h.next r hr').trans (by simp [hrp])
      · intro r hr
        have hr' : r ∉ Node.item b :: items bs := hr
        obtain ⟨hrb, hr'⟩ := not_or.mp (List.mem_cons.not.mp hr')
        exact (h.prev r hr').trans (by simp [hrb])

/-- **Splicing.** A batch of unlinked items, linked between two neighbours, stands between
    them. -/
theorem Holds.splice {L : Links α} {u v bs : List α} (h : Holds L (u ++ v)) (hb : bs.Nodup)
    (hout : ∀ b ∈ bs, b ∉ u ++ v) : Holds (spliced L (before u) bs (after v)) (u ++ bs ++ v) := by
  obtain ⟨hu, hv, -⟩ := isChain_nodes_append.mp h.chain
  obtain ⟨hnu, hnv, huv⟩ := List.nodup_append.mp h.nodup
  have huv' : ∀ a ∈ u, a ∉ v := fun a ha ha' => huv a ha a ha' rfl
  have hub : ∀ a ∈ u, a ∉ bs := fun a ha ha' => hout a ha' (List.mem_append_left v ha)
  have hvb : ∀ a ∈ v, a ∉ bs := fun a ha ha' => hout a ha' (List.mem_append_right u ha)
  have hnub : (u ++ bs).Nodup := List.nodup_append.mpr
    ⟨hnu, hb, fun a ha b hb he => hub a ha (he ▸ hb)⟩
  have hubv : ∀ a ∈ u ++ bs, a ∉ v := by
    intro a ha ha'
    rcases List.mem_append.mp ha with ha | ha
    · exact huv' a ha ha'
    · exact hvb a ha' ha
  have hp := before_mem u
  have hspec := linkAfter_spec L (before u) bs
    (List.nodup_cons.mpr ⟨front_disjoint_items hub hp, nodup_items hb⟩)
  unfold spliced
  generalize (linkAfter L (before u) bs).1 = L' at hspec
  generalize (linkAfter L (before u) bs).2 = last at hspec
  -- the batch, behind the front
  have hfront := front_append u bs
  have hlast : before (u ++ bs) = last := by
    have h1 := front_eq (u ++ bs)
    rw [hfront, hspec.last, ← List.append_assoc, List.dropLast_concat] at h1
    exact (List.append_inj_right h1 rfl |> List.cons.inj).1.symm
  have hmem : ∀ r ∉ front (u ++ bs), L'.next r = L.next r ∧ r ≠ last := by
    intro r hr
    constructor
    · refine hspec.next r fun hm => hr ?_
      rw [hfront]
      exact List.mem_append_right _ (List.dropLast_subset _ hm)
    · rintro rfl
      exact hr (hlast ▸ before_mem _)
  refine ⟨?_, ?_, ?_, ?_, ?_⟩
  · exact List.nodup_append.mpr ⟨hnub, hnv, fun a ha b hb he => hubv a ha (he ▸ hb)⟩
  · refine isChain_nodes_append.mpr ⟨?_, ?_, ?_⟩
    · -- the front and the batch, linked by the loop
      have hchain : (front (u ++ bs)).IsChain (Linked L') := by
        rw [hfront, List.isChain_split, ← front_eq]
        refine ⟨isChain_congr ?_ ?_ hu, hspec.chain⟩
        · intro r hr
          refine hspec.next r fun hm => ?_
          rcases List.mem_cons.mp (List.dropLast_subset _ hm) with rfl | hm
          · exact ne_before hnu hr rfl
          · exact front_disjoint_items hub (List.dropLast_subset _ hr) hm
        · exact fun r hr => hspec.prev r (front_disjoint_items hub (List.mem_cons_of_mem _ hr))
      refine isChain_congr ?_ ?_ hchain
      · intro r hr
        simp [hlast ▸ ne_before hnub hr]
      · intro r hr
        simp [front_ne_back hubv (List.mem_cons_of_mem _ hr) (after_mem v)]
    · refine isChain_congr ?_ ?_ hv
      · intro r hr
        have hr' : r ∉ front (u ++ bs) := fun hm =>
          front_ne_back hubv hm (List.dropLast_subset _ hr) rfl
        simp [hmem r hr']
      · intro r hr
        have hback := List.mem_of_mem_tail hr
        simp [ne_after hnv hr, hspec.prev r (back_disjoint_items hvb hback)]
    · rw [hlast]
      constructor <;> simp
  · have hne : Node.head ≠ after v :=
      front_ne_back huv' (List.mem_cons_self (a := Node.head)) (after_mem v)
    simp [hne, hspec.prev .head (head_notMem_items bs), h.head]
  · have hr : (Node.tail : Node α) ∉ front (u ++ bs) := by simp [front]
    simp [hmem _ hr, h.tail]
  · intro a ha
    simp only [List.mem_append, not_or] at ha
    have hfr : Node.item a ∉ front (u ++ bs) := by simp [front, ha]
    have hbs : Node.item a ∉ items bs := by simp [ha]
    have hout := h.out a (by simp [ha])
    simp [hmem _ hfr, item_ne_after ha.2, hspec.prev _ hbs, hout]

/-! ## Taking items out -/

/-- Link the neighbours of an item to each other and clear its links. -/
def unlinked (L : Links α) (p : Node α) (a : α) (q : Node α) : Links α :=
  (((L.setNext p (some q)).setPrev q (some p)).setPrev (.item a) none).setNext (.item a) none

/-- **Unlinking.** An item, taken out from between its neighbours, is gone. -/
theorem Holds.unlink {L : Links α} {u v : List α} {a : α} (h : Holds L (u ++ a :: v)) :
    Holds (unlinked L (before u) a (after v)) (u ++ v) := by
  obtain ⟨hu, hav, -⟩ := isChain_nodes_append.mp h.chain
  have hv : (back v).IsChain (Linked L) := hav.tail
  obtain ⟨hnu, hnav, huav⟩ := List.nodup_append.mp h.nodup
  obtain ⟨hav', hnv⟩ := List.nodup_cons.mp hnav
  have huv : ∀ b ∈ u, b ∉ v := fun b hb hb' => huav b hb b (List.mem_cons_of_mem a hb') rfl
  have hau : a ∉ u := fun ha => huav a ha a List.mem_cons_self rfl
  have hafr : Node.item a ∉ front u := by simp [front, hau]
  have habk : Node.item a ∉ back v := by simp [back, hav']
  refine ⟨?_, isChain_nodes_append.mpr ⟨isChain_congr ?_ ?_ hu, isChain_congr ?_ ?_ hv, ?_, ?_⟩,
    ?_, ?_, ?_⟩
  · exact List.nodup_append.mpr ⟨hnu, hnv, fun b hb c hc he => huv b hb (he ▸ hc)⟩
  · intro r hr
    have hra : r ≠ .item a := fun he => hafr (he ▸ List.dropLast_subset _ hr)
    simp [unlinked, hra, ne_before hnu hr]
  · intro r hr
    have hmem : r ∈ front u := List.mem_cons_of_mem _ hr
    have hra : r ≠ .item a := fun he => hafr (he ▸ hmem)
    simp [unlinked, hra, front_ne_back huv hmem (after_mem v)]
  · intro r hr
    have hmem := List.dropLast_subset _ hr
    have hra : r ≠ .item a := fun he => habk (he ▸ hmem)
    simp [unlinked, hra, (front_ne_back huv (before_mem u) hmem).symm]
  · intro r hr
    have hra : r ≠ .item a := fun he => habk (he ▸ List.mem_of_mem_tail hr)
    simp [unlinked, hra, ne_after hnv hr]
  · have hra : before u ≠ .item a := fun he => hafr (he ▸ before_mem u)
    simp [unlinked, hra]
  · have hra : after v ≠ .item a := fun he => habk (he ▸ after_mem v)
    simp [unlinked, hra]
  · have hne : Node.head ≠ after v :=
      front_ne_back huv (List.mem_cons_self (a := Node.head)) (after_mem v)
    simp [unlinked, hne, h.head]
  · have hne : Node.tail ≠ before u := by
      intro he
      have hmem := before_mem u
      rw [← he] at hmem
      simp [front] at hmem
    simp [unlinked, hne, h.tail]
  · intro b hb
    simp only [List.mem_append, not_or] at hb
    by_cases hba : b = a
    · simp [unlinked, hba]
    · have hout := h.out b (by simp [hb, hba])
      simp [unlinked, hba, item_ne_before hb.1, item_ne_after hb.2, hout]

/-- Clear the links of the items. -/
def cleared (L : Links α) (u : List α) : Links α :=
  u.foldl (fun L a => (L.setPrev (.item a) none).setNext (.item a) none) L

theorem cleared_next (L : Links α) (u : List α) (p : Node α) :
    (cleared L u).next p = if p ∈ items u then none else L.next p := by
  induction u generalizing L with
  | nil => rfl
  | cons a u ih =>
      show (cleared _ u).next p = _
      rw [ih]
      by_cases hpa : p = .item a <;> simp [items, hpa]

theorem cleared_prev (L : Links α) (u : List α) (p : Node α) :
    (cleared L u).prev p = if p ∈ items u then none else L.prev p := by
  induction u generalizing L with
  | nil => rfl
  | cons a u ih =>
      show (cleared _ u).prev p = _
      rw [ih]
      by_cases hpa : p = .item a <;> simp [items, hpa]

/-- Clear the links of the first items and link the rest to the head. -/
def detached (L : Links α) (u : List α) (q : Node α) : Links α :=
  ((cleared L u).setNext .head (some q)).setPrev q (some .head)

/-- **Detaching.** The first items, cleared, are gone. -/
theorem Holds.detach {L : Links α} {u v : List α} (h : Holds L (u ++ v)) :
    Holds (detached L u (after v)) v := by
  obtain ⟨-, hv, -⟩ := isChain_nodes_append.mp h.chain
  obtain ⟨-, hnv, huv⟩ := List.nodup_append.mp h.nodup
  have hvu : ∀ a ∈ v, a ∉ u := fun a ha ha' => huv a ha' a ha rfl
  have hhead : ∀ p ∈ back v, p ≠ Node.head := fun p hp he =>
    front_ne_back (u := []) (by simp) (List.mem_cons_self (a := Node.head)) hp he.symm
  refine ⟨hnv, ?_, ?_, ?_, ?_⟩
  · refine (isChain_nodes_append (u := [])).mpr ⟨.singleton _, isChain_congr ?_ ?_ hv, ?_⟩
    · intro r hr
      have hmem := List.dropLast_subset _ hr
      simp [detached, cleared_next, hhead r hmem, back_disjoint_items hvu hmem]
    · intro r hr
      have hmem := List.mem_of_mem_tail hr
      simp [detached, cleared_prev, ne_after hnv hr, back_disjoint_items hvu hmem]
    · constructor <;> simp [detached]
  · simp [detached, cleared_prev, (hhead _ (after_mem v)).symm, h.head]
  · simp [detached, cleared_next, h.tail]
  · intro a ha
    by_cases hau : a ∈ u
    · simp [detached, cleared_prev, cleared_next, item_ne_after ha, hau]
    · have hout := h.out a (by simp [ha, hau])
      simp [detached, cleared_prev, cleared_next, item_ne_after ha, hau, hout]

end Lib.LinkedList
