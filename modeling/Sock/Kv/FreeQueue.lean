/-
  The queue of free KV cache blocks (`FreeKVCacheBlockQueue`, v1/core/kv_cache_utils.py).

  The queue is a doubly linked list through the blocks' own link fields, between a fake head and
  a fake tail. A block is its id; the link fields of all blocks and of both fakes are one
  `Links BlockId`. Functions return the changed queue or raise.

  What the queue is for is said on lists (`QueueOp.spec`): blocks leave at the front or from the
  middle and come back at either end. `freeQueue_refines`: every run of queue operations on
  blocks that are put in at most once is the run of the list operations, raises included.

  Not modelled: the representation of the block in the message of `remove`.
-/
import Sock.Lib.LinkedList

namespace Sock.Kv

open Lib.LinkedList

/-- An exception, by its class, with its message. -/
inductive PyError where
  | assertionError (message : String)
  | valueError (message : String)
  | runtimeError (message : String)
  | overflowError (message : String)
  deriving DecidableEq

/-- The `block_id` of a block. -/
abbrev BlockId := Nat

/-- `FreeKVCacheBlockQueue`: the link fields of the blocks, and the counter. -/
structure FreeKVCacheBlockQueue where
  links : Links BlockId
  numFreeBlocks : Int

namespace FreeKVCacheBlockQueue

/-! ## The source -/

/-- The loop of `__init__`: `blocks[i]` gets its neighbours among the blocks. -/
def linkConsecutive (L : Links BlockId) : Option BlockId → List BlockId → Links BlockId
  | _, [] => L
  | last, b :: rest =>
      let L := match last with
        | some a => L.setPrev (.item b) (some (.item a))
        | none => L
      let L := match rest with
        | c :: _ => L.setNext (.item b) (some (.item c))
        | [] => L
      linkConsecutive L (some b) rest

/-- `__init__`. -/
def init (blocks : List BlockId) : FreeKVCacheBlockQueue :=
  let L := linkConsecutive ⟨fun _ => none, fun _ => none⟩ none blocks
  { numFreeBlocks := blocks.length
    links :=
      match blocks.head?, blocks.getLast? with
      | some first, some last =>
          (((L.setNext .head (some (.item first))).setPrev (.item first) (some .head)).setPrev
            .tail (some (.item last))).setNext (.item last) (some .tail)
      | _, _ => (L.setNext .head (some .tail)).setPrev .tail (some .head) }

/-- A popped node is a block. The source would hand out a fake. -/
def popped : Node BlockId → Except PyError BlockId
  | .item b => .ok b
  | _ => .error (.runtimeError "fake block")

/-- `popleft`. -/
def popleft (q : FreeKVCacheBlockQueue) : Except PyError (BlockId × FreeKVCacheBlockQueue) :=
  let empty : Except PyError (BlockId × FreeKVCacheBlockQueue) :=
    if q.numFreeBlocks = 0 then .error (.valueError "No free blocks available")
    else .error (.assertionError
      s!"num_free_blocks ({q.numFreeBlocks}) is out of sync with the free list.")
  match q.links.next .head with
  | none => empty
  | some .tail => empty
  | some first =>
      match q.links.next first with
      | none => .error (.runtimeError
          "Invalid block found in popleft() which doesn't have a valid next_free_block")
      | some second => do
          let b ← popped first
          .ok (b, ⟨unlinked q.links .head b second, q.numFreeBlocks - 1⟩)

/-- The loop of `popleft_n`: the popped blocks, the node after them and the links. -/
def popLoop : Nat → Option (Node BlockId) → Links BlockId →
    Except PyError (List BlockId × Option (Node BlockId) × Links BlockId)
  | 0, curr, L => .ok ([], curr, L)
  | _ + 1, none, _ => .error (.assertionError "")
  | n + 1, some node, L => do
      let b ← popped node
      let (ret, curr, L) ← popLoop n (L.next node)
        ((L.setPrev (.item b) none).setNext (.item b) none)
      .ok (b :: ret, curr, L)

/-- `popleft_n`. -/
def popleftN (q : FreeKVCacheBlockQueue) (n : Int) :
    Except PyError (List BlockId × FreeKVCacheBlockQueue) :=
  if n = 0 then .ok ([], q)
  else if ¬ n ≤ q.numFreeBlocks then .error (.assertionError "")
  else do
    let (ret, curr, L) ← popLoop n.toNat (q.links.next .head) q.links
    let L := match curr with
      | some node => (L.setNext .head (some node)).setPrev node (some .head)
      | none => L
    .ok (ret, ⟨L, q.numFreeBlocks - n⟩)

/-- `remove`. -/
def remove (q : FreeKVCacheBlockQueue) (b : BlockId) : Except PyError FreeKVCacheBlockQueue :=
  match q.links.prev (.item b), q.links.next (.item b) with
  | some p, some n => .ok ⟨unlinked q.links p b n, q.numFreeBlocks - 1⟩
  | _, _ => .error (.runtimeError "remove() called on an invalid block")

/-- `append`. -/
def append (q : FreeKVCacheBlockQueue) (b : BlockId) : Except PyError FreeKVCacheBlockQueue :=
  match q.links.prev .tail with
  | none => .error (.runtimeError "prev_free_block of fake_free_list_tail should always exist")
  | some last =>
      .ok
        { links := (((q.links.setNext last (some (.item b))).setPrev (.item b) (some last)).setNext
            (.item b) (some .tail)).setPrev .tail (some (.item b))
          numFreeBlocks := q.numFreeBlocks + 1 }

/-- `prepend_n`. -/
def prependN (q : FreeKVCacheBlockQueue) (blocks : List BlockId) :
    Except PyError FreeKVCacheBlockQueue :=
  if blocks = [] then .ok q
  else
    match q.links.next .head with
    | none => .error (.assertionError
        "next_free_block of fake_free_list_head should always exist")
    | some first => .ok ⟨spliced q.links .head blocks first, q.numFreeBlocks + blocks.length⟩

/-- `append_n`. -/
def appendN (q : FreeKVCacheBlockQueue) (blocks : List BlockId) :
    Except PyError FreeKVCacheBlockQueue :=
  if blocks = [] then .ok q
  else
    match q.links.prev .tail with
    | none => .error (.assertionError
        "prev_free_block of fake_free_list_tail should always exist")
    | some last => .ok ⟨spliced q.links last blocks .tail, q.numFreeBlocks + blocks.length⟩

/-- The loop of `get_all_free_blocks` for `fuel` rounds, `none` when these are not enough. -/
def collectFree (L : Links BlockId) : Nat → Node BlockId → Option (List (Node BlockId))
  | 0, _ => none
  | fuel + 1, curr =>
      match L.next curr with
      | none => some []
      | some node => (collectFree L fuel node).map (curr :: ·)

/-- `get_all_free_blocks`. -/
def getAllFreeBlocks (q : FreeKVCacheBlockQueue) (fuel : Nat) :
    Except PyError (Option (List (Node BlockId))) :=
  match q.links.next .head with
  | none => .error (.runtimeError "next_free_block of fake_free_list_head should always exist")
  | some node => .ok (collectFree q.links fuel node)

/-! ## What the links hold -/

/-- The queue holds the blocks `l`, in this order, and counts them. -/
structure Represents (q : FreeKVCacheBlockQueue) (l : List BlockId) : Prop where
  holds : Holds q.links l
  count : q.numFreeBlocks = l.length

variable {q q' : FreeKVCacheBlockQueue} {l u v bs : List BlockId} {b : BlockId}

/-- Linking neighbours is linking each block behind the one before it. -/
theorem linkConsecutive_eq (rest : List BlockId) (L : Links BlockId) (a : BlockId) :
    linkConsecutive L none (a :: rest) = (linkAfter L (.item a) rest).1 := by
  have key : ∀ (rest : List BlockId) (L : Links BlockId) (a : BlockId), linkConsecutive
      (match rest with
        | c :: _ => L.setNext (.item a) (some (.item c))
        | [] => L) (some a) rest = (linkAfter L (.item a) rest).1 := by
    intro rest
    induction rest with
    | nil => exact fun _ _ => rfl
    | cons b rest ih => exact fun L a => ih ((L.setPrev (.item b) (some (.item a))).setNext
        (.item a) (some (.item b))) b
  exact key rest L a

theorem init_links_cons {a last : BlockId} {rest : List BlockId}
    (hlast : (a :: rest).getLast? = some last) : (init (a :: rest)).links =
      ((((linkAfter ⟨fun _ => none, fun _ => none⟩ (.item a) rest).1.setNext .head
        (some (.item a))).setPrev (.item a) (some .head)).setPrev .tail
          (some (.item last))).setNext (.item last) (some .tail) := by
  simp only [init, List.head?_cons, hlast, linkConsecutive_eq]

theorem init_represents {blocks : List BlockId} (hn : blocks.Nodup) :
    Represents (init blocks) blocks := by
  refine ⟨?_, rfl⟩
  cases blocks with
  | nil => exact
      { nodup := hn
        chain := List.isChain_cons_cons.mpr ⟨⟨rfl, rfl⟩, .singleton _⟩
        head := rfl
        tail := rfl
        out := fun _ _ => ⟨rfl, rfl⟩ }
  | cons a rest =>
      obtain ⟨last, hlast⟩ : ∃ last, (a :: rest).getLast? = some last :=
        ⟨_, List.getLast?_eq_some_getLast (List.cons_ne_nil a rest)⟩
      have hbefore : before (a :: rest) = .item last := by rw [before, hlast]; rfl
      have hmem : last ∈ a :: rest := List.mem_of_getLast? hlast
      have hspec := linkAfter_spec (⟨fun _ => none, fun _ => none⟩ : Links BlockId) (.item a) rest
        (nodup_items hn)
      rw [init_links_cons hlast]
      generalize (linkAfter _ _ rest).1 = L' at hspec ⊢
      -- no node outside the blocks was linked by the loop
      have hnext : ∀ r ∉ items (a :: rest), L'.next r = none := fun r hr =>
        hspec.next r fun hm => hr (List.dropLast_subset _ hm)
      have hdrop : ∀ r ∈ (Node.item a :: items rest).dropLast, r ≠ .item last := fun r hr =>
        hbefore ▸ ne_before hn (List.mem_cons_of_mem _ hr)
      refine ⟨hn, ?_, ?_, ?_, ?_⟩
      · rw [← List.append_nil (a :: rest)]
        refine isChain_nodes_append.mpr ⟨?_, .singleton _, by constructor <;> simp [hbefore]⟩
        refine List.isChain_cons_cons.mpr ⟨⟨by simp, by simp⟩, isChain_congr ?_ ?_ hspec.chain⟩
        · intro r hr
          have hhead : r ≠ .head := fun he =>
            head_notMem_items (a :: rest) (he ▸ List.dropLast_subset _ hr)
          simp [hdrop r hr, hhead]
        · intro r hr
          obtain ⟨c, hc, rfl⟩ := List.mem_map.mp (show r ∈ rest.map Node.item from hr)
          have hca : c ≠ a := fun he => (List.nodup_cons.mp hn).1 (he ▸ hc)
          simp [hca]
      · simp [hspec.prev .head (head_notMem_items rest)]
      · simp [hnext .tail (tail_notMem_items _)]
      · intro c hc
        have hca : c ≠ a := fun he => hc (he ▸ List.mem_cons_self)
        have hcl : c ≠ last := fun he => hc (he ▸ hmem)
        have hcr : Node.item c ∉ items rest := by
          rw [item_mem_items]
          exact fun hm => hc (List.mem_cons_of_mem a hm)
        simp [hca, hcl, hspec.prev _ hcr, hnext (.item c) (by simpa using hc)]

/-! ## One lemma for each operation -/

theorem popleft_nil (h : Represents q []) :
    q.popleft = .error (.valueError "No free blocks available") := by
  unfold popleft
  rw [h.holds.next_head, after_nil]
  simp [h.count]

theorem popleft_cons (h : Represents q (b :: l)) :
    ∃ q', q.popleft = .ok (b, q') ∧ Represents q' l := by
  have hb := h.holds.around (u := [])
  refine ⟨⟨unlinked q.links .head b (after l), q.numFreeBlocks - 1⟩, ?_,
    h.holds.unlink (u := []), ?_⟩
  · unfold popleft
    rw [h.holds.next_head, after_cons]
    simp only [hb.2, popped]
    rfl
  · simp [h.count]

/-- The loop pops the blocks in front of `v` and clears their links. -/
theorem popLoop_eq (u : List BlockId) (L : Links BlockId) (hn : (u ++ v).Nodup)
    (hc : (back (u ++ v)).IsChain (Linked L)) :
    popLoop u.length (some (after (u ++ v))) L = .ok (u, some (after v), cleared L u) := by
  induction u generalizing L with
  | nil => rfl
  | cons a u ih =>
      obtain ⟨ha, hn⟩ := List.nodup_cons.mp (show (a :: (u ++ v)).Nodup from hn)
      have hc' : (Node.item a :: back (u ++ v)).IsChain (Linked L) := hc
      have hnext : L.next (.item a) = some (after (u ++ v)) := by
        rw [back_eq] at hc'
        exact (List.isChain_cons_cons.mp hc').1.1
      have hbk : ∀ r ∈ back (u ++ v), r ≠ .item a := by
        rintro r hr rfl
        simp only [back, List.mem_append, item_mem_items, List.mem_singleton, reduceCtorEq,
          or_false] at hr
        exact ha (List.mem_append.mpr hr)
      have hrest := ih ((L.setPrev (.item a) none).setNext (.item a) none) hn
        (isChain_congr (fun r hr => by simp [hbk r (List.dropLast_subset _ hr)])
          (fun r hr => by simp [hbk r (List.mem_of_mem_tail hr)]) hc'.tail)
      show (popLoop u.length (L.next (.item a)) _ >>= fun x => Except.ok (a :: x.1, x.2)) = _
      rw [hnext, hrest]
      rfl

theorem popleftN_ok (h : Represents q (u ++ v)) :
    ∃ q', q.popleftN u.length = .ok (u, q') ∧ Represents q' v := by
  unfold popleftN
  by_cases hu : u = []
  · subst hu
    exact ⟨q, rfl, h⟩
  · have hlen : (u.length : Int) ≠ 0 := by simpa using hu
    have hcount : q.numFreeBlocks = u.length + v.length := by simpa using h.count
    have hloop := popLoop_eq u q.links h.holds.nodup h.holds.chain.tail
    refine ⟨⟨detached q.links u (after v), q.numFreeBlocks - u.length⟩, ?_, h.holds.detach, ?_⟩
    · rw [if_neg hlen, if_neg (by omega), h.holds.next_head, Int.toNat_natCast, hloop]
      rfl
    · show q.numFreeBlocks - u.length = v.length
      omega

theorem popleftN_short (h : Represents q l) {n : Int} (hn : (l.length : Int) < n) :
    q.popleftN n = .error (.assertionError "") := by
  unfold popleftN
  rw [if_neg (by omega), if_pos (by have := h.count; omega)]

theorem remove_mem (h : Represents q (u ++ b :: v)) :
    ∃ q', q.remove b = .ok q' ∧ Represents q' (u ++ v) := by
  obtain ⟨hprev, hnext⟩ := h.holds.around
  refine ⟨⟨unlinked q.links (before u) b (after v), q.numFreeBlocks - 1⟩, ?_, h.holds.unlink, ?_⟩
  · unfold remove
    rw [hprev, hnext]
  · have hcount := h.count
    simp only [List.length_append, List.length_cons] at hcount ⊢
    omega

theorem remove_notMem (h : Represents q l) (hb : b ∉ l) :
    q.remove b = .error (.runtimeError "remove() called on an invalid block") := by
  unfold remove
  rw [(h.holds.out b hb).1]

theorem append_ok (h : Represents q l) (hb : b ∉ l) :
    ∃ q', q.append b = .ok q' ∧ Represents q' (l ++ [b]) := by
  have hsplice := @Holds.splice _ _ _ l [] [b] (by simpa using h.holds)
    (List.nodup_singleton b) (by simpa using hb)
  refine ⟨⟨spliced q.links (before l) [b] .tail, q.numFreeBlocks + 1⟩, ?_,
    by simpa using hsplice, ?_⟩
  · unfold append
    rw [h.holds.prev_tail]
    rfl
  · simp [h.count]

theorem prependN_ok (h : Represents q l) (hbs : bs.Nodup) (hout : ∀ b ∈ bs, b ∉ l) :
    ∃ q', q.prependN bs = .ok q' ∧ Represents q' (bs ++ l) := by
  unfold prependN
  by_cases he : bs = []
  · subst he
    exact ⟨q, rfl, h⟩
  · refine ⟨⟨spliced q.links .head bs (after l), q.numFreeBlocks + bs.length⟩, ?_,
      Holds.splice (u := []) h.holds hbs hout, ?_⟩
    · rw [if_neg he, h.holds.next_head]
    · have hcount := h.count
      simp only [List.length_append] at hcount ⊢
      omega

theorem appendN_ok (h : Represents q l) (hbs : bs.Nodup) (hout : ∀ b ∈ bs, b ∉ l) :
    ∃ q', q.appendN bs = .ok q' ∧ Represents q' (l ++ bs) := by
  unfold appendN
  by_cases he : bs = []
  · subst he
    exact ⟨q, rfl, by simpa using h⟩
  · have hsplice := Holds.splice (u := l) (v := []) (by simpa using h.holds) hbs
      (by simpa using hout)
    refine ⟨⟨spliced q.links (before l) bs .tail, q.numFreeBlocks + bs.length⟩, ?_,
      by simpa using hsplice, ?_⟩
    · rw [if_neg he, h.holds.prev_tail]
    · have hcount := h.count
      simp only [List.length_append] at hcount ⊢
      omega

/-- Walking from a node to the tail collects the nodes on the way. -/
theorem collectFree_eq {L : Links BlockId} (htail : L.next .tail = none) (l : List BlockId)
    (hc : (back l).IsChain (Linked L)) {fuel : Nat} (hfuel : l.length < fuel) :
    collectFree L fuel (after l) = some (items l) := by
  induction l generalizing fuel with
  | nil =>
      obtain ⟨fuel, rfl⟩ := Nat.exists_eq_add_one_of_ne_zero (Nat.ne_of_gt hfuel)
      rw [after_nil, collectFree, htail]
      rfl
  | cons a l ih =>
      obtain ⟨fuel, rfl⟩ :=
        Nat.exists_eq_add_one_of_ne_zero (Nat.ne_of_gt (Nat.zero_lt_of_lt hfuel))
      have hc' : (Node.item a :: back l).IsChain (Linked L) := hc
      have hnext : L.next (.item a) = some (after l) := by
        rw [back_eq] at hc'
        exact (List.isChain_cons_cons.mp hc').1.1
      rw [after_cons, collectFree, hnext]
      simp only [ih hc'.tail (Nat.lt_of_succ_lt_succ hfuel)]
      rfl

theorem getAllFreeBlocks_eq (h : Represents q l) {fuel : Nat} (hfuel : l.length < fuel) :
    q.getAllFreeBlocks fuel = .ok (some (items l)) := by
  unfold getAllFreeBlocks
  rw [h.holds.next_head]
  simp only [collectFree_eq h.holds.tail l h.holds.chain.tail hfuel]

end FreeKVCacheBlockQueue

/-! ## The queue as a list -/

open FreeKVCacheBlockQueue

/-- The calls on a queue. -/
inductive QueueOp where
  | popleft
  | popleftN (n : Int)
  | remove (b : BlockId)
  | append (b : BlockId)
  | prependN (blocks : List BlockId)
  | appendN (blocks : List BlockId)

namespace QueueOp

/-- One call on the linked queue, with the blocks it pops. -/
def run (q : FreeKVCacheBlockQueue) :
    QueueOp → Except PyError (List BlockId × FreeKVCacheBlockQueue)
  | .popleft => q.popleft.map fun (b, q) => ([b], q)
  | .popleftN n => q.popleftN n
  | .remove b => (q.remove b).map ([], ·)
  | .append b => (q.append b).map ([], ·)
  | .prependN blocks => (q.prependN blocks).map ([], ·)
  | .appendN blocks => (q.appendN blocks).map ([], ·)

/-- One call on the list of the free blocks, with the blocks it pops. -/
def spec (l : List BlockId) : QueueOp → Except PyError (List BlockId × List BlockId)
  | .popleft =>
      match l with
      | [] => .error (.valueError "No free blocks available")
      | b :: l => .ok ([b], l)
  | .popleftN n =>
      if l.length < n then .error (.assertionError "")
      else .ok (l.take n.toNat, l.drop n.toNat)
  | .remove b =>
      if b ∈ l then .ok ([], l.erase b)
      else .error (.runtimeError "remove() called on an invalid block")
  | .append b => .ok ([], l ++ [b])
  | .prependN blocks => .ok ([], blocks ++ l)
  | .appendN blocks => .ok ([], l ++ blocks)

/-- The contract of a call: a block comes back at most once, and no negative number is popped. -/
def Admissible (l : List BlockId) : QueueOp → Prop
  | .popleft => True
  | .popleftN n => 0 ≤ n
  | .remove _ => True
  | .append b => b ∉ l
  | .prependN blocks => blocks.Nodup ∧ ∀ b ∈ blocks, b ∉ l
  | .appendN blocks => blocks.Nodup ∧ ∀ b ∈ blocks, b ∉ l

instance (l : List BlockId) (op : QueueOp) : Decidable (op.Admissible l) := by
  cases op <;> unfold Admissible <;> infer_instance

/-- A call on the linked queue answers as the call on the list does, and what it leaves holds
    what the list call leaves. -/
def Simulates {ρ : Type} (concrete : Except PyError (ρ × FreeKVCacheBlockQueue)) :
    Except PyError (ρ × List BlockId) → Prop
  | .error e => concrete = .error e
  | .ok (r, l) => ∃ q, concrete = .ok (r, q) ∧ Represents q l

/-- Calls in sequence. -/
theorem Simulates.bind {ρ τ : Type} {x : Except PyError (ρ × FreeKVCacheBlockQueue)}
    {y : Except PyError (ρ × List BlockId)}
    {f : ρ × FreeKVCacheBlockQueue → Except PyError (τ × FreeKVCacheBlockQueue)}
    {g : ρ × List BlockId → Except PyError (τ × List BlockId)} (h : Simulates x y)
    (hf : ∀ r q l, y = .ok (r, l) → Represents q l → Simulates (f (r, q)) (g (r, l))) :
    Simulates (x >>= f) (y >>= g) := by
  cases y with
  | error e =>
      rw [show x = .error e from h]
      rfl
  | ok r =>
      obtain ⟨q, rfl, hq⟩ := h
      exact hf r.1 q r.2 rfl hq

theorem simulates_map {ρ : Type} {r : ρ} {x : Except PyError FreeKVCacheBlockQueue}
    {l : List BlockId} (h : ∃ q, x = .ok q ∧ Represents q l) :
    Simulates (x.map (r, ·)) (.ok (r, l)) := by
  obtain ⟨q, rfl, hq⟩ := h
  exact ⟨q, rfl, hq⟩

theorem run_simulates {q : FreeKVCacheBlockQueue} {l : List BlockId} (h : Represents q l)
    (op : QueueOp) (hop : op.Admissible l) : Simulates (op.run q) (op.spec l) := by
  cases op with
  | popleft =>
      cases l with
      | nil =>
          show (q.popleft.map _) = _
          rw [popleft_nil h]
          rfl
      | cons b l =>
          obtain ⟨q', hrun, hq'⟩ := popleft_cons h
          refine ⟨q', ?_, hq'⟩
          show (q.popleft.map _) = _
          rw [hrun]
          rfl
  | popleftN n =>
      obtain ⟨n, rfl⟩ := Int.eq_ofNat_of_zero_le hop
      show Simulates (q.popleftN n) (if (l.length : Int) < n then _ else _)
      split
      · next hlt => exact popleftN_short h hlt
      · next hge =>
          have hlen : (l.take n).length = n := List.length_take_of_le (by omega)
          have hsplit := popleftN_ok (u := l.take n) (v := l.drop n)
            (by rw [List.take_append_drop]; exact h)
          rw [hlen] at hsplit
          exact hsplit
  | remove b =>
      show Simulates ((q.remove b).map _) (if b ∈ l then _ else _)
      split
      · next hb =>
          obtain ⟨u, v, hu, rfl, he⟩ := List.exists_erase_eq hb
          rw [he]
          exact simulates_map (remove_mem h)
      · next hb =>
          rw [remove_notMem h hb]
          rfl
  | append b => exact simulates_map (append_ok h hop)
  | prependN blocks => exact simulates_map (prependN_ok h hop.1 hop.2)
  | appendN blocks => exact simulates_map (appendN_ok h hop.1 hop.2)

/-- A run of calls on the linked queue, with the blocks each pops. -/
def runAll (q : FreeKVCacheBlockQueue) :
    List QueueOp → Except PyError (List (List BlockId) × FreeKVCacheBlockQueue)
  | [] => .ok ([], q)
  | op :: ops => do
      let (popped, q) ← op.run q
      let (rest, q) ← runAll q ops
      .ok (popped :: rest, q)

/-- A run of calls on the list. -/
def specAll (l : List BlockId) : List QueueOp → Except PyError (List (List BlockId) × List BlockId)
  | [] => .ok ([], l)
  | op :: ops => do
      let (popped, l) ← op.spec l
      let (rest, l) ← specAll l ops
      .ok (popped :: rest, l)

/-- Every call of a run keeps the contract, up to the first that raises. -/
def AdmissibleRun (l : List BlockId) : List QueueOp → Prop
  | [] => True
  | op :: ops => op.Admissible l ∧
      match op.spec l with
      | .ok (_, l) => AdmissibleRun l ops
      | .error _ => True

instance decidableAdmissibleRun :
    (l : List BlockId) → (ops : List QueueOp) → Decidable (AdmissibleRun l ops)
  | _, [] => isTrue trivial
  | l, op :: ops =>
      have : Decidable (match op.spec l with
          | .ok (_, l) => AdmissibleRun l ops
          | .error _ => True) :=
        match op.spec l with
        | .ok (_, l) => decidableAdmissibleRun l ops
        | .error _ => isTrue trivial
      inferInstanceAs (Decidable (_ ∧ _))

theorem runAll_simulates (ops : List QueueOp) {q : FreeKVCacheBlockQueue} {l : List BlockId}
    (h : Represents q l) (hops : AdmissibleRun l ops) :
    Simulates (runAll q ops) (specAll l ops) := by
  induction ops generalizing q l with
  | nil => exact ⟨q, rfl, h⟩
  | cons op ops ih =>
      refine (run_simulates h op hops.1).bind fun popped q' l' hspec hq' => ?_
      have hrest := hops.2
      rw [hspec] at hrest
      exact (ih hq' hrest).bind fun rest q'' l'' _ hq'' => ⟨q'', rfl, hq''⟩

end QueueOp

/-- **The linked queue is a list.** Every run of calls on a fresh queue over distinct blocks, in
    which blocks are put in at most once, pops and raises what the same run pops and raises on
    the list of the blocks. Afterwards the counter is the length of that list, and walking the
    links ends and finds the list. -/
theorem freeQueue_refines (blocks : List BlockId) (hblocks : blocks.Nodup) (ops : List QueueOp)
    (hops : QueueOp.AdmissibleRun blocks ops) :
    match QueueOp.specAll blocks ops with
    | .error e => QueueOp.runAll (init blocks) ops = .error e
    | .ok (popped, l) => ∃ q, QueueOp.runAll (init blocks) ops = .ok (popped, q) ∧
        q.numFreeBlocks = l.length ∧
          ∀ fuel, l.length < fuel → q.getAllFreeBlocks fuel = .ok (some (items l)) := by
  have h := QueueOp.runAll_simulates ops (init_represents hblocks) hops
  cases hspec : QueueOp.specAll blocks ops with
  | error e =>
      rw [hspec] at h
      exact h
  | ok r =>
      rw [hspec] at h
      obtain ⟨q, hrun, hq⟩ := h
      exact ⟨q, hrun, hq.count, fun fuel hfuel => getAllFreeBlocks_eq hq hfuel⟩

/-- Blocks leave at the front and from the middle, and come back at both ends. -/
def fourFreeBlocks : List QueueOp :=
  [.popleftN 2, .remove 3, .appendN [1, 0], .popleft, .prependN [3, 2]]

theorem freeQueue_refines_fourFreeBlocks :
    ∃ q, QueueOp.runAll (init [0, 1, 2, 3]) fourFreeBlocks = .ok ([[0, 1], [], [], [2], []], q) ∧
      q.numFreeBlocks = 4 ∧ q.getAllFreeBlocks 5 = .ok (some (items [3, 2, 1, 0])) := by
  obtain ⟨q, hrun, hcount, hall⟩ :=
    freeQueue_refines [0, 1, 2, 3] (by decide) fourFreeBlocks (by decide)
  exact ⟨q, hrun, hcount, hall 5 (by decide)⟩

end Sock.Kv
