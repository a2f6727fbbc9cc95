/-
  Slots of the TMH runtime: who holds them, how a page gets one, how one is given back.

  * `held`: the slots of a pool that canonical keys and overlays hold.
  * `canonicalSlot_cases`, `overlaySlot_cases`: a slot is held already, is fresh from the end
    of a free list, or the pool is exhausted.
  * `releaseRole`: the key under which a release finds the slot of a canonical descriptor.
  * `Acquired`, `Exhausted`: the same, for a placed descriptor.
-/
import Sock.Tmh.Placement

namespace Sock.Tmh

open Lib EStateM

variable {Req Layer : Type} [DecidableEq Layer]

/-! ## Registration -/

/-- The size of a pool. -/
def CacheLayout.pages (cache : CacheLayout) (raw : Bool) : Nat :=
  if raw then cache.rawPages else cache.warmPages

section Registration

variable (kvCaches : Dict Layer PhysicalKVCache)

theorem foldl_registerCache (es : List (Layer × PhysicalKVCache)) (rt : PhysicalRuntime Req Layer) :
    es.foldl (fun rt e => rt.registerCache e.1 e.2) rt =
      { rt with
        caches := es.foldl (fun d e => d.set e.1 (id e.2)) rt.caches
        rawFreeSlots :=
          es.foldl (fun d e => d.set e.1 (List.range e.2.rawPages).reverse) rt.rawFreeSlots
        warmFreeSlots :=
          es.foldl (fun d e => d.set e.1 (List.range e.2.warmPages).reverse)
            rt.warmFreeSlots } := by
  induction es generalizing rt with
  | nil => rfl
  | cons e es ih =>
      simp only [List.foldl_cons]
      rw [ih]
      rfl

theorem registerCaches_caches (l : Layer) :
    (registerCaches kvCaches : PhysicalRuntime Req Layer).caches.get? l = kvCaches.get? l := by
  rw [registerCaches, foldl_registerCache]
  exact (Dict.get?_foldl_set id kvCaches l).trans (Option.map_id_apply ..)

@[simp] theorem registerCaches_canonicalSlots :
    (registerCaches kvCaches : PhysicalRuntime Req Layer).canonicalSlots = .empty := by
  rw [registerCaches, foldl_registerCache]

@[simp] theorem registerCaches_overlaySlots :
    (registerCaches kvCaches : PhysicalRuntime Req Layer).overlaySlots = .empty := by
  rw [registerCaches, foldl_registerCache]

theorem registerCaches_freeSlots (raw : Bool) (l : Layer) :
    ((registerCaches kvCaches : PhysicalRuntime Req Layer).freeSlots raw).get? l =
      (kvCaches.get? l).map fun cache => (List.range (cache.pages raw)).reverse := by
  rw [registerCaches, foldl_registerCache]
  cases raw
  · exact Dict.get?_foldl_set (fun c : PhysicalKVCache => (List.range c.warmPages).reverse)
      kvCaches l
  · exact Dict.get?_foldl_set (fun c : PhysicalKVCache => (List.range c.rawPages).reverse)
      kvCaches l

end Registration

namespace PhysicalRuntime

/-! ## Updates and what they leave alone -/

section Frame

variable (rt : PhysicalRuntime Req Layer) (raw raw' : Bool) (l l' : Layer) (free : List Nat)
  (f : PhysicalKVCache → PhysicalKVCache)

@[simp] theorem freeSlots_setFreeSlots :
    ((rt.setFreeSlots raw l free).freeSlots raw').get? l' =
      if raw' = raw ∧ l' = l then some free else (rt.freeSlots raw').get? l' := by
  cases raw <;> cases raw' <;> simp [setFreeSlots, freeSlots]

@[simp] theorem setFreeSlots_caches : (rt.setFreeSlots raw l free).caches = rt.caches := by
  cases raw <;> rfl

@[simp] theorem setFreeSlots_canonicalSlots :
    (rt.setFreeSlots raw l free).canonicalSlots = rt.canonicalSlots := by
  cases raw <;> rfl

@[simp] theorem setFreeSlots_overlaySlots :
    (rt.setFreeSlots raw l free).overlaySlots = rt.overlaySlots := by
  cases raw <;> rfl

@[simp] theorem updateCache_caches :
    (rt.updateCache l f).caches.get? l' =
      if l' = l then (rt.caches.get? l).map f else rt.caches.get? l' := by
  unfold updateCache
  by_cases h : l' = l
  · subst h
    cases hc : rt.caches.get? l' <;> simp [hc]
  · cases hc : rt.caches.get? l <;> simp [h]

@[simp] theorem updateCache_freeSlots :
    (rt.updateCache l f).freeSlots raw = rt.freeSlots raw := by
  unfold updateCache freeSlots
  cases rt.caches.get? l <;> rfl

@[simp] theorem updateCache_canonicalSlots :
    (rt.updateCache l f).canonicalSlots = rt.canonicalSlots := by
  unfold updateCache
  cases rt.caches.get? l <;> rfl

@[simp] theorem updateCache_overlaySlots :
    (rt.updateCache l f).overlaySlots = rt.overlaySlots := by
  unfold updateCache
  cases rt.caches.get? l <;> rfl

end Frame

theorem rawFree_eq_true {rt : PhysicalRuntime Req Layer} {l : Layer} {free : List Nat}
    (h : (rt.freeSlots true).get? l = some free) : rt.rawFree l = true ↔ free ≠ [] := by
  unfold rawFree
  have h' : rt.rawFreeSlots.get? l = some free := h
  rw [h']
  cases free <;> simp

/-! ## Held slots -/

/-- The slots of one pool of a layer that are held: under a canonical key whose role belongs
    to the pool, or, in the raw pool, by an overlay. -/
def held (rt : PhysicalRuntime Req Layer) (raw : Bool) (l : Layer) : List Nat :=
  rt.canonicalSlots.select (fun key => decide (key.1 = l ∧ key.2.2.raw = raw)) ++
    if raw then rt.overlaySlots.select (fun key => decide (key.1 = l)) else []

@[simp] theorem held_setFreeSlots (rt : PhysicalRuntime Req Layer) (raw raw' : Bool)
    (l l' : Layer) (free : List Nat) :
    (rt.setFreeSlots raw l free).held raw' l' = rt.held raw' l' := by
  simp [held]

@[simp] theorem held_updateCache (rt : PhysicalRuntime Req Layer) (raw : Bool) (l l' : Layer)
    (f : PhysicalKVCache → PhysicalKVCache) :
    (rt.updateCache l f).held raw l' = rt.held raw l' := by
  simp [held]

section Held

variable {rt : PhysicalRuntime Req Layer} {l : Layer} {b : Int} {k : PageRole} {slot : Nat}
  {key : Layer × Req × Int}

theorem held_setCanonical (h : rt.canonicalSlots.get? (l, b, k) = none) (slot : Nat) (raw : Bool)
    (l' : Layer) :
    ({ rt with canonicalSlots := rt.canonicalSlots.set (l, b, k) slot }.held raw l').Perm
      ((if l' = l ∧ raw = k.raw then [slot] else []) ++ rt.held raw l') := by
  unfold held
  rw [Dict.select_set h]
  by_cases hc : l = l' ∧ k.raw = raw
  · obtain ⟨rfl, rfl⟩ := hc
    simp only [and_self, decide_true, if_true, List.append_assoc, List.singleton_append]
    exact List.perm_middle
  · have hc' : ¬ (l' = l ∧ raw = k.raw) := fun h => hc ⟨h.1.symm, h.2.symm⟩
    simp [hc, hc']

theorem held_eraseCanonical (h : rt.canonicalSlots.get? (l, b, k) = some slot) (raw : Bool)
    (l' : Layer) :
    (rt.held raw l').Perm ((if l' = l ∧ raw = k.raw then [slot] else []) ++
      { rt with canonicalSlots := rt.canonicalSlots.erase (l, b, k) }.held raw l') := by
  unfold held
  have hp := Dict.select_erase_perm h fun key => decide (key.1 = l' ∧ key.2.2.raw = raw)
  by_cases hc : l = l' ∧ k.raw = raw
  · obtain ⟨rfl, rfl⟩ := hc
    simp only [and_self, decide_true, if_true] at hp
    rw [if_pos (c := l = l ∧ k.raw = k.raw) ⟨rfl, rfl⟩, ← List.append_assoc]
    exact hp.append_right _
  · have hc' : ¬ (l' = l ∧ raw = k.raw) := fun h => hc ⟨h.1.symm, h.2.symm⟩
    simp only [hc, decide_false, Bool.false_eq_true, if_false] at hp
    rw [if_neg hc', List.nil_append]
    exact hp.append_right _

end Held

/-- The first canonical entry of a block is one of its held keys. -/
theorem firstCanonical_some {rt : PhysicalRuntime Req Layer} {l : Layer} {b : Int} {k : PageRole}
    {slot : Nat} (h : rt.firstCanonical l b = some (k, slot)) :
    rt.canonicalSlots.get? (l, b, k) = some slot := by
  unfold firstCanonical at h
  obtain ⟨⟨⟨l', b', k'⟩, s'⟩, hf, he⟩ := Option.map_eq_some_iff.mp h
  have hm := List.mem_of_find?_eq_some hf
  have hp := List.find?_some hf
  simp only [decide_eq_true_eq] at hp
  obtain ⟨rfl, rfl⟩ := hp
  cases he
  exact Dict.get?_eq_some.mpr hm

theorem firstCanonical_none {rt : PhysicalRuntime Req Layer} {l : Layer} {b : Int}
    (h : rt.firstCanonical l b = none) (k : PageRole) :
    rt.canonicalSlots.get? (l, b, k) = none := by
  unfold firstCanonical at h
  rw [Option.map_eq_none_iff, List.find?_eq_none] at h
  cases hg : rt.canonicalSlots.get? (l, b, k) with
  | none => rfl
  | some slot =>
      have := h _ (Dict.get?_eq_some.mp hg)
      simp at this

/-! ## Getting a slot -/

/-- Enter a fresh slot under a canonical key, and show it in the tables. -/
def withCanonical (rt : PhysicalRuntime Req Layer) (l : Layer) (b : Int) (k : PageRole)
    (slot : Nat) : PhysicalRuntime Req Layer :=
  { rt with canonicalSlots := rt.canonicalSlots.set (l, b, k) slot }.updateCache l
    fun cache => cache.setCanonical b.toNat k.toInt slot

section Take

variable {rt : PhysicalRuntime Req Layer} {l : Layer} {b : Int} {k : PageRole} {free : List Nat}

theorem takeSlot_nil {raw : Bool} (h : (rt.freeSlots raw).get? l = some []) :
    (takeSlot l raw).run rt = .error (.poolExhausted raw l) rt := by
  simp only [takeSlot, run_bind, run_get, h, List.getLast?_nil]
  rfl

theorem takeSlot_concat {raw : Bool} {slot : Nat}
    (h : (rt.freeSlots raw).get? l = some (free ++ [slot])) :
    (takeSlot l raw).run rt = .ok slot (rt.setFreeSlots raw l free) := by
  simp only [takeSlot, run_bind, run_get, h, List.getLast?_concat,
    List.dropLast_concat, run_set, run_pure]

theorem setCanonicalTables_run {cache : PhysicalKVCache} (hc : rt.caches.get? l = some cache)
    (h0 : 0 ≤ b) (hb : b < cache.numLogicalBlocks) (role slot : Int) :
    (setCanonicalTables l b role slot).run rt =
      .ok () (rt.updateCache l fun cache => cache.setCanonical b.toNat role slot) := by
  simp only [setCanonicalTables, run_bind, run_get, hc,
    tensorIndex_of_nonneg h0 hb, run_set]

/-- A canonical slot is the one held, or a fresh one; else the pool is exhausted. -/
theorem canonicalSlot_cases {cache : PhysicalKVCache} (hc : rt.caches.get? l = some cache)
    (h0 : 0 ≤ b) (hb : b < cache.numLogicalBlocks)
    (hf : (rt.freeSlots k.raw).get? l = some free) :
    (∃ slot, rt.canonicalSlots.get? (l, b, k) = some slot ∧
        (canonicalSlot l b k).run rt = .ok slot rt) ∨
      (rt.canonicalSlots.get? (l, b, k) = none ∧ free = [] ∧
        (canonicalSlot l b k).run rt = .error (.poolExhausted k.raw l) rt) ∨
      ∃ rest slot, rt.canonicalSlots.get? (l, b, k) = none ∧ free = rest ++ [slot] ∧
        (canonicalSlot l b k).run rt =
          .ok slot ((rt.setFreeSlots k.raw l rest).withCanonical l b k slot) := by
  cases hk : rt.canonicalSlots.get? (l, b, k) with
  | some slot =>
      refine .inl ⟨slot, rfl, ?_⟩
      simp only [canonicalSlot, run_bind, run_get, hk, run_pure]
  | none =>
      right
      rcases List.eq_nil_or_concat' free with rfl | ⟨rest, slot, rfl⟩
      · refine .inl ⟨rfl, rfl, ?_⟩
        simp only [canonicalSlot, run_bind, run_get, hk, takeSlot_nil hf]
      · refine .inr ⟨rest, slot, rfl, rfl, ?_⟩
        have hc' : ({ rt.setFreeSlots k.raw l rest with
            canonicalSlots := (rt.setFreeSlots k.raw l rest).canonicalSlots.set (l, b, k) slot } :
              PhysicalRuntime Req Layer).caches.get? l = some cache := by
          rw [← hc]
          simp
        simp only [canonicalSlot, run_bind, run_get, hk, takeSlot_concat hf,
          run_modify, setCanonicalTables_run hc' h0 hb, run_pure]
        rfl

end Take

/-! ## Giving a slot back -/

/-- The free list of a pool. -/
def freeList (rt : PhysicalRuntime Req Layer) (raw : Bool) (l : Layer) : List Nat :=
  ((rt.freeSlots raw).get? l).getD []

/-- Show the first held key of a block in the canonical tables, or -1. -/
def refreshed (rt : PhysicalRuntime Req Layer) (l : Layer) (b : Int) : PhysicalRuntime Req Layer :=
  match rt.firstCanonical l b with
  | none => rt.updateCache l fun cache => cache.setCanonical b.toNat (-1) (-1)
  | some (k, slot) => rt.updateCache l fun cache => cache.setCanonical b.toNat k.toInt slot

/-- The state after giving a canonical key's slot back. -/
def freedCanonical (rt : PhysicalRuntime Req Layer) (l : Layer) (b : Int) (k : PageRole)
    (slot : Nat) : PhysicalRuntime Req Layer :=
  ({ rt with canonicalSlots := rt.canonicalSlots.erase (l, b, k) }.setFreeSlots k.raw l
    (rt.freeList k.raw l ++ [slot])).refreshed l b

/-- The role under which `release_descriptor` finds a slot for a canonical descriptor: its own,
    else the promoted role of a warm page, else the demoted role of a raw page. -/
def releaseRole (rt : PhysicalRuntime Req Layer) (cache : CacheLayout)
    (d : PhysicalPageDescriptor Req Layer) : Option PageRole :=
  let held (k : PageRole) : Bool :=
    (rt.canonicalSlots.get? (d.layerName, d.logicalBlockId, k)).isSome
  if held d.role then some d.role
  else if d.role.raw then
    if held cache.warmRoleForCache then some cache.warmRoleForCache else none
  else if held .hotRaw then some .hotRaw else none

/-- The state after releasing a canonical descriptor. -/
def releasedCanonical (rt : PhysicalRuntime Req Layer) (cache : CacheLayout)
    (d : PhysicalPageDescriptor Req Layer) : PhysicalRuntime Req Layer :=
  match rt.releaseRole cache d with
  | none => rt
  | some k =>
      match rt.canonicalSlots.get? (d.layerName, d.logicalBlockId, k) with
      | none => rt
      | some slot => rt.freedCanonical d.layerName d.logicalBlockId k slot

section Release

variable {rt : PhysicalRuntime Req Layer} {l : Layer} {b : Int} {k : PageRole} {slot : Nat}

theorem popCanonicalSlot_none {key : Layer × Int × PageRole}
    (h : rt.canonicalSlots.get? key = none) : (popCanonicalSlot key).run rt = .ok none rt := by
  simp only [popCanonicalSlot, run_modifyGet, h, Dict.erase_eq_self h]

theorem popCanonicalSlot_some {key : Layer × Int × PageRole}
    (h : rt.canonicalSlots.get? key = some slot) : (popCanonicalSlot key).run rt =
      .ok (some slot) { rt with canonicalSlots := rt.canonicalSlots.erase key } := by
  simp only [popCanonicalSlot, run_modifyGet, h]

theorem pushFreeSlot_run {raw : Bool} {free : List Nat}
    (h : (rt.freeSlots raw).get? l = some free) :
    (pushFreeSlot l raw slot).run rt = .ok () (rt.setFreeSlots raw l (free ++ [slot])) := by
  simp only [pushFreeSlot, run_bind, run_get, h, run_set]

theorem refreshLogicalDescriptor_run {cache : PhysicalKVCache} (hc : rt.caches.get? l = some cache)
    (h0 : 0 ≤ b) (hb : b < cache.numLogicalBlocks) :
    (refreshLogicalDescriptor l b).run rt = .ok () (rt.refreshed l b) := by
  unfold refreshLogicalDescriptor refreshed
  rw [run_bind, run_get]
  dsimp only
  cases rt.firstCanonical l b with
  | none => exact setCanonicalTables_run hc h0 hb (-1) (-1)
  | some e => exact setCanonicalTables_run hc h0 hb e.1.toInt e.2

theorem releaseRole_some {cache : CacheLayout} {d : PhysicalPageDescriptor Req Layer}
    (h : rt.releaseRole cache d = some k) :
    (rt.canonicalSlots.get? (d.layerName, d.logicalBlockId, k)).isSome = true := by
  unfold releaseRole at h
  dsimp only at h
  split at h
  · next hk => cases h; exact hk
  · split at h <;> split at h
    · next hk => cases h; exact hk
    · cases h
    · next hk => cases h; exact hk
    · cases h

/-- The state after a canonical release, when a slot is found. -/
theorem releasedCanonical_of_some {cache : CacheLayout} {d : PhysicalPageDescriptor Req Layer}
    (h : rt.releaseRole cache d = some k)
    (hk : rt.canonicalSlots.get? (d.layerName, d.logicalBlockId, k) = some slot) :
    rt.releasedCanonical cache d = rt.freedCanonical d.layerName d.logicalBlockId k slot := by
  simp only [releasedCanonical, h, hk]

end Release

/-! ## Writing a row -/

theorem writeRow_cases {rt : PhysicalRuntime Req Layer} {l : Layer} {cache : PhysicalKVCache}
    (hc : rt.caches.get? l = some cache) (row : Nat) (page : Int) (slot : Nat) (role : PageRole) :
    (∃ e : RuntimeError Req Layer, e.NotExhausted ∧
        (writeRow l row page slot role).run rt = .error e rt) ∨
      ∃ p, row < cache.spec.tmhMaxNumSeqs ∧ tensorIndex page cache.spec.tmhMaxModelPages = some p ∧
        (writeRow l row page slot role).run rt =
          .ok () (rt.updateCache l fun cache => cache.setRow row p slot role) := by
  by_cases hrow : row < cache.spec.tmhMaxNumSeqs
  · cases hp : tensorIndex page cache.spec.tmhMaxModelPages with
    | none =>
        refine .inl ⟨.indexError page cache.spec.tmhMaxModelPages, by intro _ _; simp, ?_⟩
        simp [writeRow, hc, hrow, hp]
    | some p =>
        refine .inr ⟨p, hrow, rfl, ?_⟩
        simp [writeRow, hc, hrow, hp]
  · refine .inl ⟨.indexError row cache.spec.tmhMaxNumSeqs, by intro _ _; simp, ?_⟩
    simp [writeRow, hc, hrow]

/-! ## Overlays -/

section Overlay

variable [DecidableEq Req] {rt : PhysicalRuntime Req Layer} {l : Layer} {slot : Nat}
  {free : List Nat} {key : Layer × Req × Int}

theorem held_setOverlay (h : rt.overlaySlots.get? key = none) (slot : Nat) (raw : Bool)
    (l' : Layer) :
    ({ rt with overlaySlots := rt.overlaySlots.set key slot }.held raw l').Perm
      ((if l' = key.1 ∧ raw = true then [slot] else []) ++ rt.held raw l') := by
  unfold held
  rw [Dict.select_set h]
  cases raw with
  | false => simp
  | true =>
      by_cases hc : key.1 = l'
      · subst hc
        simp only [decide_true, if_true, and_self, ← List.append_assoc]
        exact List.perm_append_comm
      · simp [hc, Ne.symm hc]

theorem held_eraseOverlay (h : rt.overlaySlots.get? key = some slot) (raw : Bool) (l' : Layer) :
    (rt.held raw l').Perm ((if l' = key.1 ∧ raw = true then [slot] else []) ++
      { rt with overlaySlots := rt.overlaySlots.erase key }.held raw l') := by
  unfold held
  have hp := Dict.select_erase_perm h fun key => decide (key.1 = l')
  cases raw with
  | false => simp
  | true =>
      by_cases hc : key.1 = l'
      · subst hc
        simp only [decide_true, if_true] at hp
        simp only [if_true, and_self]
        exact (hp.append_left _).trans List.perm_middle
      · simp only [hc, decide_false, Bool.false_eq_true, if_false, List.nil_append] at hp
        simp only [Ne.symm hc, false_and, if_false, List.nil_append, if_true]
        exact hp.append_left _

/-- Enter a fresh slot under an overlay key. -/
def withOverlay (rt : PhysicalRuntime Req Layer) (key : Layer × Req × Int) (slot : Nat) :
    PhysicalRuntime Req Layer :=
  { rt with overlaySlots := rt.overlaySlots.set key slot }

/-- An overlay slot is the one held, or a fresh one; else the raw pool is exhausted. -/
theorem overlaySlot_cases {q : Req} {p : Int} (hf : (rt.freeSlots true).get? l = some free) :
    (∃ slot, rt.overlaySlots.get? (l, q, p) = some slot ∧
        (overlaySlot l q p).run rt = .ok slot rt) ∨
      (rt.overlaySlots.get? (l, q, p) = none ∧ free = [] ∧
        (overlaySlot l q p).run rt = .error (.poolExhausted true l) rt) ∨
      ∃ rest slot, rt.overlaySlots.get? (l, q, p) = none ∧ free = rest ++ [slot] ∧
        (overlaySlot l q p).run rt =
          .ok slot ((rt.setFreeSlots true l rest).withOverlay (l, q, p) slot) := by
  cases hk : rt.overlaySlots.get? (l, q, p) with
  | some slot =>
      refine .inl ⟨slot, rfl, ?_⟩
      simp only [overlaySlot, run_bind, run_get, hk, run_pure]
  | none =>
      right
      rcases List.eq_nil_or_concat' free with rfl | ⟨rest, slot, rfl⟩
      · refine .inl ⟨rfl, rfl, ?_⟩
        simp only [overlaySlot, run_bind, run_get, hk, takeSlot_nil hf]
      · refine .inr ⟨rest, slot, rfl, rfl, ?_⟩
        simp only [overlaySlot, run_bind, run_get, hk, takeSlot_concat hf,
          run_modify, run_pure]
        rfl

/-- The state after releasing an overlay key. -/
def releasedOverlay (rt : PhysicalRuntime Req Layer) (key : Layer × Req × Int) :
    PhysicalRuntime Req Layer :=
  match rt.overlaySlots.get? key with
  | none => rt
  | some slot =>
      { rt with overlaySlots := rt.overlaySlots.erase key }.setFreeSlots true key.1
        (rt.freeList true key.1 ++ [slot])

theorem popOverlaySlot_none (h : rt.overlaySlots.get? key = none) :
    (popOverlaySlot key).run rt = .ok none rt := by
  simp only [popOverlaySlot, run_modifyGet, h, Dict.erase_eq_self h]

end Overlay

/-! ## A placed descriptor's slot -/

variable [DecidableEq Req]

/-- How a placed descriptor gets its slot, and the state after it: the slot is held already, or
    it comes off the end of a free list. -/
inductive Acquired (rt : PhysicalRuntime Req Layer) (l : Layer)
    (d : PhysicalPageDescriptor Req Layer) : Nat → PhysicalRuntime Req Layer → Prop where
  | heldCanonical {slot : Nat} (hs : d.storage = .canonical)
      (hk : rt.canonicalSlots.get? (l, d.logicalBlockId, d.role) = some slot) :
      Acquired rt l d slot rt
  | freshCanonical {slot : Nat} {rest : List Nat} (hs : d.storage = .canonical)
      (hk : rt.canonicalSlots.get? (l, d.logicalBlockId, d.role) = none)
      (hf : (rt.freeSlots d.role.raw).get? l = some (rest ++ [slot])) :
      Acquired rt l d slot
        ((rt.setFreeSlots d.role.raw l rest).withCanonical l d.logicalBlockId d.role slot)
  | heldOverlay {slot : Nat} (hs : d.storage = .requestOverlay)
      (hk : rt.overlaySlots.get? (l, d.requestId, d.pageIndex) = some slot) :
      Acquired rt l d slot rt
  | freshOverlay {slot : Nat} {rest : List Nat} (hs : d.storage = .requestOverlay)
      (hk : rt.overlaySlots.get? (l, d.requestId, d.pageIndex) = none)
      (hf : (rt.freeSlots true).get? l = some (rest ++ [slot])) :
      Acquired rt l d slot
        ((rt.setFreeSlots true l rest).withOverlay (l, d.requestId, d.pageIndex) slot)

/-- A placed descriptor finds its slot neither held nor free. -/
inductive Exhausted (rt : PhysicalRuntime Req Layer) (l : Layer)
    (d : PhysicalPageDescriptor Req Layer) : Bool → Prop where
  | canonical (hs : d.storage = .canonical)
      (hk : rt.canonicalSlots.get? (l, d.logicalBlockId, d.role) = none)
      (hf : (rt.freeSlots d.role.raw).get? l = some []) : Exhausted rt l d d.role.raw
  | overlay (hs : d.storage = .requestOverlay)
      (hk : rt.overlaySlots.get? (l, d.requestId, d.pageIndex) = none)
      (hf : (rt.freeSlots true).get? l = some []) : Exhausted rt l d true

end PhysicalRuntime

end Sock.Tmh
