/-
  What applying an event does, when it does not raise.

  * `releaseDescriptors_run`, `releaseRequest_run`: the release phase never raises in a state
    with conserved pools, and what it takes away.
  * `clearRequestRows_ok`: the request has a row, and the row is cleared in the event's layers.
  * `placed_of_ok`: a descriptor that is placed enters one key and one row entry.
-/
import Sock.Tmh.Conservation
import Sock.Tmh.Calls

namespace Sock.Tmh

open Lib Lib.Fallible EStateM

variable {Req Layer : Type} [DecidableEq Layer]

/-! ## Row entries -/

/-- What a row's tables say about a page. -/
@[ext] structure RowEntry where
  slot : Int
  role : Int
  native : Int
  deriving DecidableEq

/-- A cleared entry. -/
def RowEntry.blank : RowEntry := ⟨-1, -1, 0⟩

/-- The entry of a placed page. -/
def RowEntry.of (slot : Nat) (role : PageRole) : RowEntry := ⟨slot, role.toInt, slot⟩

def PhysicalKVCache.entry (cache : PhysicalKVCache) (row page : Nat) : RowEntry :=
  ⟨cache.requestSlotByRowPage row page, cache.requestRoleByRowPage row page,
    cache.nativeBlockTableBySeq row page⟩

namespace PhysicalRuntime

/-- The entry of a page in a row of a registered layer. -/
def entry (rt : PhysicalRuntime Req Layer) (l : Layer) (row page : Nat) : Option RowEntry :=
  (rt.caches.get? l).map fun cache => cache.entry row page

section Entries

variable (rt : PhysicalRuntime Req Layer) (l l' : Layer) (row page row' page' : Nat)

theorem entry_updateCache (f : PhysicalKVCache → PhysicalKVCache) :
    (rt.updateCache l f).entry l' row page =
      if l' = l then (rt.caches.get? l).map (fun cache => (f cache).entry row page)
      else rt.entry l' row page := by
  unfold entry
  rw [updateCache_caches]
  split
  · rw [Option.map_map]
    rfl
  · rfl

/-- Updates that leave the rows alone leave the entries alone. -/
theorem entry_updateCache_of_same {f : PhysicalKVCache → PhysicalKVCache}
    (hf : ∀ cache, (f cache).entry row page = cache.entry row page) :
    (rt.updateCache l f).entry l' row page = rt.entry l' row page := by
  rw [entry_updateCache]
  split
  · next h =>
      subst h
      simp only [hf]
      rfl
  · rfl

@[simp] theorem entry_setFreeSlots (raw : Bool) (free : List Nat) :
    (rt.setFreeSlots raw l free).entry l' row page = rt.entry l' row page := by
  simp [entry]

@[simp] theorem entry_withCanonical (b : Int) (k : PageRole) (slot : Nat) :
    (rt.withCanonical l b k slot).entry l' row page = rt.entry l' row page :=
  entry_updateCache_of_same _ _ _ _ _ fun _ => rfl

@[simp] theorem entry_refreshed (b : Int) :
    (rt.refreshed l b).entry l' row page = rt.entry l' row page := by
  unfold refreshed
  split
  · exact entry_updateCache_of_same _ _ _ _ _ fun _ => rfl
  · exact entry_updateCache_of_same _ _ _ _ _ fun _ => rfl

@[simp] theorem entry_releasedCanonical (cache : CacheLayout)
    (d : PhysicalPageDescriptor Req Layer) :
    (rt.releasedCanonical cache d).entry l' row page = rt.entry l' row page := by
  unfold releasedCanonical
  split
  · rfl
  · split
    · rfl
    · unfold freedCanonical
      rw [entry_refreshed, entry_setFreeSlots]
      rfl

theorem entry_clearRow :
    (rt.updateCache l fun cache => cache.clearRow row).entry l' row' page =
      if l' = l ∧ row' = row then (rt.entry l' row' page).map fun _ => .blank
      else rt.entry l' row' page := by
  rw [entry_updateCache]
  by_cases hl : l' = l
  · subst hl
    by_cases hr : row' = row
    · simp [hr, entry, PhysicalKVCache.entry, PhysicalKVCache.clearRow, RowEntry.blank,
        Function.comp_def]
    · simp [hr, entry, PhysicalKVCache.entry, PhysicalKVCache.clearRow]
  · simp [hl]

theorem entry_setRow (slot : Nat) (role : PageRole) :
    (rt.updateCache l fun cache => cache.setRow row page slot role).entry l' row' page' =
      if l' = l ∧ row' = row ∧ page' = page then
        (rt.entry l' row' page').map fun _ => .of slot role
      else rt.entry l' row' page' := by
  rw [entry_updateCache]
  by_cases hl : l' = l
  · subst hl
    by_cases hr : row' = row ∧ page' = page
    · simp [hr, entry, PhysicalKVCache.entry, PhysicalKVCache.setRow, RowEntry.of,
        Function.comp_def]
    · simp [hr, entry, PhysicalKVCache.entry, PhysicalKVCache.setRow]
  · simp [hl]

end Entries

/-! ## Releasing descriptors -/

end PhysicalRuntime

/-- The roles under which a canonical descriptor with role `role` may hold its slot, as
    `release_descriptor` looks for it: its own, promoted, or demoted. -/
def Releasable (cache : CacheLayout) (role k : PageRole) : Prop :=
  k = role ∨ (role.raw = false ∧ k = .hotRaw) ∨ (role.raw = true ∧ k = cache.warmRoleForCache)

instance (cache : CacheLayout) (role k : PageRole) : Decidable (Releasable cache role k) :=
  inferInstanceAs (Decidable (k = role ∨ _))

namespace PhysicalRuntime

variable {rt : PhysicalRuntime Req Layer} {cache : CacheLayout}
  {d : PhysicalPageDescriptor Req Layer}

/-- A held releasable role is found, or another held one before it. -/
theorem releaseRole_isSome {k : PageRole} {slot : Nat} (hk : Releasable cache d.role k)
    (hheld : rt.canonicalSlots.get? (d.layerName, d.logicalBlockId, k) = some slot) :
    ∃ k', rt.releaseRole cache d = some k' := by
  unfold releaseRole
  dsimp only
  split
  · exact ⟨_, rfl⟩
  · next hown =>
      rcases hk with rfl | ⟨hraw, rfl⟩ | ⟨hraw, rfl⟩
      · rw [hheld] at hown
        simp at hown
      · rw [if_neg (by simp [hraw]), if_pos (by simp [hheld])]
        exact ⟨_, rfl⟩
      · rw [if_pos hraw, if_pos (by simp [hheld])]
        exact ⟨_, rfl⟩

theorem refreshed_canonicalSlots (rt : PhysicalRuntime Req Layer) (l : Layer) (b : Int) :
    (rt.refreshed l b).canonicalSlots = rt.canonicalSlots := by
  unfold refreshed
  split <;> simp

theorem refreshed_overlaySlots (rt : PhysicalRuntime Req Layer) (l : Layer) (b : Int) :
    (rt.refreshed l b).overlaySlots = rt.overlaySlots := by
  unfold refreshed
  split <;> simp

/-- A canonical release erases the key it finds, and no other. -/
theorem releasedCanonical_get? (rt : PhysicalRuntime Req Layer) (cache : CacheLayout)
    (d : PhysicalPageDescriptor Req Layer) (key : Layer × Int × PageRole) :
    (rt.releasedCanonical cache d).canonicalSlots.get? key =
      if ∃ k, rt.releaseRole cache d = some k ∧ key = (d.layerName, d.logicalBlockId, k) then none
      else rt.canonicalSlots.get? key := by
  unfold releasedCanonical
  cases hr : rt.releaseRole cache d with
  | none => simp
  | some k =>
      obtain ⟨slot, hs⟩ := Option.isSome_iff_exists.mp (releaseRole_some hr)
      simp only [hs, freedCanonical, refreshed_canonicalSlots, setFreeSlots_canonicalSlots,
        Dict.get?_erase, Option.some.injEq, exists_eq_left']

theorem releasedCanonical_overlaySlots (rt : PhysicalRuntime Req Layer) (cache : CacheLayout)
    (d : PhysicalPageDescriptor Req Layer) :
    (rt.releasedCanonical cache d).overlaySlots = rt.overlaySlots := by
  unfold releasedCanonical
  split
  · rfl
  · split
    · rfl
    · simp [freedCanonical, refreshed_overlaySlots]

/-- The state after releasing a canonical descriptor, in a registered layer. -/
def releasedDescriptor (layouts : Layer → Option CacheLayout) (rt : PhysicalRuntime Req Layer)
    (o : PhysicalPageDescriptor Req Layer) : PhysicalRuntime Req Layer :=
  match layouts o.layerName with
  | none => rt
  | some cache => rt.releasedCanonical cache o

/-- The state after releasing canonical descriptors of registered layers. -/
def releasedDescriptors (layouts : Layer → Option CacheLayout) (rt : PhysicalRuntime Req Layer)
    (released : List (PhysicalPageDescriptor Req Layer)) : PhysicalRuntime Req Layer :=
  released.foldl (releasedDescriptor layouts) rt

section Released

variable {layouts : Layer → Option CacheLayout}

/-- Releasing enters no key. -/
theorem of_releasedDescriptor_get? {o : PhysicalPageDescriptor Req Layer}
    {key : Layer × Int × PageRole} {slot : Nat}
    (h : (rt.releasedDescriptor layouts o).canonicalSlots.get? key = some slot) :
    rt.canonicalSlots.get? key = some slot := by
  unfold releasedDescriptor at h
  split at h
  · exact h
  · rw [releasedCanonical_get?] at h
    split at h
    · cases h
    · exact h

/-- Releasing touches keys of the descriptor's block only. -/
theorem releasedDescriptor_get?_of_ne {o : PhysicalPageDescriptor Req Layer} {l : Layer} {b : Int}
    (ho : ¬ (o.layerName = l ∧ o.logicalBlockId = b)) (k : PageRole) :
    (rt.releasedDescriptor layouts o).canonicalSlots.get? (l, b, k) =
      rt.canonicalSlots.get? (l, b, k) := by
  unfold releasedDescriptor
  split
  · rfl
  · rw [releasedCanonical_get?, if_neg]
    rintro ⟨k', -, he⟩
    simp only [Prod.mk.injEq] at he
    exact ho ⟨he.1.symm, he.2.1.symm⟩

theorem releasedDescriptors_overlaySlots (released : List (PhysicalPageDescriptor Req Layer))
    (rt : PhysicalRuntime Req Layer) :
    (rt.releasedDescriptors layouts released).overlaySlots = rt.overlaySlots := by
  induction released generalizing rt with
  | nil => rfl
  | cons o os ih =>
      refine (ih (rt.releasedDescriptor layouts o)).trans ?_
      unfold releasedDescriptor
      split
      · rfl
      · exact releasedCanonical_overlaySlots _ _ _

theorem releasedDescriptors_entry (released : List (PhysicalPageDescriptor Req Layer))
    (rt : PhysicalRuntime Req Layer) (l : Layer) (row page : Nat) :
    (rt.releasedDescriptors layouts released).entry l row page = rt.entry l row page := by
  induction released generalizing rt with
  | nil => rfl
  | cons o os ih =>
      refine (ih (rt.releasedDescriptor layouts o)).trans ?_
      unfold releasedDescriptor
      split
      · rfl
      · exact entry_releasedCanonical _ _ _ _ _ _

theorem of_releasedDescriptors_get? (released : List (PhysicalPageDescriptor Req Layer))
    (rt : PhysicalRuntime Req Layer) {key : Layer × Int × PageRole} {slot : Nat}
    (h : (rt.releasedDescriptors layouts released).canonicalSlots.get? key = some slot) :
    rt.canonicalSlots.get? key = some slot := by
  induction released generalizing rt with
  | nil => exact h
  | cons o os ih => exact of_releasedDescriptor_get? (ih _ h)

/-- A key that is gone after the release phase was one of a released descriptor's block. -/
theorem releasedDescriptors_get? (released : List (PhysicalPageDescriptor Req Layer))
    (rt : PhysicalRuntime Req Layer) {l : Layer} {b : Int}
    (ho : ∀ o ∈ released, ¬ (o.layerName = l ∧ o.logicalBlockId = b)) (k : PageRole) :
    (rt.releasedDescriptors layouts released).canonicalSlots.get? (l, b, k) =
      rt.canonicalSlots.get? (l, b, k) := by
  induction released generalizing rt with
  | nil => rfl
  | cons o os ih =>
      refine (ih _ fun o' ho' => ho o' (List.mem_cons_of_mem _ ho')).trans ?_
      exact releasedDescriptor_get?_of_ne (ho o List.mem_cons_self) k

/-- When a block holds its slot under one key only, releasing a descriptor of the block that can
    find it takes it. -/
theorem releasedDescriptors_get?_none (released : List (PhysicalPageDescriptor Req Layer))
    (rt : PhysicalRuntime Req Layer) {o : PhysicalPageDescriptor Req Layer} (ho : o ∈ released)
    {cache : CacheLayout} (hl : layouts o.layerName = some cache) {k : PageRole}
    (hk : Releasable cache o.role k)
    (huniq : ∀ k' slot', rt.canonicalSlots.get? (o.layerName, o.logicalBlockId, k') = some slot' →
      k' = k) :
    (rt.releasedDescriptors layouts released).canonicalSlots.get?
      (o.layerName, o.logicalBlockId, k) = none := by
  cases hget : (rt.releasedDescriptors layouts released).canonicalSlots.get?
      (o.layerName, o.logicalBlockId, k) with
  | none => rfl
  | some slot =>
      exfalso
      induction released generalizing rt with
      | nil => cases ho
      | cons o' os ih =>
          rcases List.mem_cons.mp ho with rfl | ho
          · -- the release of `o` finds the key, since no other is held
            have hafter := of_releasedDescriptors_get? os _ hget
            obtain ⟨k', hk'⟩ := releaseRole_isSome hk (of_releasedDescriptor_get? hafter)
            obtain ⟨slot', hs'⟩ := Option.isSome_iff_exists.mp (releaseRole_some hk')
            have := huniq k' slot' hs'
            subst this
            simp only [releasedDescriptor, hl] at hafter
            rw [releasedCanonical_get?, if_pos ⟨k', hk', rfl⟩] at hafter
            cases hafter
          · exact ih _ ho (fun k' slot' hk' => huniq k' slot' (of_releasedDescriptor_get? hk')) hget

variable [DecidableEq Req]

theorem releaseDescriptors_run (released : List (PhysicalPageDescriptor Req Layer))
    {rt : PhysicalRuntime Req Layer} (h : PoolInv layouts rt)
    (hr : ∀ o ∈ released, o.storage = .canonical ∧ ∃ cache, layouts o.layerName = some cache) :
    (released.forM releaseDescriptor).run rt = .ok () (rt.releasedDescriptors layouts released) ∧
      PoolInv layouts (rt.releasedDescriptors layouts released) := by
  induction released generalizing rt with
  | nil => exact ⟨rfl, h⟩
  | cons o os ih =>
      obtain ⟨hs, cache, hl⟩ := hr o List.mem_cons_self
      have hrun := releaseDescriptor_run h hl hs
      have hnext := ih (h.releasedCanonical cache o)
        fun o' ho' => hr o' (List.mem_cons_of_mem _ ho')
      have hfold : rt.releasedDescriptors layouts (o :: os) =
          (rt.releasedCanonical cache o).releasedDescriptors layouts os := by
        simp only [releasedDescriptors, List.foldl_cons, releasedDescriptor, hl]
      rw [hfold]
      refine ⟨?_, hnext.2⟩
      have hcons : List.forM (o :: os) releaseDescriptor =
          (releaseDescriptor o >>= fun _ => List.forM os releaseDescriptor) := rfl
      rw [hcons, run_bind, hrun]
      exact hnext.1

end Released

/-! ## Releasing a request's overlays -/

variable [DecidableEq Req]

/-- The state after `release_request`. -/
def releasedRequest (rt : PhysicalRuntime Req Layer) (requestId : Req) :
    PhysicalRuntime Req Layer :=
  (rt.overlaySlots.keys.filter fun key => decide (key.2.1 = requestId)).foldl releasedOverlay rt

theorem releasedOverlay_canonicalSlots (rt : PhysicalRuntime Req Layer)
    (key : Layer × Req × Int) : (rt.releasedOverlay key).canonicalSlots = rt.canonicalSlots := by
  unfold releasedOverlay
  split <;> simp

theorem releasedOverlay_overlaySlots (rt : PhysicalRuntime Req Layer) (key : Layer × Req × Int) :
    (rt.releasedOverlay key).overlaySlots = rt.overlaySlots.erase key := by
  unfold releasedOverlay
  split
  · next h => exact (Dict.erase_eq_self h).symm
  · simp

theorem releasedOverlay_entry (rt : PhysicalRuntime Req Layer) (key : Layer × Req × Int)
    (l : Layer) (row page : Nat) :
    (rt.releasedOverlay key).entry l row page = rt.entry l row page := by
  unfold releasedOverlay
  split
  · rfl
  · rw [entry_setFreeSlots]
    rfl

theorem foldl_releasedOverlay (keys : List (Layer × Req × Int)) (rt : PhysicalRuntime Req Layer) :
    (keys.foldl releasedOverlay rt).canonicalSlots = rt.canonicalSlots ∧
      (∀ l row page, (keys.foldl releasedOverlay rt).entry l row page = rt.entry l row page) ∧
      ∀ key, (keys.foldl releasedOverlay rt).overlaySlots.get? key =
        if key ∈ keys then none else rt.overlaySlots.get? key := by
  induction keys generalizing rt with
  | nil => exact ⟨rfl, fun _ _ _ => rfl, fun key => by simp⟩
  | cons k ks ih =>
      obtain ⟨h1, h2, h3⟩ := ih (rt.releasedOverlay k)
      refine ⟨h1.trans (releasedOverlay_canonicalSlots rt k),
        fun l row page => (h2 l row page).trans (releasedOverlay_entry rt k l row page),
        fun key => ?_⟩
      rw [List.foldl_cons, h3, releasedOverlay_overlaySlots, Dict.get?_erase]
      by_cases hk : key = k <;> by_cases hks : key ∈ ks <;> simp [hk, hks]

theorem releasedRequest_canonicalSlots (rt : PhysicalRuntime Req Layer) (requestId : Req) :
    (rt.releasedRequest requestId).canonicalSlots = rt.canonicalSlots :=
  (foldl_releasedOverlay _ rt).1

theorem releasedRequest_entry (rt : PhysicalRuntime Req Layer) (requestId : Req) (l : Layer)
    (row page : Nat) : (rt.releasedRequest requestId).entry l row page = rt.entry l row page :=
  (foldl_releasedOverlay _ rt).2.1 l row page

theorem releasedRequest_overlaySlots (rt : PhysicalRuntime Req Layer) (requestId : Req)
    (key : Layer × Req × Int) : (rt.releasedRequest requestId).overlaySlots.get? key =
      if key.2.1 = requestId then none else rt.overlaySlots.get? key := by
  unfold releasedRequest
  rw [(foldl_releasedOverlay _ rt).2.2]
  simp only [List.mem_filter, decide_eq_true_eq]
  by_cases hq : key.2.1 = requestId
  · by_cases hk : key ∈ rt.overlaySlots.keys
    · rw [if_pos ⟨hk, hq⟩, if_pos hq]
    · rw [if_neg fun h => hk h.1, if_pos hq]
      exact Dict.get?_eq_none.mpr hk
  · rw [if_neg fun h => hq h.2, if_neg hq]

theorem forM_releaseOverlay_run {layouts : Layer → Option CacheLayout}
    (keys : List (Layer × Req × Int)) {rt : PhysicalRuntime Req Layer} (h : PoolInv layouts rt) :
    (keys.forM releaseOverlay).run rt = .ok () (keys.foldl releasedOverlay rt) ∧
      PoolInv layouts (keys.foldl releasedOverlay rt) := by
  induction keys generalizing rt with
  | nil => exact ⟨rfl, h⟩
  | cons k ks ih =>
      have hnext := ih (h.releasedOverlay k)
      refine ⟨?_, hnext.2⟩
      have hcons : List.forM (k :: ks) releaseOverlay =
          (releaseOverlay k >>= fun _ => List.forM ks releaseOverlay) := rfl
      rw [hcons, run_bind, releaseOverlay_run h]
      exact hnext.1

theorem releaseRequest_run {layouts : Layer → Option CacheLayout}
    {rt : PhysicalRuntime Req Layer} (h : PoolInv layouts rt) (requestId : Req) :
    (releaseRequest requestId).run rt = .ok () (rt.releasedRequest requestId) ∧
      PoolInv layouts (rt.releasedRequest requestId) := by
  obtain ⟨hrun, hinv⟩ := forM_releaseOverlay_run
    (rt.overlaySlots.keys.filter fun key => decide (key.2.1 = requestId)) h
  exact ⟨hrun, hinv⟩

/-! ## Clearing rows -/

/-- Same slots and pools; the rows may differ. -/
structure SameSlots (rt rt' : PhysicalRuntime Req Layer) : Prop where
  canonicalSlots : rt'.canonicalSlots = rt.canonicalSlots
  overlaySlots : rt'.overlaySlots = rt.overlaySlots
  freeSlots : ∀ raw, rt'.freeSlots raw = rt.freeSlots raw

omit [DecidableEq Req] in
theorem clearRow_ok {l : Layer} {row : Nat} {rt rt' : PhysicalRuntime Req Layer}
    (h : (clearRow l row).run rt = .ok () rt') :
    rt' = rt.updateCache l fun cache => cache.clearRow row := by
  unfold clearRow at h
  rw [run_bind, run_get] at h
  dsimp only at h
  cases hc : rt.caches.get? l with
  | none =>
      rw [hc] at h
      cases h
  | some cache =>
      rw [hc] at h
      dsimp only at h
      split at h
      · cases h
        rfl
      · cases h

/-- Clearing the rows of one request's descriptors: the request has a row, and the row is blank
    in every layer of the descriptors. -/
theorem clearRequestRows_ok {reqIdToIndex : Dict Req Nat} {q : Req}
    (ds : List (PhysicalPageDescriptor Req Layer)) (hq : ∀ d ∈ ds, d.requestId = q)
    (cleared : List (Layer × Nat)) (rt rt' : PhysicalRuntime Req Layer)
    (hcleared : ∀ c ∈ cleared, ∀ page, rt.entry c.1 c.2 page =
      (rt.entry c.1 c.2 page).map fun _ => .blank)
    (h : (clearRequestRows reqIdToIndex ds cleared).run rt = .ok () rt') :
    SameSlots rt rt' ∧ (ds ≠ [] → ∃ row, reqIdToIndex.get? q = some row) ∧
      ∀ row, reqIdToIndex.get? q = some row → ∀ l row' page, rt'.entry l row' page =
        if row' = row ∧ l ∈ ds.map PhysicalPageDescriptor.layerName then
          (rt.entry l row' page).map fun _ => .blank
        else rt.entry l row' page := by
  induction ds generalizing cleared rt with
  | nil =>
      cases h
      exact ⟨⟨rfl, rfl, fun _ => rfl⟩, fun h => absurd rfl h, fun _ _ _ _ _ => by simp⟩
  | cons d ds ih =>
      have hd := hq d List.mem_cons_self
      have hds : ∀ d ∈ ds, d.requestId = q := fun e he => hq e (List.mem_cons_of_mem _ he)
      unfold clearRequestRows at h
      rw [hd] at h
      cases hr : reqIdToIndex.get? q with
      | none =>
          rw [hr] at h
          cases h
      | some row =>
          rw [hr] at h
          dsimp only at h
          split at h
          · next hin =>
              obtain ⟨hsame, -, hentry⟩ := ih hds cleared rt hcleared h
              refine ⟨hsame, fun _ => ⟨row, rfl⟩, fun row₀ hrow l row' page => ?_⟩
              cases hrow
              rw [hentry row hr l row' page]
              by_cases hl : l = d.layerName
              · subst hl
                by_cases hrow' : row' = row
                · subst hrow'
                  simpa using fun _ => hcleared _ hin page
                · simp [hrow']
              · simp [hl]
          · obtain ⟨_, rt₁, h₁, h₂⟩ := run_bind_ok.mp h
            have hrt₁ := clearRow_ok h₁
            have hcleared₁ : ∀ c ∈ (d.layerName, row) :: cleared, ∀ page,
                rt₁.entry c.1 c.2 page = (rt₁.entry c.1 c.2 page).map fun _ => .blank := by
              intro c hc page
              rw [hrt₁, entry_clearRow]
              split
              · rw [Option.map_map]
                rfl
              · next hne =>
                  rcases List.mem_cons.mp hc with rfl | hc
                  · exact absurd ⟨rfl, rfl⟩ hne
                  · exact hcleared c hc page
            obtain ⟨hsame, -, hentry⟩ := ih hds _ rt₁ hcleared₁ h₂
            refine ⟨⟨?_, ?_, fun raw => ?_⟩, fun _ => ⟨row, rfl⟩,
              fun row₀ hrow l row' page => ?_⟩
            · rw [hsame.canonicalSlots, hrt₁, updateCache_canonicalSlots]
            · rw [hsame.overlaySlots, hrt₁, updateCache_overlaySlots]
            · rw [hsame.freeSlots, hrt₁, updateCache_freeSlots]
            · cases hrow
              rw [hentry row hr l row' page, hrt₁, entry_clearRow]
              by_cases hl : l = d.layerName <;> by_cases hrow' : row' = row <;>
                simp [hl, hrow', Option.map_map, Function.comp_def]

/-! ## Placing a descriptor -/

/-- Placing `d` with slot `slot` at `page` of `row`: one key and one row entry. -/
structure PlacedAt (rt : PhysicalRuntime Req Layer) (cache : CacheLayout) (totalPages : Int)
    (d : PhysicalPageDescriptor Req Layer) (row page slot : Nat)
    (rt' : PhysicalRuntime Req Layer) : Prop where
  index : tensorIndex d.pageIndex cache.spec.tmhMaxModelPages = some page
  canonical : ∀ key, rt'.canonicalSlots.get? key =
    if (rt.placement cache d totalPages).storage = .canonical ∧
        key = (d.layerName, d.logicalBlockId, (rt.placement cache d totalPages).role) then
      some slot
    else rt.canonicalSlots.get? key
  overlay : ∀ key, rt'.overlaySlots.get? key =
    if (rt.placement cache d totalPages).storage = .requestOverlay ∧
        key = (d.layerName, d.requestId, d.pageIndex) then some slot
    else rt.overlaySlots.get? key
  entry : ∀ l row' page', rt'.entry l row' page' =
    if l = d.layerName ∧ row' = row ∧ page' = page then
      some (.of slot (rt.placement cache d totalPages).role)
    else rt.entry l row' page'
  canonical_mono : ∀ key s, rt.canonicalSlots.get? key = some s →
    rt'.canonicalSlots.get? key = some s
  overlay_mono : ∀ key s, rt.overlaySlots.get? key = some s → rt'.overlaySlots.get? key = some s

/-- Getting a slot takes none away from a key. -/
theorem Acquired.mono {rt rt' : PhysicalRuntime Req Layer} {l : Layer}
    {d : PhysicalPageDescriptor Req Layer} {slot : Nat} (h : Acquired rt l d slot rt') :
    (∀ key s, rt.canonicalSlots.get? key = some s → rt'.canonicalSlots.get? key = some s) ∧
      ∀ key s, rt.overlaySlots.get? key = some s → rt'.overlaySlots.get? key = some s := by
  cases h with
  | heldCanonical hs hk => exact ⟨fun _ _ h => h, fun _ _ h => h⟩
  | freshCanonical hs hk hf =>
      refine ⟨fun key s h => ?_, fun key s h => ?_⟩
      · have hne : key ≠ (l, d.logicalBlockId, d.role) := by
          rintro rfl
          rw [hk] at h
          cases h
        simpa [withCanonical, hne] using h
      · simpa [withCanonical] using h
  | heldOverlay hs hk => exact ⟨fun _ _ h => h, fun _ _ h => h⟩
  | freshOverlay hs hk hf =>
      refine ⟨fun key s h => ?_, fun key s h => ?_⟩
      · simpa [withOverlay] using h
      · have hne : key ≠ (l, d.requestId, d.pageIndex) := by
          rintro rfl
          rw [hk] at h
          cases h
        simpa [withOverlay, hne] using h

theorem Acquired.get? {rt rt' : PhysicalRuntime Req Layer} {l : Layer}
    {d : PhysicalPageDescriptor Req Layer} {slot : Nat} (h : Acquired rt l d slot rt') :
    (∀ key, rt'.canonicalSlots.get? key =
        if d.storage = .canonical ∧ key = (l, d.logicalBlockId, d.role) then some slot
        else rt.canonicalSlots.get? key) ∧
      (∀ key, rt'.overlaySlots.get? key =
        if d.storage = .requestOverlay ∧ key = (l, d.requestId, d.pageIndex) then some slot
        else rt.overlaySlots.get? key) ∧
      ∀ l' row page, rt'.entry l' row page = rt.entry l' row page := by
  cases h with
  | heldCanonical hs hk =>
      refine ⟨fun key => ?_, fun key => by simp [hs], fun _ _ _ => rfl⟩
      split
      · next he => rw [he.2, hk]
      · rfl
  | freshCanonical hs hk hf =>
      refine ⟨fun key => ?_, fun key => ?_, fun l' row page => ?_⟩
      · simp [withCanonical, hs]
      · simp [withCanonical, hs]
      · rw [entry_withCanonical, entry_setFreeSlots]
  | heldOverlay hs hk =>
      refine ⟨fun key => by simp [hs], fun key => ?_, fun _ _ _ => rfl⟩
      split
      · next he => rw [he.2, hk]
      · rfl
  | freshOverlay hs hk hf =>
      refine ⟨fun key => ?_, fun key => ?_, fun l' row page => ?_⟩
      · simp [withOverlay, hs]
      · simp [withOverlay, hs]
      · exact entry_setFreeSlots _ _ _ _ _ _ _

/-- A descriptor is applied without an error. -/
theorem placed_of_ok {layouts : Layer → Option CacheLayout} {rt rt' : PhysicalRuntime Req Layer}
    (h : PoolInv layouts rt) {reqIdToIndex : Dict Req Nat} {totalPages : Int}
    {d : PhysicalPageDescriptor Req Layer}
    (hrun : (applyEventDescriptor reqIdToIndex totalPages d).run rt = .ok () rt') :
    ∃ cache row page slot, layouts d.layerName = some cache ∧
      reqIdToIndex.get? d.requestId = some row ∧
        PlacedAt rt cache totalPages d row page slot rt' := by
  have ho := applyEventDescriptor_cases h reqIdToIndex totalPages d
  rw [hrun] at ho
  cases ho with
  | @placed cache slot row page rt₁ hl h0 hb ha hr hrow hpage =>
      have hre := rt.placement_reroled cache d totalPages
      obtain ⟨hcan, hover, hentry⟩ := ha.get?
      rw [hre.logicalBlockId] at hcan
      rw [hre.requestId, hre.pageIndex] at hover
      refine ⟨cache, row, page, slot, hl, hr, hpage, ?_, ?_, ?_, by simpa using ha.mono.1,
        by simpa using ha.mono.2⟩
      · intro key
        rw [updateCache_canonicalSlots]
        exact hcan key
      · intro key
        rw [updateCache_overlaySlots]
        exact hover key
      · intro l row' page'
        rw [entry_setRow, hentry]
        split
        · next he =>
            rw [he.1]
            obtain ⟨c, hc, -⟩ := h.cache hl
            simp [entry, hc]
        · rfl

/-! ## The descriptor loop -/

/-- The runtime holds `slot` for the page of `d`: under a canonical key of its block with role
    `k`, or, as a hot page, in the request's overlay. -/
def Holds (rt : PhysicalRuntime Req Layer) (d : PhysicalPageDescriptor Req Layer) (k : PageRole)
    (slot : Nat) : Prop :=
  rt.canonicalSlots.get? (d.layerName, d.logicalBlockId, k) = some slot ∨
    (k = .hotRaw ∧ rt.overlaySlots.get? (d.layerName, d.requestId, d.pageIndex) = some slot)

/-- A placed page is held under the role its row entry shows. -/
theorem PlacedAt.holds {rt rt' : PhysicalRuntime Req Layer} {cache : CacheLayout} {totalPages : Int}
    {d : PhysicalPageDescriptor Req Layer} {row page slot : Nat}
    (h : PlacedAt rt cache totalPages d row page slot rt')
    (hd : d.storage = storageKindForRole d.role d.prefixCached) :
    rt'.Holds d (rt.placement cache d totalPages).role slot := by
  have hst := (rt.placement_reroled cache d totalPages).storage hd
  cases hs : (rt.placement cache d totalPages).storage with
  | canonical => exact .inl ((h.canonical _).trans (if_pos ⟨hs, rfl⟩))
  | requestOverlay =>
      rw [hs] at hst
      exact .inr ⟨(storageKindForRole_overlay.mp hst.symm).1,
        (h.overlay _).trans (if_pos ⟨hs, rfl⟩)⟩

/-- What the loop has done to the state `rt₀` after the descriptors `done`: it took no slot
    away, placed each of them in the row, and touched nothing else in the rows. -/
structure LoopState (layouts : Layer → Option CacheLayout) (rt₀ : PhysicalRuntime Req Layer)
    (row : Nat) (done : List (PhysicalPageDescriptor Req Layer))
    (rt : PhysicalRuntime Req Layer) : Prop where
  inv : PoolInv layouts rt
  canonical_mono : ∀ key s, rt₀.canonicalSlots.get? key = some s →
    rt.canonicalSlots.get? key = some s
  overlay_mono : ∀ key s, rt₀.overlaySlots.get? key = some s → rt.overlaySlots.get? key = some s
  other : ∀ l row' page, row' ≠ row → rt.entry l row' page = rt₀.entry l row' page
  untouched : ∀ l (page : Nat), (∀ d ∈ done, ¬ (d.layerName = l ∧ d.pageIndex = page)) →
    rt.entry l row page = rt₀.entry l row page
  placed : ∀ d ∈ done, ∃ k slot, rt.entry d.layerName row d.pageIndex.toNat = some (.of slot k) ∧
    rt.Holds d k slot

theorem tensorIndex_nonneg {i : Int} {n p : Nat} (h : tensorIndex i n = some p) (h0 : 0 ≤ i) :
    p = i.toNat := by
  unfold tensorIndex at h
  split at h
  · cases h
    rfl
  · split at h
    · omega
    · cases h

theorem LoopState.step {layouts : Layer → Option CacheLayout}
    {rt₀ rt rt' : PhysicalRuntime Req Layer} {row : Nat}
    {done : List (PhysicalPageDescriptor Req Layer)} (h : LoopState layouts rt₀ row done rt)
    {reqIdToIndex : Dict Req Nat} {totalPages : Int} {d : PhysicalPageDescriptor Req Layer}
    (hrow : reqIdToIndex.get? d.requestId = some row) (h0 : 0 ≤ d.pageIndex)
    (hd : d.storage = storageKindForRole d.role d.prefixCached)
    (hnew : ∀ e ∈ done, 0 ≤ e.pageIndex ∧ ¬ (e.layerName = d.layerName ∧ e.pageIndex = d.pageIndex))
    (hrun : (applyEventDescriptor reqIdToIndex totalPages d).run rt = .ok () rt') :
    LoopState layouts rt₀ row (done ++ [d]) rt' := by
  have hinv : PoolInv layouts rt' := by
    have hkeep := applyEventDescriptor_keeps reqIdToIndex totalPages d rt h.inv
    rwa [hrun] at hkeep
  obtain ⟨cache, row', page, slot, hl, hrow', hp⟩ := placed_of_ok h.inv hrun
  rw [hrow] at hrow'
  cases hrow'
  have hpg := tensorIndex_nonneg hp.index h0
  refine ⟨hinv, fun key s hk => hp.canonical_mono key s (h.canonical_mono key s hk),
    fun key s hk => hp.overlay_mono key s (h.overlay_mono key s hk), ?_, ?_, ?_⟩
  · intro l row' page' hne
    rw [hp.entry, if_neg fun he => hne he.2.1]
    exact h.other l row' page' hne
  · intro l page' hun
    rw [hp.entry, if_neg, h.untouched l page' fun e he => hun e (List.mem_append_left _ he)]
    rintro ⟨rfl, -, rfl⟩
    exact hun d (List.mem_append_right _ (List.mem_singleton_self d)) ⟨rfl, by omega⟩
  · intro e he
    rcases List.mem_append.mp he with he | he
    · obtain ⟨k, s, hent, hh⟩ := h.placed e he
      refine ⟨k, s, ?_, ?_⟩
      · rw [hp.entry, if_neg, hent]
        rintro ⟨hlay, -, hpe⟩
        obtain ⟨he0, hne⟩ := hnew e he
        exact hne ⟨hlay, by omega⟩
      · rcases hh with hc | ⟨hk, ho⟩
        · exact .inl (hp.canonical_mono _ _ hc)
        · exact .inr ⟨hk, hp.overlay_mono _ _ ho⟩
    · rw [List.mem_singleton] at he
      subst he
      exact ⟨_, slot, by rw [hp.entry, if_pos ⟨rfl, rfl, hpg.symm⟩], hp.holds hd⟩

/-! ## The release phase of an event -/

/-- The release phase of an event of `q`: it enters no canonical key, takes keys of released
    blocks only, takes every key that a released descriptor can find and that is its block's
    only one, and drops the overlays of `q`. -/
structure Freed (layouts : Layer → Option CacheLayout) (rt : PhysicalRuntime Req Layer) (q : Req)
    (released : List (PhysicalPageDescriptor Req Layer)) (rt' : PhysicalRuntime Req Layer) :
    Prop where
  inv : PoolInv layouts rt'
  sub : ∀ key s, rt'.canonicalSlots.get? key = some s → rt.canonicalSlots.get? key = some s
  kept : ∀ l b k, (∀ o ∈ released, ¬ (o.layerName = l ∧ o.logicalBlockId = b)) →
    rt'.canonicalSlots.get? (l, b, k) = rt.canonicalSlots.get? (l, b, k)
  taken : ∀ o ∈ released, ∀ cache k, layouts o.layerName = some cache →
    Releasable cache o.role k →
    (∀ k' s, rt.canonicalSlots.get? (o.layerName, o.logicalBlockId, k') = some s → k' = k) →
    rt'.canonicalSlots.get? (o.layerName, o.logicalBlockId, k) = none
  overlay : ∀ key, rt'.overlaySlots.get? key =
    if key.2.1 = q then none else rt.overlaySlots.get? key

theorem freed_of_canonicalSlots {layouts : Layer → Option CacheLayout}
    {rt₀ rt rt' : PhysicalRuntime Req Layer} {q : Req}
    {released : List (PhysicalPageDescriptor Req Layer)} (hinv : PoolInv layouts rt')
    (h₀ : rt₀.canonicalSlots = rt.canonicalSlots)
    (hc : rt'.canonicalSlots = (rt₀.releasedDescriptors layouts released).canonicalSlots)
    (ho : ∀ key, rt'.overlaySlots.get? key =
      if key.2.1 = q then none else rt.overlaySlots.get? key) :
    Freed layouts rt q released rt' where
  inv := hinv
  sub key s h := by
    rw [hc] at h
    rw [← h₀]
    exact of_releasedDescriptors_get? released rt₀ h
  kept l b k hr := by rw [hc, releasedDescriptors_get? released rt₀ hr k, h₀]
  taken o hm cache k hl hk huniq := by
    rw [hc]
    exact releasedDescriptors_get?_none released rt₀ hm hl hk (h₀ ▸ huniq)
  overlay := ho

/-- The layers of the policy are the registered ones. -/
def Registered (layouts : Layer → Option CacheLayout) (c : PolicyConfig Layer) : Prop :=
  ∀ l, (∃ cache, layouts l = some cache) ↔ l ∈ c.layerNames

section Event

variable {layouts : Layer → Option CacheLayout} {c : PolicyConfig Layer}
  {ledger ledger' : Ledger Req Layer} {event : PhysicalEvent Req Layer}
  {reqIdToIndex : Dict Req Nat} {rt rt' : PhysicalRuntime Req Layer}

theorem released_registered (hreg : Registered layouts c) (hl : LedgerInv c ledger)
    {released : List (PhysicalPageDescriptor Req Layer)} (h : ReleaseSpec ledger ledger' released) :
    ∀ o ∈ released, o.storage = .canonical ∧ ∃ cache, layouts o.layerName = some cache := by
  intro o ho
  obtain ⟨hget, hs, -⟩ := h.old o ho
  exact ⟨hs, (hreg _).mpr (hl.page _ _ hget).mem_layerNames⟩

/-- A record's release phase does not raise; its clearing of the rows may. -/
theorem prepareEvent_record (hreg : Registered layouts c) (hl : LedgerInv c ledger)
    (hinv : PoolInv layouts rt) (h : RecordSpec c ledger ledger' event) :
    ∃ rt₁, Freed layouts rt event.requestId event.releasedDescriptors rt₁ ∧
      (∀ l row page, rt₁.entry l row page = rt.entry l row page) ∧
      (prepareEvent reqIdToIndex event).run rt =
        (clearRequestRows reqIdToIndex event.descriptors []).run rt₁ := by
  obtain ⟨hrun₁, hinv₁⟩ := releaseDescriptors_run event.releasedDescriptors hinv
    (released_registered hreg hl h.released)
  obtain ⟨hrun₂, hinv₂⟩ := releaseRequest_run hinv₁ event.requestId
  refine ⟨_, freed_of_canonicalSlots hinv₂ rfl (releasedRequest_canonicalSlots _ _) ?_, ?_, ?_⟩
  · intro key
    rw [releasedRequest_overlaySlots, releasedDescriptors_overlaySlots]
  · intro l row page
    rw [releasedRequest_entry, releasedDescriptors_entry]
  · unfold prepareEvent
    rw [h.noRequests, if_pos h.nonempty, run_bind]
    show (EStateM.run (event.releasedDescriptors.forM releaseDescriptor >>= _) rt) = _
    rw [run_bind, hrun₁]
    show (EStateM.run (releaseRequest event.requestId >>= _) _) = _
    rw [run_bind, hrun₂]

/-- The state before the descriptor loop of a record: its request has a row, and the row is
    blank in every layer. -/
structure Prepared (layouts : Layer → Option CacheLayout) (rt : PhysicalRuntime Req Layer)
    (event : PhysicalEvent Req Layer) (row : Nat) (rt' : PhysicalRuntime Req Layer) : Prop where
  freed : Freed layouts rt event.requestId event.releasedDescriptors rt'
  blank : ∀ l page e, rt'.entry l row page = some e → e = .blank
  other : ∀ l row' page, row' ≠ row → rt'.entry l row' page = rt.entry l row' page

theorem prepared_of_ok (hreg : Registered layouts c) (hl : LedgerInv c ledger)
    (hinv : PoolInv layouts rt) (h : RecordSpec c ledger ledger' event)
    (hrun : (prepareEvent reqIdToIndex event).run rt = .ok () rt') :
    ∃ row, reqIdToIndex.get? event.requestId = some row ∧ Prepared layouts rt event row rt' := by
  obtain ⟨rt₁, hfreed, hent, heq⟩ := prepareEvent_record hreg hl hinv h
  have hinv' : PoolInv layouts rt' := by
    have hkeep := prepareEvent_keeps reqIdToIndex event rt hinv
    rwa [hrun] at hkeep
  rw [heq] at hrun
  obtain ⟨hsame, hex, hclear⟩ := clearRequestRows_ok event.descriptors h.request [] rt₁ rt'
    (fun _ hc => absurd hc List.not_mem_nil) hrun
  obtain ⟨row, hrow⟩ := hex h.nonempty
  -- some page is recorded, and a recorded page is recorded in every registered layer
  have hlayer : ∀ l cache, layouts l = some cache →
      l ∈ event.descriptors.map PhysicalPageDescriptor.layerName := by
    intro l cache hl
    obtain ⟨d, hd⟩ := List.exists_mem_of_ne_nil _ h.nonempty
    obtain ⟨d', hd', hname, -⟩ := h.layers d hd l ((hreg l).mp ⟨cache, hl⟩)
    exact List.mem_map.mpr ⟨d', hd', hname⟩
  refine ⟨row, hrow, ⟨hinv', ?_, ?_, ?_, ?_⟩, ?_, ?_⟩
  · rw [hsame.canonicalSlots]
    exact hfreed.sub
  · rw [hsame.canonicalSlots]
    exact hfreed.kept
  · rw [hsame.canonicalSlots]
    exact hfreed.taken
  · rw [hsame.overlaySlots]
    exact hfreed.overlay
  · intro l page e he
    have hcache : ∃ cache, layouts l = some cache := by
      unfold entry at he
      obtain ⟨cache, hc, -⟩ := Option.map_eq_some_iff.mp he
      exact ⟨_, hinv'.layouts_of_cache hc⟩
    obtain ⟨cache, hc⟩ := hcache
    rw [hclear row hrow, if_pos ⟨rfl, hlayer l cache hc⟩] at he
    obtain ⟨_, -, rfl⟩ := Option.map_eq_some_iff.mp he
    rfl
  · intro l row' page hne
    rw [hclear row hrow, if_neg fun h => hne h.1, hent]

omit [DecidableEq Req] in
theorem clearRow_raises (l : Layer) (row : Nat) :
    Raises RuntimeError.NotExhausted (clearRow l row : RuntimeM Req Layer Unit) := by
  refine raises_bind raises_get fun rt => ?_
  split
  · exact raises_throw (by simp [RuntimeError.NotExhausted])
  · split
    · exact raises_set _
    · exact raises_throw (by simp [RuntimeError.NotExhausted])

/-- Clearing rows takes no slots. -/
theorem clearRequestRows_raises (ds : List (PhysicalPageDescriptor Req Layer))
    (cleared : List (Layer × Nat)) :
    Raises RuntimeError.NotExhausted (clearRequestRows reqIdToIndex ds cleared) := by
  induction ds generalizing cleared with
  | nil => exact raises_pure ()
  | cons d ds ih =>
      unfold clearRequestRows
      split
      · exact raises_throw (by simp [RuntimeError.NotExhausted])
      · split
        · exact ih _
        · exact raises_bind (clearRow_raises _ _) fun _ => ih _

theorem prepareEvent_error (hreg : Registered layouts c) (hl : LedgerInv c ledger)
    (hinv : PoolInv layouts rt) (h : RecordSpec c ledger ledger' event)
    {e : RuntimeError Req Layer} (hrun : (prepareEvent reqIdToIndex event).run rt = .error e rt') :
    e.NotExhausted := by
  obtain ⟨rt₁, -, -, heq⟩ := prepareEvent_record hreg hl hinv h
  rw [heq] at hrun
  exact clearRequestRows_raises _ _ _ _ _ hrun

/-- The loop of a record that does not raise places every descriptor in the request's row. -/
theorem loopState_of_ok (hinv : PoolInv layouts rt) (h : RecordSpec c ledger ledger' event)
    {row : Nat} (hrow : reqIdToIndex.get? event.requestId = some row)
    (hloop : (event.descriptors.forM (applyEventDescriptor reqIdToIndex event.totalPages)).run rt =
      .ok () rt') : LoopState layouts rt row event.descriptors rt' := by
  -- the descriptors met so far are a front part of the event's
  have hend := (forM_rule
    (I := fun rest s => ∃ done, event.descriptors = done ++ rest ∧
      LoopState layouts rt row done s)
    (C := fun _ _ => True) ?_ event.descriptors rt (fun _ _ => trivial)
    ⟨[], rfl, ⟨hinv, fun _ _ h => h, fun _ _ h => h, fun _ _ _ _ => rfl, fun _ _ _ => rfl,
      fun _ h => absurd h List.not_mem_nil⟩⟩).1 rt' hloop
  · obtain ⟨done, hd, hs⟩ := hend
    rw [List.append_nil] at hd
    rwa [hd]
  · rintro d rest s s' - ⟨done, hd, hs⟩ hstep
    have hm : d ∈ event.descriptors := by simp [hd]
    refine ⟨done ++ [d], by simp [hd], hs.step ?_ (h.page d hm).1 (h.page d hm).storage ?_ hstep⟩
    · rw [h.request d hm]
      exact hrow
    · intro e he
      have hme : e ∈ event.descriptors := by simp [hd, he]
      refine ⟨(h.page e hme).1, fun heq => ?_⟩
      have hnodup := h.nodup
      rw [hd, List.map_append, List.nodup_append] at hnodup
      refine hnodup.2.2 e.key (List.mem_map_of_mem he) d.key
        (List.mem_map_of_mem List.mem_cons_self) ?_
      simp only [PhysicalPageDescriptor.key, h.request e hme, h.request d hm, heq.1, heq.2]

/-- A forget is applied without raising, and writes no row. -/
theorem applyEvent_forget_run (hreg : Registered layouts c) (hl : LedgerInv c ledger)
    (hinv : PoolInv layouts rt) (h : ForgetSpec ledger ledger' event) :
    ∃ rt', (applyEvent reqIdToIndex event).run rt = .ok () rt' ∧
      Freed layouts rt event.requestId event.releasedDescriptors rt' ∧
      ∀ l row page, rt'.entry l row page = rt.entry l row page := by
  obtain ⟨hrun₁, hinv₁⟩ := releaseRequest_run hinv event.requestId
  obtain ⟨hrun₂, hinv₂⟩ := releaseDescriptors_run event.releasedDescriptors hinv₁
    (released_registered hreg hl h.released)
  refine ⟨_, ?_, freed_of_canonicalSlots hinv₂ (releasedRequest_canonicalSlots rt _) rfl ?_, ?_⟩
  · unfold applyEvent prepareEvent
    have hone : List.forM [event.requestId] releaseRequest =
        (releaseRequest event.requestId >>= fun _ => (pure () : RuntimeM Req Layer Unit)) := rfl
    rw [h.requests, h.descriptors, hone, if_neg (by simp)]
    simp only [run_bind, hrun₁, run_pure, hrun₂]
    rfl
  · intro key
    rw [releasedDescriptors_overlaySlots, releasedRequest_overlaySlots]
  · intro l row page
    rw [releasedDescriptors_entry, releasedRequest_entry]

end Event

end PhysicalRuntime

end Sock.Tmh
