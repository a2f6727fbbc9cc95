/-
  Slot conservation in the TMH runtime.

  In every layer and pool, the free list together with the slots held under canonical keys
  and overlays is, up to order, `0 .. pages-1`: no slot is lost and none is handed out twice.
  The canonical tables show a held key of each block that has one.

  * `canonicalSlot_cases`, `overlaySlot_cases`: the three ways of getting a slot.
  * `releaseOverlay_run`, `releaseDescriptor_run`: what a release does.
  * `applyEventDescriptor_cases`: everything the descriptor loop's body can do.
  * `applyEvents_keeps`: `PoolInv` survives every call, also one that raises.
  * `slots_conserved`: the pools and tables after any sequence of calls.
-/
import Sock.Tmh.Slots

namespace Sock.Tmh

open Lib Lib.Fallible PhysicalRuntime EStateM

variable {Req Layer : Type} [DecidableEq Layer]

/-! ## The invariant -/

/-- Every pool is its free list and its held slots. -/
def PoolsFull (layouts : Layer → Option CacheLayout) (rt : PhysicalRuntime Req Layer) : Prop :=
  ∀ l cfg raw, layouts l = some cfg → ∃ free, (rt.freeSlots raw).get? l = some free ∧
    (free ++ rt.held raw l).Perm (List.range (cfg.pages raw))

section Pools

variable {layouts : Layer → Option CacheLayout} {rt rt' : PhysicalRuntime Req Layer}
  {raw₀ : Bool} {l₀ : Layer}

/-- A slot moves from the end of a free list to the held slots. -/
theorem PoolsFull.take (h : PoolsFull layouts rt) {rest : List Nat} {slot : Nat}
    (hf : (rt.freeSlots raw₀).get? l₀ = some (rest ++ [slot]))
    (hf' : ∀ raw l, (rt'.freeSlots raw).get? l =
      if raw = raw₀ ∧ l = l₀ then some rest else (rt.freeSlots raw).get? l)
    (hh : ∀ raw l, (rt'.held raw l).Perm
      ((if l = l₀ ∧ raw = raw₀ then [slot] else []) ++ rt.held raw l)) :
    PoolsFull layouts rt' := by
  intro l cfg raw hl
  obtain ⟨free, hfree, hp⟩ := h l cfg raw hl
  by_cases hc : raw = raw₀ ∧ l = l₀
  · refine ⟨rest, by rw [hf', if_pos hc], ?_⟩
    have hh' := hh raw l
    rw [if_pos hc.symm, List.singleton_append] at hh'
    obtain ⟨rfl, rfl⟩ := hc
    rw [hf] at hfree
    cases hfree
    refine (hh'.append_left rest).trans ?_
    rw [List.append_assoc, List.singleton_append] at hp
    exact hp
  · refine ⟨free, by rw [hf', if_neg hc, hfree], ?_⟩
    have hh' := hh raw l
    rw [if_neg fun h => hc h.symm, List.nil_append] at hh'
    exact (hh'.append_left free).trans hp

/-- A held slot moves to the end of a free list. -/
theorem PoolsFull.give (h : PoolsFull layouts rt) (slot : Nat) {free₀ : List Nat}
    (hf : (rt.freeSlots raw₀).get? l₀ = some free₀)
    (hf' : ∀ raw l, (rt'.freeSlots raw).get? l =
      if raw = raw₀ ∧ l = l₀ then some (free₀ ++ [slot]) else (rt.freeSlots raw).get? l)
    (hh : ∀ raw l, (rt.held raw l).Perm
      ((if l = l₀ ∧ raw = raw₀ then [slot] else []) ++ rt'.held raw l)) :
    PoolsFull layouts rt' := by
  intro l cfg raw hl
  obtain ⟨free, hfree, hp⟩ := h l cfg raw hl
  by_cases hc : raw = raw₀ ∧ l = l₀
  · refine ⟨free₀ ++ [slot], by rw [hf', if_pos hc], ?_⟩
    have hh' := hh raw l
    rw [if_pos hc.symm, List.singleton_append] at hh'
    obtain ⟨rfl, rfl⟩ := hc
    rw [hf] at hfree
    cases hfree
    rw [List.append_assoc, List.singleton_append]
    exact (hh'.symm.append_left free₀).trans hp
  · refine ⟨free, by rw [hf', if_neg hc, hfree], ?_⟩
    have hh' := hh raw l
    rw [if_neg fun h => hc h.symm, List.nil_append] at hh'
    exact (hh'.symm.append_left free).trans hp

end Pools

/-- The canonical tables of a layer show one of the block's held keys, or -1 when it has
    none. -/
def TableShows (rt : PhysicalRuntime Req Layer) (l : Layer) (cache : PhysicalKVCache) (b : Nat) :
    Prop :=
  ((∀ k, rt.canonicalSlots.get? (l, (b : Int), k) = none) ∧
      cache.canonicalRoleByLogicalBlock b = -1 ∧ cache.canonicalSlotByLogicalBlock b = -1) ∨
    ∃ k slot, rt.canonicalSlots.get? (l, (b : Int), k) = some slot ∧
      cache.canonicalRoleByLogicalBlock b = k.toInt ∧ cache.canonicalSlotByLogicalBlock b = slot

theorem TableShows.role_eq_neg_one {rt : PhysicalRuntime Req Layer} {l : Layer}
    {cache : PhysicalKVCache} {b : Nat} (h : TableShows rt l cache b) :
    (cache.canonicalRoleByLogicalBlock b = -1 ↔
      ∀ k, rt.canonicalSlots.get? (l, (b : Int), k) = none) ∧
    (cache.canonicalSlotByLogicalBlock b = -1 ↔
      ∀ k, rt.canonicalSlots.get? (l, (b : Int), k) = none) := by
  rcases h with ⟨hnone, hr, hs⟩ | ⟨k, slot, hk, hr, hs⟩
  · exact ⟨⟨fun _ => hnone, fun _ => hr⟩, ⟨fun _ => hnone, fun _ => hs⟩⟩
  · have hsome : ¬ ∀ k, rt.canonicalSlots.get? (l, (b : Int), k) = none := by
      intro hall
      rw [hall k] at hk
      cases hk
    have hneg : k.toInt ≠ -1 := by
      have := k.toInt_nonneg
      omega
    refine ⟨⟨fun he => absurd (hr ▸ he) hneg, fun hall => absurd hall hsome⟩,
      ⟨fun he => ?_, fun hall => absurd hall hsome⟩⟩
    rw [hs] at he
    omega

variable [DecidableEq Req]

/-- The registered layers have the given layouts, every pool is its free list and its held
    slots, and the tables show the held keys. -/
structure PoolInv (layouts : Layer → Option CacheLayout) (rt : PhysicalRuntime Req Layer) :
    Prop where
  layout : ∀ l, (rt.caches.get? l).map PhysicalKVCache.toCacheLayout = layouts l
  pool : PoolsFull layouts rt
  canonicalKey : ∀ l b k slot, rt.canonicalSlots.get? (l, b, k) = some slot →
    ∃ cfg, layouts l = some cfg ∧ 0 ≤ b ∧ b < cfg.numLogicalBlocks
  overlayKey : ∀ l q p slot, rt.overlaySlots.get? (l, q, p) = some slot →
    ∃ cfg, layouts l = some cfg
  tables : ∀ l cache, rt.caches.get? l = some cache →
    ∀ b < cache.numLogicalBlocks, TableShows rt l cache b

namespace PoolInv

variable {layouts : Layer → Option CacheLayout} {rt : PhysicalRuntime Req Layer}

theorem cache (h : PoolInv layouts rt) {l : Layer} {cfg : CacheLayout}
    (hl : layouts l = some cfg) : ∃ cache, rt.caches.get? l = some cache ∧
      cache.toCacheLayout = cfg := by
  have := h.layout l
  rw [hl] at this
  exact Option.map_eq_some_iff.mp this

theorem layouts_of_cache (h : PoolInv layouts rt) {l : Layer} {cache : PhysicalKVCache}
    (hc : rt.caches.get? l = some cache) : layouts l = some cache.toCacheLayout := by
  rw [← h.layout l, hc]
  rfl

end PoolInv

namespace PoolInv

variable {layouts : Layer → Option CacheLayout} {rt : PhysicalRuntime Req Layer}

/-- Changing row tables only. -/
theorem updateCache (h : PoolInv layouts rt) (l : Layer) {f : PhysicalKVCache → PhysicalKVCache}
    (hl : ∀ c, (f c).toCacheLayout = c.toCacheLayout)
    (hr : ∀ c, (f c).canonicalRoleByLogicalBlock = c.canonicalRoleByLogicalBlock)
    (hs : ∀ c, (f c).canonicalSlotByLogicalBlock = c.canonicalSlotByLogicalBlock) :
    PoolInv layouts (rt.updateCache l f) where
  layout l' := by
    rw [← h.layout l', updateCache_caches]
    by_cases hll : l' = l
    · subst hll
      cases rt.caches.get? l' <;> simp [hl]
    · simp [hll]
  pool l' cfg raw hcfg := by simpa using h.pool l' cfg raw hcfg
  canonicalKey := by simpa using h.canonicalKey
  overlayKey := by simpa using h.overlayKey
  tables l' cache hc b hb := by
    rw [updateCache_caches] at hc
    by_cases hll : l' = l
    · subst hll
      rw [if_pos rfl] at hc
      obtain ⟨c, hc', rfl⟩ := Option.map_eq_some_iff.mp hc
      have hb' : b < c.numLogicalBlocks := by
        have := congrArg CacheLayout.numLogicalBlocks (hl c)
        omega
      have := h.tables l' c hc' b hb'
      simpa [TableShows, hr, hs] using this
    · rw [if_neg hll] at hc
      simpa [TableShows] using h.tables l' cache hc b hb

/-- Changing the canonical tables at one block, to show what the block now holds. -/
theorem tables_setCanonical {rt' : PhysicalRuntime Req Layer} (h : PoolInv layouts rt) {l : Layer}
    {b : Int} (h0 : 0 ≤ b) {role slot : Int}
    (hcaches : rt'.caches = rt.caches)
    (hother : ∀ l' b' k, (l' ≠ l ∨ b' ≠ b) →
      rt'.canonicalSlots.get? (l', b', k) = rt.canonicalSlots.get? (l', b', k))
    (hshow : ((∀ k, rt'.canonicalSlots.get? (l, b, k) = none) ∧ role = -1 ∧ slot = -1) ∨
      ∃ k s, rt'.canonicalSlots.get? (l, b, k) = some s ∧ role = k.toInt ∧ slot = (s : Int)) :
    ∀ l' cache,
      (rt'.updateCache l fun c => c.setCanonical b.toNat role slot).caches.get? l' = some cache →
      ∀ b' < cache.numLogicalBlocks,
        TableShows (rt'.updateCache l fun c => c.setCanonical b.toNat role slot) l' cache b' := by
  intro l' cache hc b' hb'
  rw [updateCache_caches, hcaches] at hc
  have hcast : (b.toNat : Int) = b := Int.toNat_of_nonneg h0
  unfold TableShows
  rw [updateCache_canonicalSlots]
  by_cases hll : l' = l
  · subst hll
    rw [if_pos rfl] at hc
    obtain ⟨c, hc', rfl⟩ := Option.map_eq_some_iff.mp hc
    by_cases hbb : b' = b.toNat
    · subst hbb
      rw [hcast]
      simpa [PhysicalKVCache.setCanonical] using hshow
    · have hne : (b' : Int) ≠ b := by omega
      have ho : ∀ k, rt'.canonicalSlots.get? (l', (b' : Int), k) =
          rt.canonicalSlots.get? (l', (b' : Int), k) := fun k => hother l' b' k (.inr hne)
      have := h.tables l' c hc' b' hb'
      simpa [TableShows, PhysicalKVCache.setCanonical, hbb, ho] using this
  · rw [if_neg hll] at hc
    have ho : ∀ k, rt'.canonicalSlots.get? (l', (b' : Int), k) =
        rt.canonicalSlots.get? (l', (b' : Int), k) := fun k => hother l' b' k (.inl hll)
    simp only [ho]
    exact h.tables l' cache hc b' hb'

theorem layout_setCanonical {rt' : PhysicalRuntime Req Layer} (h : PoolInv layouts rt)
    (hcaches : rt'.caches = rt.caches) (l : Layer) (b : Nat) (role slot : Int) (l' : Layer) :
    ((rt'.updateCache l fun c => c.setCanonical b role slot).caches.get? l').map
      PhysicalKVCache.toCacheLayout = layouts l' := by
  rw [← h.layout l', updateCache_caches, hcaches]
  by_cases hll : l' = l
  · subst hll
    cases rt.caches.get? l' <;> simp [PhysicalKVCache.setCanonical]
  · simp [hll]

/-- Taking a slot off the end of a pool and entering it under a new canonical key. -/
theorem withCanonical (h : PoolInv layouts rt) {l : Layer} {b : Int} {k : PageRole}
    {rest : List Nat} {slot : Nat} {cfg : CacheLayout} (hl : layouts l = some cfg) (h0 : 0 ≤ b)
    (hb : b < cfg.numLogicalBlocks) (hn : rt.canonicalSlots.get? (l, b, k) = none)
    (hf : (rt.freeSlots k.raw).get? l = some (rest ++ [slot])) :
    PoolInv layouts ((rt.setFreeSlots k.raw l rest).withCanonical l b k slot) where
  layout l' := layout_setCanonical h (by simp) l _ _ _ l'
  pool := by
    refine h.pool.take hf (fun raw l' => ?_) fun raw l' => ?_
    · rw [PhysicalRuntime.withCanonical, updateCache_freeSlots,
        ← freeSlots_setFreeSlots]
      rfl
    · have hn' : (rt.setFreeSlots k.raw l rest).canonicalSlots.get? (l, b, k) = none := by simpa
      have := held_setCanonical hn' slot raw l'
      rw [held_setFreeSlots] at this
      rw [PhysicalRuntime.withCanonical, held_updateCache]
      exact this
  canonicalKey l' b' k' slot' hk := by
    simp only [PhysicalRuntime.withCanonical, updateCache_canonicalSlots,
      setFreeSlots_canonicalSlots, Dict.get?_set] at hk
    split at hk
    · next he =>
        cases he
        exact ⟨cfg, hl, h0, hb⟩
    · exact h.canonicalKey l' b' k' slot' hk
  overlayKey := by simpa [PhysicalRuntime.withCanonical] using h.overlayKey
  tables := by
    refine tables_setCanonical h h0 (by simp) (fun l' b' k' hne => ?_) (.inr ⟨k, slot, ?_⟩)
    · have : (l', b', k') ≠ (l, b, k) := by
        rintro ⟨⟩
        simp at hne
      simp [this]
    · simp

/-- Taking a raw slot and entering it under a new overlay key. -/
theorem withOverlay (h : PoolInv layouts rt) {key : Layer × Req × Int} {rest : List Nat}
    {slot : Nat} {cfg : CacheLayout} (hl : layouts key.1 = some cfg)
    (hn : rt.overlaySlots.get? key = none)
    (hf : (rt.freeSlots true).get? key.1 = some (rest ++ [slot])) :
    PoolInv layouts ((rt.setFreeSlots true key.1 rest).withOverlay key slot) where
  layout l' := by simpa [PhysicalRuntime.withOverlay] using h.layout l'
  pool := by
    refine h.pool.take hf (fun raw l' => ?_) fun raw l' => ?_
    · rw [← freeSlots_setFreeSlots]
      rfl
    · have hn' : (rt.setFreeSlots true key.1 rest).overlaySlots.get? key = none := by simpa
      have := held_setOverlay hn' slot raw l'
      rwa [held_setFreeSlots] at this
  canonicalKey := by simpa [PhysicalRuntime.withOverlay] using h.canonicalKey
  overlayKey l' q p slot' hk := by
    simp only [PhysicalRuntime.withOverlay, setFreeSlots_overlaySlots,
      Dict.get?_set] at hk
    split at hk
    · next he =>
        cases he
        exact ⟨cfg, hl⟩
    · exact h.overlayKey l' q p slot' hk
  tables := by simpa [PhysicalRuntime.withOverlay, TableShows] using h.tables

end PoolInv

/-! ## Giving a slot back -/

namespace PhysicalRuntime

section Release

variable {layouts : Layer → Option CacheLayout} {rt : PhysicalRuntime Req Layer} {l : Layer}
  {b : Int} {k : PageRole} {slot : Nat}

theorem releaseOverlay_run (h : PoolInv layouts rt) (key : Layer × Req × Int) :
    (releaseOverlay key).run rt = .ok () (rt.releasedOverlay key) := by
  unfold releaseOverlay releasedOverlay
  cases hk : rt.overlaySlots.get? key with
  | none => simp only [run_bind, popOverlaySlot_none hk, run_pure]
  | some slot =>
      obtain ⟨cfg, hl⟩ := h.overlayKey key.1 key.2.1 key.2.2 slot hk
      obtain ⟨free, hf, -⟩ := h.pool key.1 cfg true hl
      have hf' : (({ rt with overlaySlots := rt.overlaySlots.erase key } :
          PhysicalRuntime Req Layer).freeSlots true).get? key.1 = some free := hf
      simp only [run_bind, popOverlaySlot, run_modifyGet, hk,
        pushFreeSlot_run hf', freeList, hf, Option.getD_some]

/-- Popping a held key, giving its slot to its pool and refreshing the tables. -/
theorem freeCanonical_run (h : PoolInv layouts rt)
    (hk : rt.canonicalSlots.get? (l, b, k) = some slot) :
    (do pushFreeSlot l k.raw slot; refreshLogicalDescriptor l b : RuntimeM Req Layer Unit).run
      { rt with canonicalSlots := rt.canonicalSlots.erase (l, b, k) } =
        .ok () (rt.freedCanonical l b k slot) := by
  obtain ⟨cfg, hl, h0, hb⟩ := h.canonicalKey l b k slot hk
  obtain ⟨cache, hc, rfl⟩ := h.cache hl
  obtain ⟨free, hf, -⟩ := h.pool l _ k.raw hl
  have hf' : (({ rt with canonicalSlots := rt.canonicalSlots.erase (l, b, k) } :
      PhysicalRuntime Req Layer).freeSlots k.raw).get? l = some free := hf
  have hc' : (({ rt with canonicalSlots := rt.canonicalSlots.erase (l, b, k) } :
      PhysicalRuntime Req Layer).setFreeSlots k.raw l (free ++ [slot])).caches.get? l =
        some cache := by simpa using hc
  rw [run_bind, pushFreeSlot_run hf']
  dsimp only
  rw [refreshLogicalDescriptor_run hc' h0 hb]
  simp only [freedCanonical, freeList, hf, Option.getD_some]

/-- What `release_descriptor` does with a canonical descriptor of a registered layer. -/
theorem releaseDescriptor_run (h : PoolInv layouts rt) {d : PhysicalPageDescriptor Req Layer}
    {cfg : CacheLayout} (hl : layouts d.layerName = some cfg) (hs : d.storage = .canonical) :
    (releaseDescriptor d).run rt = .ok () (rt.releasedCanonical cfg d) := by
  obtain ⟨cache, hc, rfl⟩ := h.cache hl
  have hs' : ¬ d.storage = .requestOverlay := by simp [hs]
  cases hr : rt.canonicalSlots.get? (d.layerName, d.logicalBlockId, d.role) with
  | some slot =>
      have hrole : rt.releaseRole cache.toCacheLayout d = some d.role := by
        simp [releaseRole, hr]
      rw [releasedCanonical_of_some hrole hr, ← freeCanonical_run h hr]
      simp [releaseDescriptor, hs', popCanonicalSlot_some hr]
  | none =>
      cases hraw : d.role.raw with
      | true =>
          cases hw : rt.canonicalSlots.get?
              (d.layerName, d.logicalBlockId, cache.warmRoleForCache) with
          | some slot =>
              have hrole : rt.releaseRole cache.toCacheLayout d = some cache.warmRoleForCache := by
                simp [releaseRole, hr, hraw, hw]
              rw [releasedCanonical_of_some hrole hw, ← freeCanonical_run h hw]
              simp [releaseDescriptor, hs', popCanonicalSlot_none hr, hraw, hc,
                popCanonicalSlot_some hw]
          | none =>
              have hrole : rt.releaseRole cache.toCacheLayout d = none := by
                simp [releaseRole, hr, hraw, hw]
              simp [releaseDescriptor, hs', popCanonicalSlot_none hr, hraw, hc,
                popCanonicalSlot_none hw, releasedCanonical, hrole]
      | false =>
          cases hw : rt.canonicalSlots.get? (d.layerName, d.logicalBlockId, .hotRaw) with
          | some slot =>
              have hrole : rt.releaseRole cache.toCacheLayout d = some .hotRaw := by
                simp [releaseRole, hr, hraw, hw]
              rw [releasedCanonical_of_some hrole hw, ← freeCanonical_run h hw]
              simp [releaseDescriptor, hs', popCanonicalSlot_none hr, hraw,
                popCanonicalSlot_some hw]
          | none =>
              have hrole : rt.releaseRole cache.toCacheLayout d = none := by
                simp [releaseRole, hr, hraw, hw]
              simp [releaseDescriptor, hs', popCanonicalSlot_none hr, hraw,
                popCanonicalSlot_none hw, releasedCanonical, hrole]

/-- A canonical release in a layer that is not registered changes nothing. -/
theorem releaseDescriptor_unregistered (h : PoolInv layouts rt)
    {d : PhysicalPageDescriptor Req Layer} (hl : layouts d.layerName = none)
    (hs : d.storage = .canonical) : endState ((releaseDescriptor d).run rt) = rt := by
  have hnone : ∀ k, rt.canonicalSlots.get? (d.layerName, d.logicalBlockId, k) = none := by
    intro k
    cases hk : rt.canonicalSlots.get? (d.layerName, d.logicalBlockId, k) with
    | none => rfl
    | some slot =>
        obtain ⟨cfg, hl', -⟩ := h.canonicalKey _ _ _ _ hk
        rw [hl] at hl'
        cases hl'
  have hc : rt.caches.get? d.layerName = none := by
    have := h.layout d.layerName
    rw [hl, Option.map_eq_none_iff] at this
    exact this
  have hs' : ¬ d.storage = .requestOverlay := by simp [hs]
  cases hraw : d.role.raw with
  | true =>
      simp only [releaseDescriptor, hs', if_false, run_bind,
        popCanonicalSlot_none (hnone _), hraw]
      simp [hc]
  | false =>
      simp [releaseDescriptor, hs', popCanonicalSlot_none (hnone _), hraw]

end Release

end PhysicalRuntime

namespace PoolInv

variable {layouts : Layer → Option CacheLayout} {rt : PhysicalRuntime Req Layer}

theorem releasedOverlay (h : PoolInv layouts rt) (key : Layer × Req × Int) :
    PoolInv layouts (rt.releasedOverlay key) := by
  unfold PhysicalRuntime.releasedOverlay
  cases hk : rt.overlaySlots.get? key with
  | none => exact h
  | some slot =>
      obtain ⟨cfg, hl⟩ := h.overlayKey key.1 key.2.1 key.2.2 slot hk
      obtain ⟨free, hf, -⟩ := h.pool key.1 cfg true hl
      refine ⟨fun l' => ?_, ?_, ?_, fun l' q p slot' hk' => ?_, ?_⟩
      · simpa using h.layout l'
      · refine h.pool.give slot hf (fun raw l' => ?_) fun raw l' => ?_
        · simp only [freeSlots_setFreeSlots, freeList, hf,
            Option.getD_some]
          rfl
        · rw [held_setFreeSlots]
          exact held_eraseOverlay hk raw l'
      · simpa using h.canonicalKey
      · simp only [setFreeSlots_overlaySlots, Dict.get?_erase] at hk'
        split at hk'
        · cases hk'
        · exact h.overlayKey l' q p slot' hk'
      · simpa [TableShows] using h.tables

theorem freedCanonical (h : PoolInv layouts rt) {l : Layer} {b : Int} {k : PageRole} {slot : Nat}
    (hk : rt.canonicalSlots.get? (l, b, k) = some slot) :
    PoolInv layouts (rt.freedCanonical l b k slot) := by
  obtain ⟨cfg, hl, h0, hb⟩ := h.canonicalKey l b k slot hk
  obtain ⟨free, hf, -⟩ := h.pool l cfg k.raw hl
  set rt' := ({ rt with canonicalSlots := rt.canonicalSlots.erase (l, b, k) } :
    PhysicalRuntime Req Layer).setFreeSlots k.raw l (rt.freeList k.raw l ++ [slot]) with hrt'
  have hcan : rt'.canonicalSlots = rt.canonicalSlots.erase (l, b, k) := by simp [hrt']
  have hcaches : rt'.caches = rt.caches := by simp [hrt']
  have hpool : PoolsFull layouts rt' := by
    refine h.pool.give slot hf (fun raw l' => ?_) fun raw l' => ?_
    · simp only [hrt', freeSlots_setFreeSlots, freeList, hf,
        Option.getD_some]
      rfl
    · rw [hrt', held_setFreeSlots]
      exact held_eraseCanonical hk raw l'
  have hother : ∀ l' b' k', (l' ≠ l ∨ b' ≠ b) →
      rt'.canonicalSlots.get? (l', b', k') = rt.canonicalSlots.get? (l', b', k') := by
    intro l' b' k' hne
    have : (l', b', k') ≠ (l, b, k) := by
      rintro ⟨⟩
      simp at hne
    rw [hcan, Dict.get?_erase, if_neg this]
  have hkeys : ∀ l' b' k' slot', rt'.canonicalSlots.get? (l', b', k') = some slot' →
      ∃ cfg, layouts l' = some cfg ∧ 0 ≤ b' ∧ b' < cfg.numLogicalBlocks := by
    intro l' b' k' slot' hk'
    rw [hcan, Dict.get?_erase] at hk'
    split at hk'
    · cases hk'
    · exact h.canonicalKey l' b' k' slot' hk'
  have hover : ∀ l' q p slot', rt'.overlaySlots.get? (l', q, p) = some slot' →
      ∃ cfg, layouts l' = some cfg := by simpa [hrt'] using h.overlayKey
  show PoolInv layouts (rt'.refreshed l b)
  unfold PhysicalRuntime.refreshed
  cases hfirst : rt'.firstCanonical l b with
  | none =>
      refine ⟨layout_setCanonical h hcaches l _ _ _, by simpa [PoolsFull] using hpool,
        by simpa using hkeys, by simpa using hover, ?_⟩
      exact tables_setCanonical h h0 hcaches hother
        (.inl ⟨firstCanonical_none hfirst, rfl, rfl⟩)
  | some e =>
      refine ⟨layout_setCanonical h hcaches l _ _ _, by simpa [PoolsFull] using hpool,
        by simpa using hkeys, by simpa using hover, ?_⟩
      exact tables_setCanonical h h0 hcaches hother
        (.inr ⟨e.1, e.2, firstCanonical_some hfirst, rfl, rfl⟩)

theorem releasedCanonical (h : PoolInv layouts rt) (cache : CacheLayout)
    (d : PhysicalPageDescriptor Req Layer) : PoolInv layouts (rt.releasedCanonical cache d) := by
  unfold PhysicalRuntime.releasedCanonical
  cases rt.releaseRole cache d with
  | none => exact h
  | some k =>
      dsimp only
      cases hk : rt.canonicalSlots.get? (d.layerName, d.logicalBlockId, k) with
      | none => exact h
      | some slot => exact h.freedCanonical hk

end PoolInv

/-! ## Applying a descriptor -/

namespace PhysicalRuntime

variable {layouts : Layer → Option CacheLayout} {rt : PhysicalRuntime Req Layer}

theorem PoolInv.acquired (h : PoolInv layouts rt) {l : Layer} {cfg : CacheLayout}
    (hl : layouts l = some cfg) {d : PhysicalPageDescriptor Req Layer} (h0 : 0 ≤ d.logicalBlockId)
    (hb : d.logicalBlockId < cfg.numLogicalBlocks) {slot : Nat} {rt' : PhysicalRuntime Req Layer}
    (ha : Acquired rt l d slot rt') : PoolInv layouts rt' := by
  cases ha with
  | heldCanonical hs hk => exact h
  | freshCanonical hs hk hf => exact h.withCanonical hl h0 hb hk hf
  | heldOverlay hs hk => exact h
  | freshOverlay hs hk hf => exact h.withOverlay hl hk hf

/-- Everything the body of the descriptor loop can do: raise before it touches the pools, find
    them exhausted, raise after it took a slot, or place the page. -/
inductive ApplyOutcome (layouts : Layer → Option CacheLayout) (rt : PhysicalRuntime Req Layer)
    (reqIdToIndex : Dict Req Nat) (totalPages : Int) (d : PhysicalPageDescriptor Req Layer) :
    EStateM.Result (RuntimeError Req Layer) (PhysicalRuntime Req Layer) Unit → Prop where
  | refused {e : RuntimeError Req Layer} (he : e.NotExhausted) :
      ApplyOutcome layouts rt reqIdToIndex totalPages d (.error e rt)
  | exhausted {cfg : CacheLayout} {raw : Bool} (hl : layouts d.layerName = some cfg)
      (hx : Exhausted rt d.layerName (rt.placement cfg d totalPages) raw) :
      ApplyOutcome layouts rt reqIdToIndex totalPages d
        (.error (.poolExhausted raw d.layerName) rt)
  | spoiled {cfg : CacheLayout} {slot : Nat} {rt' : PhysicalRuntime Req Layer}
      {e : RuntimeError Req Layer} (hl : layouts d.layerName = some cfg)
      (h0 : 0 ≤ d.logicalBlockId) (hb : d.logicalBlockId < cfg.numLogicalBlocks)
      (ha : Acquired rt d.layerName (rt.placement cfg d totalPages) slot rt')
      (he : e.NotExhausted) : ApplyOutcome layouts rt reqIdToIndex totalPages d (.error e rt')
  | placed {cfg : CacheLayout} {slot row page : Nat} {rt' : PhysicalRuntime Req Layer}
      (hl : layouts d.layerName = some cfg) (h0 : 0 ≤ d.logicalBlockId)
      (hb : d.logicalBlockId < cfg.numLogicalBlocks)
      (ha : Acquired rt d.layerName (rt.placement cfg d totalPages) slot rt')
      (hr : reqIdToIndex.get? d.requestId = some row) (hrow : row < cfg.spec.tmhMaxNumSeqs)
      (hpage : tensorIndex d.pageIndex cfg.spec.tmhMaxModelPages = some page) :
      ApplyOutcome layouts rt reqIdToIndex totalPages d
        (.ok () (rt'.updateCache d.layerName fun cache =>
          cache.setRow row page slot (rt.placement cfg d totalPages).role))

theorem descriptorSlot_cases (h : PoolInv layouts rt) {l : Layer} {cfg : CacheLayout}
    (hl : layouts l = some cfg) {d : PhysicalPageDescriptor Req Layer} (h0 : 0 ≤ d.logicalBlockId)
    (hb : d.logicalBlockId < cfg.numLogicalBlocks) :
    (∃ slot rt', Acquired rt l d slot rt' ∧ (descriptorSlot l d).run rt = .ok slot rt') ∨
      ∃ raw, Exhausted rt l d raw ∧
        (descriptorSlot l d).run rt = .error (.poolExhausted raw l) rt := by
  obtain ⟨cache, hc, rfl⟩ := h.cache hl
  unfold descriptorSlot
  cases hs : d.storage with
  | requestOverlay =>
      obtain ⟨free, hf, -⟩ := h.pool l _ true hl
      rw [if_pos rfl]
      rcases overlaySlot_cases hf with ⟨slot, hk, hr⟩ | ⟨hk, rfl, hr⟩ | ⟨rest, slot, hk, rfl, hr⟩
      · exact .inl ⟨slot, rt, .heldOverlay hs hk, hr⟩
      · exact .inr ⟨true, .overlay hs hk hf, hr⟩
      · exact .inl ⟨slot, _, .freshOverlay hs hk hf, hr⟩
  | canonical =>
      obtain ⟨free, hf, -⟩ := h.pool l _ d.role.raw hl
      rw [if_neg (by simp)]
      rcases canonicalSlot_cases hc h0 hb hf with
        ⟨slot, hk, hr⟩ | ⟨hk, rfl, hr⟩ | ⟨rest, slot, hk, rfl, hr⟩
      · exact .inl ⟨slot, rt, .heldCanonical hs hk, hr⟩
      · exact .inr ⟨_, .canonical hs hk hf, hr⟩
      · exact .inl ⟨slot, _, .freshCanonical hs hk hf, hr⟩

theorem applyEventDescriptor_cases (h : PoolInv layouts rt) (reqIdToIndex : Dict Req Nat)
    (totalPages : Int) (d : PhysicalPageDescriptor Req Layer) :
    ApplyOutcome layouts rt reqIdToIndex totalPages d
      ((applyEventDescriptor reqIdToIndex totalPages d).run rt) := by
  unfold applyEventDescriptor
  rw [run_bind, run_get]
  dsimp only
  cases hc : rt.caches.get? d.layerName with
  | none => exact .refused (e := .unregisteredLayer _) (by intro _ _; simp)
  | some cache =>
      dsimp only
      have hl := h.layouts_of_cache hc
      cases hr : reqIdToIndex.get? d.requestId with
      | none => exact .refused (e := .missingRow _) (by intro _ _; simp)
      | some row =>
          have hre := rt.placement_reroled cache.toCacheLayout d totalPages
          dsimp only
          unfold applyDescriptor
          rw [run_bind, run_get]
          dsimp only
          rw [show rt.placedDescriptor cache.toCacheLayout d.layerName
            (effectiveDescriptor cache.toCacheLayout d totalPages) =
              rt.placement cache.toCacheLayout d totalPages from rfl]
          split
          · exact .refused (e := .blockOutOfRange _ _) (by intro _ _; simp)
          · next hin =>
              rw [not_or, hre.logicalBlockId] at hin
              have h0 : 0 ≤ d.logicalBlockId := by omega
              have hb : d.logicalBlockId < cache.numLogicalBlocks := by omega
              have h0' := hre.logicalBlockId ▸ h0
              have hb' := hre.logicalBlockId ▸ hb
              rcases descriptorSlot_cases h hl h0' hb' with ⟨slot, rt', ha, hrun⟩ | ⟨raw, hx, hrun⟩
              · have hi := PoolInv.acquired h hl h0' hb' ha
                obtain ⟨cache', hc', hcl⟩ := hi.cache hl
                simp only [run_bind, hrun]
                split
                · exact .spoiled (e := .pageOutOfRange _ _ _) hl h0 hb ha (by intro _ _; simp)
                · rcases writeRow_cases hc' row
                    (rt.placement cache.toCacheLayout d totalPages).pageIndex slot
                    (rt.placement cache.toCacheLayout d totalPages).role with
                    ⟨e, he, hw⟩ | ⟨p, hrow, hp, hw⟩
                  · rw [hw]
                    exact .spoiled hl h0 hb ha he
                  · rw [hw]
                    rw [hcl] at hrow hp
                    rw [hre.pageIndex] at hp
                    exact .placed hl h0 hb ha hr hrow hp
              · simp only [run_bind, hrun]
                exact .exhausted hl hx

/-! ## Every call keeps the pools -/

theorem applyEventDescriptor_keeps (reqIdToIndex : Dict Req Nat) (totalPages : Int)
    (d : PhysicalPageDescriptor Req Layer) :
    Keeps (PoolInv layouts) (applyEventDescriptor reqIdToIndex totalPages d) := by
  intro rt h
  have ho := applyEventDescriptor_cases h reqIdToIndex totalPages d
  generalize (applyEventDescriptor reqIdToIndex totalPages d).run rt = res at ho
  have hre := fun cfg => (rt.placement_reroled cfg d totalPages).logicalBlockId
  cases ho with
  | refused he => exact h
  | exhausted hl hx => exact h
  | spoiled hl h0 hb ha he =>
      exact PoolInv.acquired h hl (by rw [hre]; exact h0) (by rw [hre]; exact hb) ha
  | placed hl h0 hb ha hr hrow hpage =>
      have hi := PoolInv.acquired h hl (by rw [hre]; exact h0) (by rw [hre]; exact hb) ha
      exact hi.updateCache _ (fun _ => rfl) (fun _ => rfl) fun _ => rfl

theorem releaseOverlay_keeps (key : Layer × Req × Int) :
    Keeps (PoolInv layouts) (releaseOverlay key) := by
  intro rt h
  rw [releaseOverlay_run h]
  exact h.releasedOverlay key

theorem releaseRequest_keeps (requestId : Req) :
    Keeps (PoolInv layouts) (releaseRequest requestId) :=
  keeps_bind (fun _ h => h) fun _ => keeps_forM _ releaseOverlay_keeps

theorem releaseDescriptor_keeps (d : PhysicalPageDescriptor Req Layer) :
    Keeps (PoolInv layouts) (releaseDescriptor d) := by
  intro rt h
  cases hs : d.storage with
  | requestOverlay =>
      have : releaseDescriptor d = releaseOverlay (d.layerName, d.requestId, d.pageIndex) := by
        simp [releaseDescriptor, hs]
      rw [this]
      exact releaseOverlay_keeps _ rt h
  | canonical =>
      cases hl : layouts d.layerName with
      | none => rwa [releaseDescriptor_unregistered h hl hs]
      | some cfg =>
          rw [releaseDescriptor_run h hl hs]
          exact h.releasedCanonical cfg d

theorem clearRow_keeps (l : Layer) (row : Nat) :
    Keeps (PoolInv layouts) (clearRow l row : RuntimeM Req Layer Unit) := by
  intro rt h
  unfold clearRow
  rw [run_bind, run_get]
  dsimp only
  cases rt.caches.get? l with
  | none => exact h
  | some cache =>
      dsimp only
      split
      · exact h.updateCache l (fun _ => rfl) (fun _ => rfl) fun _ => rfl
      · exact h

theorem clearRequestRows_keeps (reqIdToIndex : Dict Req Nat)
    (ds : List (PhysicalPageDescriptor Req Layer)) (cleared : List (Layer × Nat)) :
    Keeps (PoolInv layouts) (clearRequestRows reqIdToIndex ds cleared) := by
  induction ds generalizing cleared with
  | nil => exact keeps_pure _
  | cons d ds ih =>
      unfold clearRequestRows
      cases reqIdToIndex.get? d.requestId with
      | none => exact fun _ h => h
      | some row =>
          dsimp only
          split
          · exact ih cleared
          · exact keeps_bind (clearRow_keeps _ _) fun _ => ih _

theorem prepareEvent_keeps (reqIdToIndex : Dict Req Nat) (event : PhysicalEvent Req Layer) :
    Keeps (PoolInv layouts) (prepareEvent reqIdToIndex event) := by
  refine keeps_bind (keeps_forM _ releaseRequest_keeps) fun _ =>
    keeps_bind (keeps_forM _ releaseDescriptor_keeps) fun _ => ?_
  split
  · exact keeps_bind (releaseRequest_keeps _) fun _ => clearRequestRows_keeps _ _ _
  · exact keeps_pure _

theorem applyEvents_keeps (events : List (PhysicalEvent Req Layer)) (reqIdToIndex : Dict Req Nat) :
    Keeps (PoolInv layouts) (applyEvents events reqIdToIndex) :=
  keeps_forM _ fun event =>
    keeps_bind (prepareEvent_keeps _ event) fun _ =>
      keeps_forM _ (applyEventDescriptor_keeps _ _)

/-- A sequence of `apply_events` calls; one that raises leaves its changes behind. -/
def applyCalls (rt : PhysicalRuntime Req Layer) :
    List (List (PhysicalEvent Req Layer) × Dict Req Nat) → PhysicalRuntime Req Layer
  | [] => rt
  | (events, reqIdToIndex) :: calls =>
      applyCalls (endState ((applyEvents events reqIdToIndex).run rt)) calls

theorem applyCalls_keeps (calls : List (List (PhysicalEvent Req Layer) × Dict Req Nat))
    (h : PoolInv layouts rt) : PoolInv layouts (rt.applyCalls calls) := by
  induction calls generalizing rt with
  | nil => exact h
  | cons call calls ih => exact ih (applyEvents_keeps call.1 call.2 rt h)

end PhysicalRuntime

/-! ## Registration -/

/-- Registering new caches, each layer once, starts with every slot free. -/
theorem registerCaches_poolInv (layouts : Dict Layer CacheLayout) :
    PoolInv layouts.get?
      (registerCaches (layouts.mapValues .fresh) : PhysicalRuntime Req Layer) := by
  refine ⟨fun l => ?_, fun l cfg raw hl => ?_, ?_, ?_, fun l cache hc b hb => ?_⟩
  · rw [registerCaches_caches, Dict.get?_mapValues, Option.map_map]
    simp [Function.comp_def, PhysicalKVCache.fresh]
  · refine ⟨(List.range (cfg.pages raw)).reverse, ?_, ?_⟩
    · rw [registerCaches_freeSlots, Dict.get?_mapValues, hl]
      rfl
    · have : (registerCaches (layouts.mapValues .fresh) :
          PhysicalRuntime Req Layer).held raw l = [] := by
        cases raw <;> simp [held, Dict.select, Dict.empty]
      rw [this, List.append_nil]
      exact List.reverse_perm _
  · simp
  · simp
  · rw [registerCaches_caches, Dict.get?_mapValues] at hc
    obtain ⟨cfg, -, rfl⟩ := Option.map_eq_some_iff.mp hc
    exact .inl ⟨by simp, rfl, rfl⟩

/-! ## The theorem -/

/-- Slots held under canonical keys of one pool's roles. -/
def PhysicalRuntime.canonicalHeld (rt : PhysicalRuntime Req Layer) (raw : Bool) (l : Layer) :
    List Nat := rt.canonicalSlots.select fun key => decide (key.1 = l ∧ key.2.2.raw = raw)

/-- Slots held by overlays. -/
def PhysicalRuntime.overlayHeld (rt : PhysicalRuntime Req Layer) (l : Layer) : List Nat :=
  rt.overlaySlots.select fun key => decide (key.1 = l)

/-- A layer's slots are conserved: each pool is its free list and its held slots, without
    duplicates and without gaps, and the canonical tables show one of the pairs (role, slot) of
    each block that has any, and -1 for the others. -/
structure LayerConserved (rt : PhysicalRuntime Req Layer) (l : Layer) (cfg : CacheLayout) :
    Prop where
  raw : ∃ free, rt.rawFreeSlots.get? l = some free ∧
    (free ++ rt.canonicalHeld true l ++ rt.overlayHeld l).Nodup ∧
    ∀ slot, slot ∈ free ++ rt.canonicalHeld true l ++ rt.overlayHeld l ↔ slot < cfg.rawPages
  warm : ∃ free, rt.warmFreeSlots.get? l = some free ∧
    (free ++ rt.canonicalHeld false l).Nodup ∧
    ∀ slot, slot ∈ free ++ rt.canonicalHeld false l ↔ slot < cfg.warmPages
  tables : ∃ cache, rt.caches.get? l = some cache ∧ ∀ b < cfg.numLogicalBlocks,
    (cache.canonicalRoleByLogicalBlock b = -1 ↔
      ∀ k, rt.canonicalSlots.get? (l, (b : Int), k) = none) ∧
    (cache.canonicalSlotByLogicalBlock b = -1 ↔
      ∀ k, rt.canonicalSlots.get? (l, (b : Int), k) = none) ∧
    ((∃ k slot, rt.canonicalSlots.get? (l, (b : Int), k) = some slot) →
      ∃ k slot, rt.canonicalSlots.get? (l, (b : Int), k) = some slot ∧
        cache.canonicalRoleByLogicalBlock b = k.toInt ∧
        cache.canonicalSlotByLogicalBlock b = slot)

theorem PoolInv.layerConserved {layouts : Layer → Option CacheLayout}
    {rt : PhysicalRuntime Req Layer} (h : PoolInv layouts rt) {l : Layer} {cfg : CacheLayout}
    (hl : layouts l = some cfg) : LayerConserved rt l cfg where
  raw := by
    obtain ⟨free, hf, hp⟩ := h.pool l cfg true hl
    rw [held, if_pos rfl, ← List.append_assoc] at hp
    refine ⟨free, hf, hp.nodup_iff.mpr List.nodup_range, fun slot => ?_⟩
    rw [← List.mem_range]
    exact hp.mem_iff
  warm := by
    obtain ⟨free, hf, hp⟩ := h.pool l cfg false hl
    rw [held, if_neg (by simp), List.append_nil] at hp
    refine ⟨free, hf, hp.nodup_iff.mpr List.nodup_range, fun slot => ?_⟩
    rw [← List.mem_range]
    exact hp.mem_iff
  tables := by
    obtain ⟨cache, hc, rfl⟩ := h.cache hl
    refine ⟨cache, hc, fun b hb => ?_⟩
    have ht := h.tables l cache hc b hb
    refine ⟨ht.role_eq_neg_one.1, ht.role_eq_neg_one.2, ?_⟩
    rintro ⟨k, slot, hk⟩
    rcases ht with ⟨hnone, -, -⟩ | hshow
    · rw [hnone k] at hk
      cases hk
    · exact hshow

/-- **Slot conservation.** Register new caches, each layer once, with pools of any sizes, and
    call `apply_events` any number of times with any events and row maps; some of the calls may
    raise. Then the slots of every layer are conserved. -/
theorem slots_conserved (layouts : Dict Layer CacheLayout)
    (calls : List (List (PhysicalEvent Req Layer) × Dict Req Nat)) {l : Layer} {cfg : CacheLayout}
    (hl : layouts.get? l = some cfg) :
    LayerConserved
      ((registerCaches (layouts.mapValues .fresh) : PhysicalRuntime Req Layer).applyCalls calls)
      l cfg :=
  (PhysicalRuntime.applyCalls_keeps calls (registerCaches_poolInv layouts)).layerConserved hl

/-- A layer with four blocks, half of them raw. -/
def fourBlocks : Dict Nat CacheLayout where
  entries := [(0, FullAttentionSpec.layout ⟨1, 50, true, 2, 4⟩ 4)]
  nodup := List.nodup_singleton 0

/-- The first page of request 0, in block 2. -/
def firstPageEvent : PhysicalEvent Nat Nat where
  requestId := 0
  descriptors := [⟨0, 0, 2, 0, .pinnedRaw, .canonical, false, .raw, .raw⟩]
  totalPages := 1
  recentStartPage := 0
  hotPages := 1

/-- The page is placed in row 0; a second call finds no row for the request and raises. -/
theorem slots_conserved_fourBlocks :
    let rt := (registerCaches (fourBlocks.mapValues .fresh) : PhysicalRuntime Nat Nat).applyCalls
      [([firstPageEvent], ⟨[(0, 0)], List.nodup_singleton 0⟩), ([firstPageEvent], .empty)]
    rt.canonicalSlots.get? (0, 2, .pinnedRaw) = some 0 ∧
      LayerConserved rt 0 (FullAttentionSpec.layout ⟨1, 50, true, 2, 4⟩ 4) :=
  ⟨by decide +kernel, slots_conserved fourBlocks _ rfl⟩

end Sock.Tmh
