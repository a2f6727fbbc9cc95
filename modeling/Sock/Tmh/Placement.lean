/-
  Where the TMH runtime places a page.

  Between the policy's descriptor and the slot stand four decisions: raw capacity
  (`effectiveDescriptor`), promotion, and the two demotions. Each of them keeps the page and
  changes the role only (`placement_reroled`).

  * `placement_role`: the policy's role, `HOT_RAW` instead of a warm role, or the cache's warm
    role.
  * `rawFree_of_overlay`, `rawFree_of_raw`, `not_rawFree_of_warm`: a page that is placed raw and
    needs a slot finds one; a page is placed warm only when no raw slot is free.
-/
import Sock.Tmh.Physical

namespace Sock.Tmh

open Lib

variable {Req Layer : Type}

/-- `e` is `d`, or `d` with another role and what follows from it. -/
def Reroled (d e : PhysicalPageDescriptor Req Layer) : Prop :=
  e = d ∨ ∃ k, e = descriptorWithRole d k

namespace Reroled

variable {d e e' : PhysicalPageDescriptor Req Layer}

theorem trans (h : Reroled d e) (h' : Reroled e e') : Reroled d e' := by
  rcases h' with rfl | ⟨k, rfl⟩
  · exact h
  · rcases h with rfl | ⟨k', rfl⟩
    · exact .inr ⟨k, rfl⟩
    · exact .inr ⟨k, rfl⟩

theorem requestId (h : Reroled d e) : e.requestId = d.requestId := by
  rcases h with rfl | ⟨k, rfl⟩ <;> rfl

theorem logicalBlockId (h : Reroled d e) : e.logicalBlockId = d.logicalBlockId := by
  rcases h with rfl | ⟨k, rfl⟩ <;> rfl

theorem pageIndex (h : Reroled d e) : e.pageIndex = d.pageIndex := by
  rcases h with rfl | ⟨k, rfl⟩ <;> rfl

theorem prefixCached (h : Reroled d e) : e.prefixCached = d.prefixCached := by
  rcases h with rfl | ⟨k, rfl⟩ <;> rfl

/-- A descriptor whose storage follows from its role keeps that property. -/
theorem storage (h : Reroled d e) (hd : d.storage = storageKindForRole d.role d.prefixCached) :
    e.storage = storageKindForRole e.role e.prefixCached := by
  rcases h with rfl | ⟨k, rfl⟩
  · exact hd
  · rfl

end Reroled

theorem effectiveDescriptor_reroled (cache : CacheLayout) (d : PhysicalPageDescriptor Req Layer)
    (totalPages : Int) : Reroled d (effectiveDescriptor cache d totalPages) := by
  unfold effectiveDescriptor
  generalize (if d.pageIndex = 0 then PageRole.pinnedRaw else .hotRaw) = role
  dsimp only
  split
  · exact .inl rfl
  · split
    · exact .inl rfl
    · exact .inr ⟨_, rfl⟩

namespace PhysicalRuntime

variable [DecidableEq Layer] (rt : PhysicalRuntime Req Layer) (cache : CacheLayout) (l : Layer)
  (d : PhysicalPageDescriptor Req Layer)

theorem promoteToRawWhenAvailable_reroled : Reroled d (rt.promoteToRawWhenAvailable l d) := by
  unfold promoteToRawWhenAvailable
  split
  · exact .inl rfl
  · split
    · exact .inl rfl
    · exact .inr ⟨_, rfl⟩

theorem demoteOverlayToWarmWhenRawExhausted_reroled :
    Reroled d (rt.demoteOverlayToWarmWhenRawExhausted cache l d) := by
  unfold demoteOverlayToWarmWhenRawExhausted
  split
  · exact .inl rfl
  · split
    · exact .inl rfl
    · exact .inr ⟨_, rfl⟩

theorem demoteCanonicalToWarmWhenRawExhausted_reroled :
    Reroled d (rt.demoteCanonicalToWarmWhenRawExhausted cache l d) := by
  unfold demoteCanonicalToWarmWhenRawExhausted
  split
  · exact .inl rfl
  · split
    · exact .inl rfl
    · split
      · exact .inl rfl
      · split
        · exact .inl rfl
        · exact .inr ⟨_, rfl⟩

/-- The descriptor that is placed for an event's descriptor. -/
def placement (totalPages : Int) : PhysicalPageDescriptor Req Layer :=
  rt.placedDescriptor cache d.layerName (effectiveDescriptor cache d totalPages)

/-- Placing changes the role of a descriptor and what follows from it, nothing else. -/
theorem placement_reroled (totalPages : Int) : Reroled d (rt.placement cache d totalPages) :=
  (effectiveDescriptor_reroled cache d totalPages).trans <|
    (rt.promoteToRawWhenAvailable_reroled d.layerName _).trans <|
      (rt.demoteOverlayToWarmWhenRawExhausted_reroled cache d.layerName _).trans <|
        rt.demoteCanonicalToWarmWhenRawExhausted_reroled cache d.layerName _

/-! ## Free raw slots -/

omit [DecidableEq Layer] in
theorem descriptorWithRole_warm_storage (d : PhysicalPageDescriptor Req Layer) :
    (descriptorWithRole d cache.warmRoleForCache).storage = .canonical := by
  unfold descriptorWithRole CacheLayout.warmRoleForCache
  split <;> rfl

variable {rt cache l d}

/-- A page that stays in an overlay finds a free raw slot. -/
theorem rawFree_of_overlay (h : (rt.placedDescriptor cache l d).storage = .requestOverlay) :
    rt.rawFree l = true := by
  unfold placedDescriptor demoteCanonicalToWarmWhenRawExhausted at h
  dsimp only at h
  have hover : (rt.demoteOverlayToWarmWhenRawExhausted cache l
      (rt.promoteToRawWhenAvailable l d)).storage = .requestOverlay := by
    split at h
    · exact h
    · split at h
      · exact h
      · split at h
        · exact h
        · split at h
          · exact h
          · rw [descriptorWithRole_warm_storage] at h
            cases h
  unfold demoteOverlayToWarmWhenRawExhausted at hover
  split at hover
  · next hne => exact absurd hover hne
  · split at hover
    · assumption
    · rw [descriptorWithRole_warm_storage] at hover
      cases hover

/-- A canonical page that stays raw is held already or finds a free raw slot. -/
theorem rawFree_of_raw (h : (rt.placedDescriptor cache l d).storage = .canonical)
    (hraw : (rt.placedDescriptor cache l d).role.raw = true)
    (hk : rt.canonicalSlots.get? (l, (rt.placedDescriptor cache l d).logicalBlockId,
      (rt.placedDescriptor cache l d).role) = none) : rt.rawFree l = true := by
  unfold placedDescriptor at h hraw hk
  dsimp only at h hraw hk
  generalize rt.demoteOverlayToWarmWhenRawExhausted cache l (rt.promoteToRawWhenAvailable l d) = e
    at h hraw hk
  unfold demoteCanonicalToWarmWhenRawExhausted at h hraw hk
  split at h
  · next hne => exact absurd h hne
  · next hc =>
      rw [if_neg hc] at hraw hk
      split at hraw
      · next hw => exact absurd hraw hw
      · next hr =>
          rw [if_neg hr] at hk
          split at hraw
          · next hheld =>
              rw [if_pos hheld] at hk
              rw [hk] at hheld
              cases hheld
          · split at hraw
            · assumption
            · rw [descriptorWithRole, CacheLayout.warmRoleForCache_raw] at hraw
              cases hraw

/-- A page is placed warm only when no raw slot is free. -/
theorem not_rawFree_of_warm (h : (rt.placedDescriptor cache l d).role.raw = false) :
    rt.rawFree l = false := by
  by_contra hfree
  rw [Bool.not_eq_false] at hfree
  -- with a free raw slot promotion makes the page raw, and no demotion applies
  have hpromote : (rt.promoteToRawWhenAvailable l d).role.raw = true := by
    unfold promoteToRawWhenAvailable
    split
    · assumption
    · rfl
  have hsame : rt.placedDescriptor cache l d = rt.promoteToRawWhenAvailable l d := by
    unfold placedDescriptor demoteCanonicalToWarmWhenRawExhausted
      demoteOverlayToWarmWhenRawExhausted
    simp [hfree]
  rw [hsame, hpromote] at h
  cases h

/-- A raw page with a raw slot in sight is placed as it is. -/
theorem placedDescriptor_of_raw (hraw : d.role.raw = true) (h : rt.rawFree l = true ∨
      d.storage = .canonical ∧ (rt.canonicalSlots.get? (l, d.logicalBlockId, d.role)).isSome) :
    rt.placedDescriptor cache l d = d := by
  unfold placedDescriptor promoteToRawWhenAvailable demoteOverlayToWarmWhenRawExhausted
    demoteCanonicalToWarmWhenRawExhausted
  rcases h with h | ⟨hs, h⟩
  · simp [hraw, h]
  · simp [hraw, hs, h]

/-- A warm page without a free raw slot is placed warm. -/
theorem placedDescriptor_of_warm (hwarm : d.role.raw = false) (h : rt.rawFree l = false) :
    (rt.placedDescriptor cache l d).role.raw = false := by
  have hpromote : rt.promoteToRawWhenAvailable l d = d := by
    unfold promoteToRawWhenAvailable
    simp [hwarm, h]
  have hover : (rt.demoteOverlayToWarmWhenRawExhausted cache l d).role.raw = false := by
    unfold demoteOverlayToWarmWhenRawExhausted
    split
    · exact hwarm
    · rw [if_neg (by simp [h])]
      exact cache.warmRoleForCache_raw
  have hcanonical : ∀ e : PhysicalPageDescriptor Req Layer, e.role.raw = false →
      rt.demoteCanonicalToWarmWhenRawExhausted cache l e = e := by
    intro e he
    unfold demoteCanonicalToWarmWhenRawExhausted
    simp [he]
  unfold placedDescriptor
  dsimp only
  rw [hpromote, hcanonical _ hover, hover]

/-! ## Roles -/

omit [DecidableEq Layer] in
/-- Raw capacity makes every page of a request raw. -/
theorem effectiveDescriptor_raw (totalPages : Int) :
    (effectiveDescriptor cache d totalPages).role.raw =
      (decide (totalPages ≤ cache.rawCapacityPagesPerRequest) || d.role.raw) := by
  unfold effectiveDescriptor
  split
  · next h => rw [decide_eq_false (by omega), Bool.false_or]
  · next h =>
      rw [decide_eq_true (by omega), Bool.true_or]
      dsimp only
      have hrole : (if d.pageIndex = 0 then PageRole.pinnedRaw else .hotRaw).raw = true := by
        split <;> rfl
      generalize (if d.pageIndex = 0 then PageRole.pinnedRaw else .hotRaw) = role at hrole ⊢
      split
      · next he => rw [he, hrole]
      · exact hrole

omit [DecidableEq Layer] in
/-- Raw capacity makes a warm page hot, and changes no other role. -/
theorem effectiveDescriptor_role (hpin : d.role = .pinnedRaw ↔ d.pageIndex = 0)
    (totalPages : Int) :
    (effectiveDescriptor cache d totalPages).role = d.role ∨
      (d.role.raw = false ∧ (effectiveDescriptor cache d totalPages).role = .hotRaw) := by
  unfold effectiveDescriptor
  split
  · exact .inl rfl
  · dsimp only
    split
    · next h0 =>
        rw [if_pos (hpin.mpr h0)]
        exact .inl rfl
    · next h0 =>
        split
        · exact .inl rfl
        · next hne =>
            refine .inr ⟨?_, rfl⟩
            cases hrole : d.role with
            | pinnedRaw => exact absurd (hpin.mp hrole) h0
            | hotRaw => exact absurd hrole hne
            | warmInt8Int4 => rfl
            | warmInt8Int8 => rfl

theorem placedDescriptor_role :
    (rt.placedDescriptor cache l d).role = d.role ∨
      (d.role.raw = false ∧ (rt.placedDescriptor cache l d).role = .hotRaw) ∨
      (rt.placedDescriptor cache l d).role = cache.warmRoleForCache := by
  have hpromote : (rt.promoteToRawWhenAvailable l d).role = d.role ∨
      (d.role.raw = false ∧ (rt.promoteToRawWhenAvailable l d).role = .hotRaw) := by
    unfold promoteToRawWhenAvailable
    split
    · exact .inl rfl
    · next hw =>
        split
        · exact .inl rfl
        · exact .inr ⟨by simpa using hw, rfl⟩
  have hover : ∀ e : PhysicalPageDescriptor Req Layer,
      (rt.demoteOverlayToWarmWhenRawExhausted cache l e).role = e.role ∨
        (rt.demoteOverlayToWarmWhenRawExhausted cache l e).role = cache.warmRoleForCache := by
    intro e
    unfold demoteOverlayToWarmWhenRawExhausted
    split
    · exact .inl rfl
    · split
      · exact .inl rfl
      · exact .inr rfl
  have hcan : ∀ e : PhysicalPageDescriptor Req Layer,
      (rt.demoteCanonicalToWarmWhenRawExhausted cache l e).role = e.role ∨
        (rt.demoteCanonicalToWarmWhenRawExhausted cache l e).role = cache.warmRoleForCache := by
    intro e
    unfold demoteCanonicalToWarmWhenRawExhausted
    split
    · exact .inl rfl
    · split
      · exact .inl rfl
      · split
        · exact .inl rfl
        · split
          · exact .inl rfl
          · exact .inr rfl
  unfold placedDescriptor
  rcases hcan (rt.demoteOverlayToWarmWhenRawExhausted cache l (rt.promoteToRawWhenAvailable l d))
    with h | h
  · rcases hover (rt.promoteToRawWhenAvailable l d) with h' | h'
    · rcases hpromote with hp | ⟨hw, hp⟩
      · exact .inl (h.trans (h'.trans hp))
      · exact .inr (.inl ⟨hw, h.trans (h'.trans hp)⟩)
    · exact .inr (.inr (h.trans h'))
  · exact .inr (.inr h)

/-- The role a page is placed with: the policy's, hot instead of warm, or the cache's warm
    role. -/
theorem placement_role (hpin : d.role = .pinnedRaw ↔ d.pageIndex = 0) (totalPages : Int) :
    (rt.placement cache d totalPages).role = d.role ∨
      (d.role.raw = false ∧ (rt.placement cache d totalPages).role = .hotRaw) ∨
      (rt.placement cache d totalPages).role = cache.warmRoleForCache := by
  have heff : (effectiveDescriptor cache d totalPages).role = d.role ∨ _ :=
    effectiveDescriptor_role hpin totalPages
  have hplaced : (rt.placement cache d totalPages).role = _ ∨ _ ∨ _ := placedDescriptor_role
  rcases heff with he | ⟨hw, he⟩
  · rwa [he] at hplaced
  · rcases hplaced with h | ⟨-, h⟩ | h
    · exact .inr (.inl ⟨hw, h.trans he⟩)
    · exact .inr (.inl ⟨hw, h⟩)
    · exact .inr (.inr h)

end PhysicalRuntime

end Sock.Tmh
