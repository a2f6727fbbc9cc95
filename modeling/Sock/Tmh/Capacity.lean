/-
  The pools are large enough, along runs.

  The two pools of a layer have together one slot for each logical block. So no application
  finds its pool empty as long as every held slot is held for a live block and no block holds
  two slots. A block holds two when a page takes a fresh slot although one is held for its block
  already: canonically under another role, or in an overlay (`pool_not_exhausted_fails`). Without
  prefix caching and sharing this cannot happen, provided that policy and cache agree on each
  layer's warm role (`one_slot_per_block`); otherwise a page placed with the cache's warm role is
  not found by the release of its descriptor (`one_slot_per_block_fails`).

  * `OneHolder`: every held slot has its own live block.
  * `OneHolder.not_exhausted`: then a page whose block holds no slot finds one.
  * `pool_not_exhausted`: runs in which fresh slots are taken for blocks that hold none.
  * `one_slot_per_block`: runs without sharing.
-/
import Mathlib.Data.List.Dedup
import Sock.Tmh.Reclaim

namespace Sock.Tmh

open Lib Lib.Dict Lib.Fallible Lib.RefCount PhysicalRuntime

variable {Req Layer : Type}

/-- The distinct logical blocks of the tracked pages. -/
def liveBlocks (ledger : Ledger Req Layer) : List Int :=
  (ledger.values.map PhysicalPageDescriptor.logicalBlockId).dedup

variable [DecidableEq Req] [DecidableEq Layer]

/-- Every held slot is held for a live block, and no two for one block of a layer. -/
structure OneHolder (D : Deployment Layer) (ledger : Ledger Req Layer)
    (rt : PhysicalRuntime Req Layer) : Prop extends Reclaimable D ledger rt where
  overlayPage : ∀ l q p slot, rt.overlaySlots.get? (l, q, p) = some slot →
    ∃ d, ledger.get? (q, l, p) = some d
  overlayAlone : ∀ l q p slot d k, rt.overlaySlots.get? (l, q, p) = some slot →
    ledger.get? (q, l, p) = some d → rt.canonicalSlots.get? (l, d.logicalBlockId, k) = none
  overlayUnique : ∀ l q q' p p' slot slot' d d', rt.overlaySlots.get? (l, q, p) = some slot →
    rt.overlaySlots.get? (l, q', p') = some slot' → ledger.get? (q, l, p) = some d →
    ledger.get? (q', l, p') = some d' → d.logicalBlockId = d'.logicalBlockId → q = q' ∧ p = p'

/-! ## Counting -/

section Counting

variable {D : Deployment Layer} {ledger : Ledger Req Layer} {rt : PhysicalRuntime Req Layer}
  {l : Layer}

/-- The canonical keys of a layer. -/
def layerCanonical (rt : PhysicalRuntime Req Layer) (l : Layer) : List (Layer × Int × PageRole) :=
  rt.canonicalSlots.keys.filter fun key => decide (key.1 = l)

/-- The overlay keys of a layer. -/
def layerOverlays (rt : PhysicalRuntime Req Layer) (l : Layer) : List (Layer × Req × Int) :=
  rt.overlaySlots.keys.filter fun key => decide (key.1 = l)

/-- The block of the page that an overlay is for. -/
def overlayBlock (ledger : Ledger Req Layer) (key : Layer × Req × Int) : Int :=
  ((ledger.get? (key.2.1, key.1, key.2.2)).map PhysicalPageDescriptor.logicalBlockId).getD 0

/-- The blocks for which a layer holds slots, one for each slot. -/
def heldBlocks (ledger : Ledger Req Layer) (rt : PhysicalRuntime Req Layer) (l : Layer) :
    List Int :=
  (layerCanonical rt l).map (fun key => key.2.1) ++ (layerOverlays rt l).map (overlayBlock ledger)

omit [DecidableEq Req] in
theorem length_held (rt : PhysicalRuntime Req Layer) (l : Layer) :
    (rt.held true l).length + (rt.held false l).length =
      (layerCanonical rt l).length + (layerOverlays rt l).length := by
  have hsplit := List.length_eq_length_filter_add
    (l := layerCanonical rt l) (fun key => key.2.2.raw)
  simp only [layerCanonical, List.filter_filter] at hsplit
  have h1 : (rt.held true l).length = (rt.canonicalSlots.keys.filter fun key =>
      key.2.2.raw && decide (key.1 = l)).length + (layerOverlays rt l).length := by
    rw [held, if_pos rfl, List.length_append, length_select, length_select,
      layerOverlays]
    congr 3
    funext key
    rw [Bool.decide_and, Bool.and_comm, Bool.decide_eq_true]
  have h2 : (rt.held false l).length = (rt.canonicalSlots.keys.filter fun key =>
      !key.2.2.raw && decide (key.1 = l)).length := by
    rw [held, if_neg (by simp), List.append_nil, length_select]
    congr 2
    funext key
    rw [Bool.decide_and, Bool.and_comm, Bool.decide_eq_false]
  rw [layerCanonical]
  omega

omit [DecidableEq Req] in
theorem mem_layerCanonical {key : Layer × Int × PageRole} (h : key ∈ layerCanonical rt l) :
    key.1 = l ∧ ∃ slot, rt.canonicalSlots.get? (l, key.2.1, key.2.2) = some slot := by
  obtain ⟨hm, hl⟩ := List.mem_filter.mp h
  obtain ⟨slot, hs⟩ := mem_keys.mp hm
  have hl := of_decide_eq_true hl
  exact ⟨hl, slot, hl ▸ hs⟩

/-- An overlay key of the layer, with its page. -/
theorem OneHolder.mem_layerOverlays (h : OneHolder D ledger rt) {key : Layer × Req × Int}
    (hk : key ∈ layerOverlays rt l) : key.1 = l ∧ ∃ slot d,
      rt.overlaySlots.get? (l, key.2.1, key.2.2) = some slot ∧
      ledger.get? (key.2.1, l, key.2.2) = some d ∧ overlayBlock ledger key = d.logicalBlockId := by
  obtain ⟨hm, hl⟩ := List.mem_filter.mp hk
  obtain ⟨slot, hs⟩ := mem_keys.mp hm
  have hl := of_decide_eq_true hl
  rw [← hl]
  obtain ⟨d, hd⟩ := h.overlayPage _ _ _ _ hs
  refine ⟨rfl, slot, d, hs, hd, ?_⟩
  rw [overlayBlock, hd]
  rfl

theorem OneHolder.heldBlocks_nodup (h : OneHolder D ledger rt) :
    (heldBlocks ledger rt l).Nodup := by
  refine List.Nodup.append ?_ ?_ ?_
  · refine List.Nodup.map_on ?_ (rt.canonicalSlots.nodup.filter _)
    rintro ⟨l₁, b, k⟩ hk ⟨l₂, b', k'⟩ hk' heq
    obtain ⟨h₁, slot, hs⟩ := mem_layerCanonical hk
    obtain ⟨h₂, slot', hs'⟩ := mem_layerCanonical hk'
    dsimp only at h₁ h₂ heq hs hs'
    rw [← heq] at hs'
    rw [h₁, h₂, ← heq, h.unique l b k k' slot slot' hs hs']
  · refine List.Nodup.map_on ?_ (rt.overlaySlots.nodup.filter _)
    rintro ⟨l₁, q, p⟩ hk ⟨l₂, q', p'⟩ hk' heq
    obtain ⟨h₁, slot, d, hs, hd, hb⟩ := h.mem_layerOverlays hk
    obtain ⟨h₂, slot', d', hs', hd', hb'⟩ := h.mem_layerOverlays hk'
    rw [hb, hb'] at heq
    obtain ⟨hq, hp⟩ := h.overlayUnique l q q' p p' slot slot' d d' hs hs' hd hd' heq
    dsimp only at h₁ h₂
    rw [h₁, h₂, hq, hp]
  · rw [List.disjoint_left]
    intro b hb hb'
    obtain ⟨key, hk, rfl⟩ := List.mem_map.mp hb
    obtain ⟨key', hk', he⟩ := List.mem_map.mp hb'
    obtain ⟨-, slot, hs⟩ := mem_layerCanonical hk
    obtain ⟨-, slot', d, hs', hd, hb⟩ := h.mem_layerOverlays hk'
    have hnone := h.overlayAlone l _ _ slot' d key.2.2 hs' hd
    rw [← hb, he, hs] at hnone
    cases hnone

theorem length_heldBlocks (ledger : Ledger Req Layer) (rt : PhysicalRuntime Req Layer)
    (l : Layer) : (heldBlocks ledger rt l).length =
      (rt.held true l).length + (rt.held false l).length := by
  rw [length_held, heldBlocks, List.length_append, List.length_map, List.length_map]

/-- A held block has a canonical slot, or an overlay for a page on it. -/
theorem OneHolder.heldBlocks_cases (h : OneHolder D ledger rt) {b : Int}
    (hb : b ∈ heldBlocks ledger rt l) :
    (∃ k slot, rt.canonicalSlots.get? (l, b, k) = some slot) ∨
      ∃ q p slot d, rt.overlaySlots.get? (l, q, p) = some slot ∧
        ledger.get? (q, l, p) = some d ∧ d.logicalBlockId = b := by
  rcases List.mem_append.mp hb with hb | hb
  · obtain ⟨key, hk, rfl⟩ := List.mem_map.mp hb
    obtain ⟨-, slot, hs⟩ := mem_layerCanonical hk
    exact .inl ⟨key.2.2, slot, hs⟩
  · obtain ⟨key, hk, rfl⟩ := List.mem_map.mp hb
    obtain ⟨-, slot, d, hs, hd, hblock⟩ := h.mem_layerOverlays hk
    exact .inr ⟨key.2.1, key.2.2, slot, d, hs, hd, hblock.symm⟩

theorem mem_liveBlocks {key : Req × Layer × Int} {d : PhysicalPageDescriptor Req Layer}
    (hd : ledger.get? key = some d) : d.logicalBlockId ∈ liveBlocks ledger := by
  rw [liveBlocks, List.mem_dedup]
  exact List.mem_map_of_mem (mem_values.mpr ⟨key, hd⟩)

/-- Held blocks are live. -/
theorem OneHolder.heldBlocks_live (h : OneHolder D ledger rt) {b : Int}
    (hb : b ∈ heldBlocks ledger rt l) : b ∈ liveBlocks ledger := by
  rcases h.heldBlocks_cases hb with ⟨k, slot, hs⟩ | ⟨q, p, slot, d, -, hd, rfl⟩
  · obtain ⟨key, d, hd, -, -, rfl, -⟩ := h.support _ _ _ _ hs
    exact mem_liveBlocks hd
  · exact mem_liveBlocks hd

/-- Among blocks that include those held, one that is not held makes one more. -/
theorem OneHolder.length_heldBlocks_lt (h : OneHolder D ledger rt) {blocks : List Int}
    (hblocks : heldBlocks ledger rt l ⊆ blocks) {b : Int} (hb : b ∈ blocks)
    (hnew : b ∉ heldBlocks ledger rt l) : (heldBlocks ledger rt l).length < blocks.length :=
  (List.subperm_of_subset (List.nodup_cons.mpr ⟨hnew, h.heldBlocks_nodup⟩)
    (List.cons_subset.mpr ⟨hb, hblocks⟩)).length_le

/-- Of an empty pool all slots are held. -/
theorem length_held_of_empty (hinv : PoolInv D.layouts.get? rt) (hl : l ∈ D.policy.layerNames)
    (raw : Bool) (hf : (rt.freeSlots raw).get? l = some []) :
    (rt.held raw l).length = (D.layout l).pages raw := by
  obtain ⟨free, hf', hp⟩ := hinv.pool l _ raw (D.layouts_get? hl)
  rw [hf'] at hf
  cases hf
  simpa using hp.length_eq

/-- No overlay of the layer is for a page on the block. -/
def NoOverlay (ledger : Ledger Req Layer) (rt : PhysicalRuntime Req Layer) (l : Layer) (b : Int) :
    Prop :=
  ∀ key ∈ rt.overlaySlots.keys, key.1 = l →
    ∀ d ∈ ledger.get? (key.2.1, l, key.2.2), d.logicalBlockId ≠ b

instance (ledger : Ledger Req Layer) (rt : PhysicalRuntime Req Layer) (l : Layer) (b : Int) :
    Decidable (NoOverlay ledger rt l b) :=
  inferInstanceAs (Decidable (∀ key ∈ rt.overlaySlots.keys, _ → _))

/-- **Counting.** With both pools of a layer empty, all slots are held, each for its own live
    block; a live block without a slot makes one too many. -/
theorem OneHolder.not_exhausted (h : OneHolder D ledger rt) (hinv : PoolInv D.layouts.get? rt)
    (hl : l ∈ D.policy.layerNames) (hraw : rt.rawFreeSlots.get? l = some [])
    (hwarm : rt.warmFreeSlots.get? l = some []) {key : Req × Layer × Int}
    {d : PhysicalPageDescriptor Req Layer} (hd : ledger.get? key = some d)
    (hcan : NoCanonical rt l d.logicalBlockId) (hover : NoOverlay ledger rt l d.logicalBlockId)
    (hlive : (liveBlocks ledger).length ≤ D.numLogicalBlocks) : False := by
  have hlen : (heldBlocks ledger rt l).length = D.numLogicalBlocks := by
    have hadd := (D.specs l).physicalPoolPageCounts_add D.numLogicalBlocks .exact
    rw [length_heldBlocks, length_held_of_empty hinv hl true hraw,
      length_held_of_empty hinv hl false hwarm]
    exact hadd
  have hnew : d.logicalBlockId ∉ heldBlocks ledger rt l := by
    intro hm
    rcases h.heldBlocks_cases hm with ⟨k, slot, hs⟩ | ⟨q, p, slot, d', hs, hd', hb⟩
    · rw [hcan.get?] at hs
      cases hs
    · exact hover (l, q, p) (mem_keys.mpr ⟨slot, hs⟩) rfl d' hd' hb
  have hlt := h.length_heldBlocks_lt (fun _ hb => h.heldBlocks_live hb) (mem_liveBlocks hd) hnew
  omega

end Counting

/-! ## Applications that find a slot -/

/-- The page needs a slot: the key it is placed under holds none. -/
def Site.Fresh (D : Deployment Layer) (site : Site Req Layer) : Prop :=
  let d := site.descriptor
  ((site.placed D).storage = .canonical →
    site.runtime.canonicalSlots.get? (d.layerName, d.logicalBlockId, (site.placed D).role) = none) ∧
  ((site.placed D).storage = .requestOverlay →
    site.runtime.overlaySlots.get? (d.layerName, d.requestId, d.pageIndex) = none)

instance (D : Deployment Layer) (site : Site Req Layer) : Decidable (site.Fresh D) :=
  inferInstanceAs (Decidable ((_ → _) ∧ (_ → _)))

/-- The page reclaims its slot, and takes a fresh one only if none of the layer is held for its
    block. -/
def Site.FirstHolder (D : Deployment Layer) (site : Site Req Layer) : Prop :=
  site.Reclaims D ∧ (site.Fresh D →
    NoCanonical site.runtime site.descriptor.layerName site.descriptor.logicalBlockId ∧
      NoOverlay site.ledger site.runtime site.descriptor.layerName site.descriptor.logicalBlockId)

instance (D : Deployment Layer) (site : Site Req Layer) : Decidable (site.FirstHolder D) :=
  inferInstanceAs (Decidable (_ ∧ (_ → _ ∧ _)))

section Ticks

variable {D : Deployment Layer} {ledger ledger' : Ledger Req Layer}
  {rt rt' : PhysicalRuntime Req Layer}

theorem OneHolder.freed (h : OneHolder D ledger rt) (hl : LedgerInv D.policy ledger) {q : Req}
    {released : List (PhysicalPageDescriptor Req Layer)}
    (hr : ReleaseSpec ledger ledger' released) (hf : Freed D.layouts.get? rt q released rt')
    (hother : ∀ q', q' ≠ q → ∀ l p, ledger'.get? (q', l, p) = ledger.get? (q', l, p)) :
    OneHolder D ledger' rt' := by
  -- an overlay that is left is another request's, and its page is tracked as before
  have hover : ∀ l q' p slot, rt'.overlaySlots.get? (l, q', p) = some slot →
      rt.overlaySlots.get? (l, q', p) = some slot ∧
        ledger'.get? (q', l, p) = ledger.get? (q', l, p) := by
    intro l q' p slot ho
    rw [hf.overlay] at ho
    split at ho
    · cases ho
    · next hne => exact ⟨ho, hother q' hne l p⟩
  refine ⟨h.toReclaimable.freed hl hr hf hother, fun l q' p slot ho => ?_,
    fun l q' p slot d k ho hd => ?_, fun l q₁ q₂ p₁ p₂ s₁ s₂ d₁ d₂ ho₁ ho₂ hd₁ hd₂ hb => ?_⟩
  · obtain ⟨ho, heq⟩ := hover l q' p slot ho
    rw [heq]
    exact h.overlayPage l q' p slot ho
  · obtain ⟨ho, heq⟩ := hover l q' p slot ho
    rw [heq] at hd
    cases hk : rt'.canonicalSlots.get? (l, d.logicalBlockId, k) with
    | none => rfl
    | some s =>
        have hold := hf.sub _ _ hk
        rw [h.overlayAlone l q' p slot d k ho hd] at hold
        cases hold
  · obtain ⟨ho₁, heq₁⟩ := hover l q₁ p₁ s₁ ho₁
    obtain ⟨ho₂, heq₂⟩ := hover l q₂ p₂ s₂ ho₂
    rw [heq₁] at hd₁
    rw [heq₂] at hd₂
    exact h.overlayUnique l q₁ q₂ p₁ p₂ s₁ s₂ d₁ d₂ ho₁ ho₂ hd₁ hd₂ hb

theorem NoOverlay.ne {l : Layer} {b : Int} (h : NoOverlay ledger rt l b) {q : Req} {p : Int}
    {slot : Nat} {d : PhysicalPageDescriptor Req Layer}
    (ho : rt.overlaySlots.get? (l, q, p) = some slot) (hd : ledger.get? (q, l, p) = some d) :
    d.logicalBlockId ≠ b := h (l, q, p) (mem_keys.mpr ⟨slot, ho⟩) rfl d hd

theorem OneHolder.placed (h : OneHolder D ledger rt) {totalPages : Int}
    {d : PhysicalPageDescriptor Req Layer} {row page slot : Nat}
    (hp : PlacedAt rt (D.layout d.layerName) totalPages d row page slot rt')
    (hd : ledger.get? d.key = some d)
    (hC : Site.FirstHolder D ⟨ledger, rt, totalPages, d⟩) : OneHolder D ledger rt' := by
  -- a key held afterwards was held before, or is the page's and the first of its block
  have hcan : ∀ l b k s, rt'.canonicalSlots.get? (l, b, k) = some s →
      rt.canonicalSlots.get? (l, b, k) = some s ∨
        l = d.layerName ∧ b = d.logicalBlockId ∧
          (rt.placement (D.layout d.layerName) d totalPages).storage = .canonical ∧
          NoOverlay ledger rt d.layerName d.logicalBlockId := by
    intro l b k s hk
    cases hold : rt.canonicalSlots.get? (l, b, k) with
    | some s' => exact .inl ((hp.canonical_mono _ _ hold).symm.trans hk)
    | none =>
        rw [hp.canonical] at hk
        split at hk
        · next hnew =>
            obtain ⟨hc, he⟩ := hnew
            cases he
            have hfresh : Site.Fresh D ⟨ledger, rt, totalPages, d⟩ :=
              ⟨fun _ => hold, fun ho => (by cases hc.symm.trans ho)⟩
            exact .inr ⟨rfl, rfl, hc, (hC.2 hfresh).2⟩
        · rw [hold] at hk
          cases hk
  have hover : ∀ l q p s, rt'.overlaySlots.get? (l, q, p) = some s →
      rt.overlaySlots.get? (l, q, p) = some s ∨
        l = d.layerName ∧ q = d.requestId ∧ p = d.pageIndex ∧
          (rt.placement (D.layout d.layerName) d totalPages).storage = .requestOverlay ∧
          NoCanonical rt d.layerName d.logicalBlockId ∧
          NoOverlay ledger rt d.layerName d.logicalBlockId := by
    intro l q p s hk
    cases hold : rt.overlaySlots.get? (l, q, p) with
    | some s' => exact .inl ((hp.overlay_mono _ _ hold).symm.trans hk)
    | none =>
        rw [hp.overlay] at hk
        split at hk
        · next hnew =>
            obtain ⟨ho, he⟩ := hnew
            cases he
            have hfresh : Site.Fresh D ⟨ledger, rt, totalPages, d⟩ :=
              ⟨fun hc => (by cases hc.symm.trans ho), fun _ => hold⟩
            exact .inr ⟨rfl, rfl, rfl, ho, hC.2 hfresh⟩
        · rw [hold] at hk
          cases hk
  refine ⟨h.toReclaimable.placed hp hd hC.1, fun l q p s ho => ?_, fun l q p s e k ho he => ?_,
    fun l q₁ q₂ p₁ p₂ s₁ s₂ d₁ d₂ ho₁ ho₂ hd₁ hd₂ hb => ?_⟩
  · rcases hover l q p s ho with ho | ⟨rfl, rfl, rfl, -⟩
    · exact h.overlayPage l q p s ho
    · exact ⟨d, hd⟩
  · cases hk : rt'.canonicalSlots.get? (l, e.logicalBlockId, k) with
    | none => rfl
    | some s' =>
        exfalso
        rcases hover l q p s ho with ho | ⟨rfl, rfl, rfl, hst, hno, -⟩
        · rcases hcan _ _ _ _ hk with hk | ⟨rfl, hb, -, hno⟩
          · rw [h.overlayAlone l q p s e k ho he] at hk
            cases hk
          · exact hno.ne ho he hb
        · rcases hcan _ _ _ _ hk with hk | ⟨-, -, hst', -⟩
          · have heq : e = d := Option.some.inj (he.symm.trans hd)
            rw [heq, hno.get?] at hk
            cases hk
          · cases hst'.symm.trans hst
  · rcases hover l q₁ p₁ s₁ ho₁ with ho₁ | ⟨rfl, rfl, rfl, -, -, hno⟩
    · rcases hover l q₂ p₂ s₂ ho₂ with ho₂ | ⟨rfl, rfl, rfl, -, -, hno⟩
      · exact h.overlayUnique l q₁ q₂ p₁ p₂ s₁ s₂ d₁ d₂ ho₁ ho₂ hd₁ hd₂ hb
      · have heq : d₂ = d := Option.some.inj (hd₂.symm.trans hd)
        exact absurd (heq ▸ hb) (hno.ne ho₁ hd₁)
    · rcases hover _ q₂ p₂ s₂ ho₂ with ho₂ | ⟨-, rfl, rfl, -⟩
      · have heq : d₁ = d := Option.some.inj (hd₁.symm.trans hd)
        exact absurd (heq ▸ hb.symm) (hno.ne ho₂ hd₂)
      · exact ⟨rfl, rfl⟩

/-- A page that is exhausted was placed warm, in a layer without free slots. -/
theorem exhausted_placement (hinv : PoolInv D.layouts.get? rt) {totalPages : Int}
    {d : PhysicalPageDescriptor Req Layer} {raw : Bool} (hl : d.layerName ∈ D.policy.layerNames)
    (hx : Exhausted rt d.layerName (rt.placement (D.layout d.layerName) d totalPages) raw) :
    Site.Fresh D ⟨ledger, rt, totalPages, d⟩ ∧ rt.rawFreeSlots.get? d.layerName = some [] ∧
      rt.warmFreeSlots.get? d.layerName = some [] := by
  have hblock := (rt.placement_reroled (D.layout d.layerName) d totalPages).logicalBlockId
  have hfree : rt.rawFreeSlots.get? d.layerName = some [] → rt.rawFree d.layerName ≠ true := by
    intro h
    simp [rawFree, h]
  cases hx with
  | overlay hs hk hf => exact absurd (rawFree_of_overlay hs) (hfree hf)
  | canonical hs hk hf =>
      cases hr : (rt.placement (D.layout d.layerName) d totalPages).role.raw with
      | true =>
          rw [hr] at hf
          exact absurd (rawFree_of_raw hs hr hk) (hfree hf)
      | false =>
          rw [hr] at hf
          refine ⟨⟨fun _ => hblock ▸ hk, fun ho => (by cases hs.symm.trans ho)⟩, ?_, hf⟩
          obtain ⟨free, hraw, -⟩ := hinv.pool _ _ true (D.layouts_get? hl)
          have hno := not_rawFree_of_warm hr
          change rt.rawFreeSlots.get? d.layerName = some free at hraw
          cases free with
          | nil => exact hraw
          | cons a as =>
              simp only [rawFree, hraw] at hno
              cases hno

/-- A first holder does not raise exhaustion. -/
theorem OneHolder.apply_error (h : OneHolder D ledger rt) (hinv : PoolInv D.layouts.get? rt)
    {rows : Dict Req Nat} {totalPages : Int} {d : PhysicalPageDescriptor Req Layer}
    (hpage : IsPage D.policy d) (hd : ledger.get? d.key = some d)
    (hC : Site.FirstHolder D ⟨ledger, rt, totalPages, d⟩)
    (hlive : (liveBlocks ledger).length ≤ D.numLogicalBlocks) {e : RuntimeError Req Layer}
    (hrun : (applyEventDescriptor rows totalPages d).run rt = .error e rt') : e.NotExhausted := by
  have hcases := applyEventDescriptor_cases hinv rows totalPages d
  rw [hrun] at hcases
  cases hcases with
  | refused he => exact he
  | spoiled hl h0 hb ha he => exact he
  | exhausted hl hx =>
      exfalso
      rw [(D.eq_of_layouts hl).2] at hx
      obtain ⟨hfresh, hraw, hwarm⟩ := exhausted_placement hinv hpage.mem_layerNames hx
      obtain ⟨hcan, hover⟩ := hC.2 hfresh
      exact h.not_exhausted hinv hpage.mem_layerNames hraw hwarm hd hcan hover hlive

theorem OneHolder.start (D : Deployment Layer) :
    OneHolder D (D.start : System Req Layer).ledger D.start.runtime := by
  refine ⟨(reclaimable_rule D).start, ?_, ?_, ?_⟩ <;> simp

end Ticks

/-! ## Runs with sharing -/

theorem oneHolder_rule (D : Deployment Layer) :
    RunRule D (fun _ (s : System Req Layer) => OneHolder D s.ledger s.runtime)
      (fun s call => ∀ site ∈ s.sites call, site.FirstHolder D) (fun _ _ => True) where
  start := OneHolder.start D
  enter _ _ _ h := h
  drain _ h := h
  tick s call rest s' hC ht h := by
    cases ht.ticked with
    | silent _ _ hledger hruntime => rwa [hledger, hruntime]
    | record hr =>
        have hfreed := h.freed ht.before.ledger hr.spec.released hr.prepared.freed
          fun q hq => hr.spec.other hq
        refine hr.loop_rule (J := fun _ rt => OneHolder D s'.ledger rt) hC ?_ hfreed
        intro d rest hd rt rt' row page slot hsite _ hp hJ
        exact hJ.placed hp (hr.spec.put d hd) hsite
    | forget hf =>
        exact h.freed ht.before.ledger hf.spec.released hf.freed fun q hq => hf.spec.other hq

/-- **No exhaustion with sharing.** In every run in which the number of live blocks never exceeds
    the number of blocks, and every application reclaims its slot and takes a fresh one only for a
    block that holds none: no application raises pool exhaustion. -/
theorem pool_not_exhausted (D : Deployment Layer) (segs : List (Segment Req))
    (hlive : ∀ x ∈ D.start.moments segs,
      (liveBlocks (x.1.policy.call x.2).physicalDescriptors).length ≤ D.numLogicalBlocks)
    (hsites : ∀ x ∈ D.start.moments segs, ∀ site ∈ x.1.sites x.2, site.FirstHolder D)
    (raw : Bool) (l : Layer) : D.run segs ≠ .error (.poolExhausted raw l) := by
  intro hrun
  have hrule : RunRule D _ (fun (s : System Req Layer) call =>
      (liveBlocks (s.policy.call call).physicalDescriptors).length ≤ D.numLogicalBlocks ∧
        ∀ site ∈ s.sites call, site.FirstHolder D) _ :=
    (oneHolder_rule D).of_imp fun _ _ hC => hC.2
  obtain ⟨s, call, -, hinv, ⟨hlive, hsites⟩, h, ht⟩ := hrule.error (fun _ _ => trivial)
    (fun x hx => ⟨hlive x hx, hsites x hx⟩) hrun
  rcases tick_error hinv ht with he | ⟨event, pages, row, rt, rt', hqueued, -, -, -, hspec,
    hprepare, hprepared, hloop⟩
  · exact he raw l rfl
  · have hfreed := h.freed hinv.ledger hspec.released hprepared.freed fun q hq => hspec.other hq
    have hkeeps : LoopKeeps D (s.policy.call call).physicalDescriptors event.totalPages
        event.descriptors (Site.FirstHolder D)
        (fun _ rt => OneHolder D (s.policy.call call).physicalDescriptors rt) := by
      intro d rest hd rt rt' row page slot hsite _ hp hJ
      exact hJ.placed hp (hspec.put d hd) hsite
    obtain ⟨d, -, rt₁, hd, hsite, hinv₁, hJ, hrun⟩ := hkeeps.error
      (visits_of_sites hqueued hprepare hsites) hprepared.freed.inv hfreed hloop
    exact hJ.apply_error hinv₁ (hspec.page d hd) (hspec.put d hd) hsite hlive hrun raw l rfl

/-- Requests share prefix-cached blocks only, each at one page index. -/
def PrefixSharing (ledger : Ledger Req Layer) : Prop :=
  ∀ d ∈ ledger.values, ∀ d' ∈ ledger.values, d.layerName = d'.layerName →
    d.logicalBlockId = d'.logicalBlockId →
    d = d' ∨ d.pageIndex = d'.pageIndex ∧ d.prefixCached = true ∧ d'.prefixCached = true

instance (ledger : Ledger Req Layer) : Decidable (PrefixSharing ledger) :=
  inferInstanceAs (Decidable (∀ d ∈ ledger.values, ∀ d' ∈ ledger.values, _))

theorem pool_not_exhausted_sharedAndForgotten :
    halfRaw.run sharedAndForgotten ≠ .error (.poolExhausted true 0) ∧
      halfRaw.run sharedAndForgotten ≠ .error (.poolExhausted false 0) := by
  have h := pool_not_exhausted halfRaw sharedAndForgotten (by decide +kernel) (by decide +kernel)
  exact ⟨h true 0, h false 0⟩

/-- One layer, three blocks for two requests, two of them raw. -/
def noHotBudget : Deployment Nat :=
  .ofEqualLayers 1 ⟨1, 0, true, 2, 2⟩ (fun _ => true) 3

/-- A request fills the raw pool; a second one, of one hashed block, goes to the warm pool. The
    first is forgotten; a third one shares the hashed block, the second is forgotten; a fourth
    takes the other two blocks. -/
def sharedTwice : List (Segment Nat) :=
  [⟨[allocate 0 [(0, false), (1, false)]], ownRows 1⟩,
   ⟨[allocate 1 [(2, true)]], ownRows 2⟩,
   ⟨[.forgetRequest 0, allocate 2 [(2, true)]], swappedRows⟩,
   ⟨[.forgetRequest 1, allocate 3 [(0, false), (1, false)]], ⟨[(2, 0), (3, 1)], by decide⟩⟩]

/-- The third request finds a free raw slot for the shared block, which so holds two slots; with
    all three blocks live the fourth request's second page finds none. -/
theorem pool_not_exhausted_fails :
    (∀ x ∈ noHotBudget.start.moments sharedTwice,
      PrefixSharing (x.1.policy.call x.2).physicalDescriptors ∧
        (liveBlocks (x.1.policy.call x.2).physicalDescriptors).length ≤
          noHotBudget.numLogicalBlocks) ∧
      noHotBudget.run sharedTwice = .error (.poolExhausted false 0) :=
  ⟨by decide +kernel, eq_error_of_raised (by decide +kernel)⟩

/-! ## Runs without sharing -/

/-- No page is prefix-cached, and each block of a layer belongs to one page. -/
def Unshared (ledger : Ledger Req Layer) : Prop :=
  (∀ d ∈ ledger.values, d.prefixCached = false) ∧
    ∀ d ∈ ledger.values, ∀ d' ∈ ledger.values, d.layerName = d'.layerName →
      d.logicalBlockId = d'.logicalBlockId → d = d'

instance (ledger : Ledger Req Layer) : Decidable (Unshared ledger) :=
  inferInstanceAs (Decidable (_ ∧ _))

/-- A page that stays tracked keeps its block. -/
def KeepsBlocks (ledger ledger' : Ledger Req Layer) : Prop :=
  ∀ key ∈ ledger.keys, ∀ d ∈ ledger.get? key, ∀ d' ∈ ledger'.get? key,
    d'.logicalBlockId = d.logicalBlockId

instance (ledger ledger' : Ledger Req Layer) : Decidable (KeepsBlocks ledger ledger') :=
  inferInstanceAs (Decidable (∀ key ∈ ledger.keys, _))

/-- Policy and cache agree on the warm role of every layer. -/
def Deployment.WarmRolesAgree (D : Deployment Layer) : Prop :=
  ∀ layer ∈ D.policy.layers,
    D.policy.warmRole layer = (D.layout layer.layerName).warmRoleForCache

instance (D : Deployment Layer) : Decidable D.WarmRolesAgree :=
  inferInstanceAs (Decidable (∀ layer ∈ D.policy.layers, _))

/-- Every tracked block has exactly one canonical slot in the layer, every other block none. -/
def System.OneSlotPerBlock (s : System Req Layer) (l : Layer) : Prop :=
  ∀ b, ((∃ d ∈ s.ledger.values, d.logicalBlockId = b) →
      ∃ k slot, s.runtime.canonicalSlots.get? (l, b, k) = some slot ∧
        ∀ k' slot', s.runtime.canonicalSlots.get? (l, b, k') = some slot' → k' = k) ∧
    ((∀ d ∈ s.ledger.values, d.logicalBlockId ≠ b) →
      ∀ k, s.runtime.canonicalSlots.get? (l, b, k) = none)

/-- Without sharing: the held keys are reclaimable, there are no overlays, and every tracked page
    but those of `rest` has a slot for its block; the blocks of `rest` have none. -/
structure SlotPerPage (D : Deployment Layer) (ledger : Ledger Req Layer)
    (rest : List (PhysicalPageDescriptor Req Layer)) (rt : PhysicalRuntime Req Layer) : Prop where
  reclaimable : Reclaimable D ledger rt
  noOverlay : ∀ key, rt.overlaySlots.get? key = none
  waiting : ∀ d ∈ rest, NoCanonical rt d.layerName d.logicalBlockId
  tracked : ∀ d ∈ rest, ledger.get? d.key = some d
  nodup : rest.Nodup
  slot : ∀ key d, ledger.get? key = some d → d ∈ rest ∨
    ∃ k slot, rt.canonicalSlots.get? (d.layerName, d.logicalBlockId, k) = some slot

section Unshared

variable {D : Deployment Layer} {ledger ledger' : Ledger Req Layer}
  {rt rt' : PhysicalRuntime Req Layer} {rest : List (PhysicalPageDescriptor Req Layer)}
  {event : PhysicalEvent Req Layer}

theorem SlotPerPage.oneHolder (h : SlotPerPage D ledger rest rt) : OneHolder D ledger rt := by
  refine ⟨h.reclaimable, ?_, ?_, ?_⟩ <;> simp [h.noOverlay]

omit [DecidableEq Req] in
/-- A page of a policy that agrees with the cache is found by the release of its descriptor,
    wherever it is placed. -/
theorem releasable_placement (hwarm : D.WarmRolesAgree) {d : PhysicalPageDescriptor Req Layer}
    (hpage : IsPage D.policy d) (totalPages : Int) :
    Releasable (D.layout d.layerName) d.role
      (rt.placement (D.layout d.layerName) d totalPages).role := by
  rcases placement_role hpage.zone_pinned totalPages with h | ⟨hw, h⟩ | h
  · exact .inl h
  · exact .inr (.inl ⟨hw, h⟩)
  · rw [h]
    cases hr : d.role.raw with
    | true => exact .inr (.inr ⟨hr, rfl⟩)
    | false =>
        -- a warm page has the policy's warm role, which is the cache's
        left
        obtain ⟨layer, hm, hname, hrole⟩ := hpage.layer
        rw [← hname, ← hwarm layer hm, hrole]
        cases hz : d.role with
        | pinnedRaw => simp [hz] at hr
        | hotRaw => simp [hz] at hr
        | warmInt8Int4 => rfl
        | warmInt8Int8 => rfl

/-- A waiting page takes the first slot of its block. -/
theorem SlotPerPage.firstHolder (hwarm : D.WarmRolesAgree)
    {d : PhysicalPageDescriptor Req Layer} (h : SlotPerPage D ledger (d :: rest) rt)
    (hpage : IsPage D.policy d) (hplain : d.prefixCached = false) (totalPages : Int) :
    Site.FirstHolder D ⟨ledger, rt, totalPages, d⟩ := by
  have hno := h.waiting d List.mem_cons_self
  have hs : d.storage = .canonical := by rw [hpage.storage, hplain, storageKindForRole_false]
  refine ⟨fun _ _ => ⟨hs, releasable_placement hwarm hpage totalPages, hno⟩, fun _ => ⟨hno, ?_⟩⟩
  intro key hk
  obtain ⟨slot, hs⟩ := mem_keys.mp hk
  rw [h.noOverlay] at hs
  cases hs

theorem SlotPerPage.placed (hwarm : D.WarmRolesAgree) (hun : Unshared ledger)
    {d : PhysicalPageDescriptor Req Layer} (h : SlotPerPage D ledger (d :: rest) rt)
    (hpage : IsPage D.policy d) {totalPages : Int} {row page slot : Nat}
    (hp : PlacedAt rt (D.layout d.layerName) totalPages d row page slot rt') :
    SlotPerPage D ledger rest rt' := by
  have hd := h.tracked d List.mem_cons_self
  have hplain : d.prefixCached = false := hun.1 d (mem_values.mpr ⟨_, hd⟩)
  have hcan : (rt.placement (D.layout d.layerName) d totalPages).storage = .canonical := by
    have hre := rt.placement_reroled (D.layout d.layerName) d totalPages
    rw [hre.storage hpage.storage, hre.prefixCached, hplain, storageKindForRole_false]
  obtain ⟨hnotin, hnodup⟩ := List.nodup_cons.mp h.nodup
  refine ⟨h.reclaimable.placed hp hd (h.firstHolder hwarm hpage hplain totalPages).1, ?_, ?_,
    fun e he => h.tracked e (List.mem_cons_of_mem _ he), hnodup, ?_⟩
  · intro key
    rw [hp.overlay, if_neg, h.noOverlay]
    rintro ⟨hover, -⟩
    cases hcan.symm.trans hover
  · intro e he key hk hkey
    obtain ⟨s, hs⟩ := mem_keys.mp hk
    rw [hp.canonical] at hs
    split at hs
    · next hnew =>
        -- the placed block is not the block of a page that waits
        obtain ⟨-, rfl⟩ := hnew
        have heq := hun.2 d (mem_values.mpr ⟨_, hd⟩) e
          (mem_values.mpr ⟨_, h.tracked e (List.mem_cons_of_mem _ he)⟩) hkey.1 hkey.2
        exact hnotin (heq ▸ he)
    · exact h.waiting e (List.mem_cons_of_mem _ he) key (mem_keys.mpr ⟨s, hs⟩) hkey
  · intro key e he
    rcases h.slot key e he with hm | ⟨k, s, hk⟩
    · rcases List.mem_cons.mp hm with rfl | hm
      · exact .inr ⟨_, slot, (hp.canonical _).trans (if_pos ⟨hcan, rfl⟩)⟩
      · exact .inl hm
    · exact .inr ⟨k, s, hp.canonical_mono _ _ hk⟩

/-- The pages that a call leaves alone keep the slots of their blocks. -/
theorem SlotPerPage.kept (h : SlotPerPage D ledger [] rt) (hun : Unshared ledger) {q : Req}
    {released : List (PhysicalPageDescriptor Req Layer)}
    (hr : ReleaseSpec ledger ledger' released) (hf : Freed D.layouts.get? rt q released rt')
    {key : Req × Layer × Int} {d : PhysicalPageDescriptor Req Layer}
    (hd : ledger.get? key = some d) (hd' : ledger'.get? key = some d) :
    ∃ k slot, rt'.canonicalSlots.get? (d.layerName, d.logicalBlockId, k) = some slot := by
  rcases h.slot key d hd with hm | ⟨k, slot, hk⟩
  · cases hm
  · refine ⟨k, slot, ?_⟩
    rw [hf.kept _ _ k ?_, hk]
    -- a released descriptor of the block would be `d` itself, which stays
    rintro o ho ⟨hlay, hblock⟩
    obtain ⟨hold, -, -⟩ := hr.old o ho
    have heq := hun.2 o (mem_values.mpr ⟨_, hold⟩) d (mem_values.mpr ⟨_, hd⟩) hlay hblock
    exact hr.unshared o ho key d hd hd' (by rw [heq])

/-- A changed page: the release phase has taken the slot of its block. -/
theorem SlotPerPage.changed (h : SlotPerPage D ledger [] rt) (hl : LedgerInv D.policy ledger)
    (hl' : LedgerInv D.policy ledger') (hun : Unshared ledger) (hun' : Unshared ledger')
    (hkeeps : KeepsBlocks ledger ledger') (hspec : RecordSpec D.policy ledger ledger' event)
    (hf : Freed D.layouts.get? rt event.requestId event.releasedDescriptors rt')
    {d : PhysicalPageDescriptor Req Layer} (hd : d ∈ event.descriptors) :
    NoCanonical rt' d.layerName d.logicalBlockId := by
  rintro ⟨l, b, k⟩ hk ⟨rfl, rfl⟩
  obtain ⟨slot, hs⟩ := mem_keys.mp hk
  have hold := hf.sub _ _ hs
  obtain ⟨key, d₀, hd₀, hs₀, hlay, hblock, hrel⟩ := h.reclaimable.support _ _ _ _ hold
  have hput := hspec.put d hd
  -- the page that held the slot is the changed page
  have hstay : ∃ e, ledger'.get? key = some e := by
    by_cases hm : key ∈ event.descriptors.map PhysicalPageDescriptor.key
    · obtain ⟨e, he, rfl⟩ := List.mem_map.mp hm
      exact ⟨e, hspec.put e he⟩
    · exact ⟨d₀, (hspec.keep key hm).trans hd₀⟩
  obtain ⟨e, he⟩ := hstay
  have hblock' := hkeeps key (mem_keys.mpr ⟨d₀, hd₀⟩) d₀ hd₀ e he
  have hlay' : e.layerName = d₀.layerName :=
    (congrArg (fun k => k.2.1) ((hl'.key _ _ he).trans (hl.key _ _ hd₀).symm) : _)
  have heq : e = d := hun'.2 e (mem_values.mpr ⟨_, he⟩) d (mem_values.mpr ⟨_, hput⟩)
    (hlay'.trans hlay) (hblock'.trans hblock)
  have hkey : d₀.key = d.key := by
    rw [hl.key _ _ hd₀, ← hl'.key _ _ he, heq]
  -- it changed its role, so the old canonical key has died
  have hrole : d.role ≠ d₀.role := by
    intro hrole
    have hcore : d₀.core = d.core := by
      rw [PhysicalPageDescriptor.core, PhysicalPageDescriptor.core, hblock, hrole,
        hun.1 d₀ (mem_values.mpr ⟨_, hd₀⟩), hun'.1 d (mem_values.mpr ⟨_, hput⟩)]
    have hsame := IsPage.eq_of_core D.nodup (hl.page _ _ hd₀) (hspec.page d hd) hkey hcore
    rw [← hl.key _ _ hd₀, hkey, hsame] at hd₀
    exact hspec.new d hd hd₀
  have hck : canonicalDescriptorKey d₀ = some (d.layerName, d.logicalBlockId, d₀.role) :=
    canonicalDescriptorKey_eq_some.mpr ⟨hs₀, hlay, hblock, rfl⟩
  obtain ⟨o, ho, hcko⟩ := hspec.released.complete _ key d₀ hd₀ hck <| by
    intro key' d' hd' hck'
    obtain ⟨-, hl₁, hb₁, hr₁⟩ := canonicalDescriptorKey_eq_some.mp hck'
    have := hun'.2 d' (mem_values.mpr ⟨_, hd'⟩) d (mem_values.mpr ⟨_, hput⟩) hl₁ hb₁
    exact hrole (this ▸ hr₁)
  obtain ⟨-, hlo, hbo, hro⟩ := canonicalDescriptorKey_eq_some.mp hcko
  have hlayout := D.layouts_get? (hspec.page d hd).mem_layerNames
  have hnone := hf.taken o ho (D.layout d.layerName) k (hlo ▸ hlayout) (hro ▸ hrel) fun k' s' hk' =>
    h.reclaimable.unique _ _ _ _ _ _ (hlo ▸ hbo ▸ hk') hold
  rw [hlo, hbo, hs] at hnone
  cases hnone

/-- After the release phase of a record, the changed pages wait for a slot. -/
theorem SlotPerPage.prepared (h : SlotPerPage D ledger [] rt) (hl : LedgerInv D.policy ledger)
    (hl' : LedgerInv D.policy ledger') (hun : Unshared ledger) (hun' : Unshared ledger')
    (hkeeps : KeepsBlocks ledger ledger') (hspec : RecordSpec D.policy ledger ledger' event)
    (hf : Freed D.layouts.get? rt event.requestId event.releasedDescriptors rt') :
    SlotPerPage D ledger' event.descriptors rt' where
  reclaimable := h.reclaimable.freed hl hspec.released hf fun _ hq => hspec.other hq
  noOverlay key := by
    rw [hf.overlay, h.noOverlay]
    exact ite_self none
  waiting _ hd := h.changed hl hl' hun hun' hkeeps hspec hf hd
  tracked := hspec.put
  nodup := hspec.nodup.of_map
  slot key d hd := by
    by_cases hm : key ∈ event.descriptors.map PhysicalPageDescriptor.key
    · obtain ⟨e, he, rfl⟩ := List.mem_map.mp hm
      rw [hspec.put e he] at hd
      cases hd
      exact .inl he
    · exact .inr (h.kept hun hspec.released hf ((hspec.keep key hm).symm.trans hd) hd)

end Unshared

/-- What a run without sharing promises about a call. -/
def UnsharedCall (D : Deployment Layer) (s : System Req Layer) (call : Call Req) : Prop :=
  let ledger' := (s.policy.call call).physicalDescriptors
  Unshared ledger' ∧ KeepsBlocks s.ledger ledger' ∧
    (liveBlocks ledger').length ≤ D.numLogicalBlocks

instance (D : Deployment Layer) (s : System Req Layer) (call : Call Req) :
    Decidable (UnsharedCall D s call) := inferInstanceAs (Decidable (_ ∧ _ ∧ _))

theorem slotPerPage_rule (D : Deployment Layer) (hwarm : D.WarmRolesAgree) :
    RunRule D
      (fun _ (s : System Req Layer) => Unshared s.ledger ∧ SlotPerPage D s.ledger [] s.runtime)
      (UnsharedCall D) (fun _ _ => True) where
  start := by
    refine ⟨⟨?_, ?_⟩, (reclaimable_rule D).start, fun key => by simp, ?_, ?_,
      List.nodup_nil, fun key d hd => ?_⟩
    · exact fun d hd => absurd hd List.not_mem_nil
    · exact fun d hd => absurd hd List.not_mem_nil
    · exact fun d hd => absurd hd List.not_mem_nil
    · exact fun d hd => absurd hd List.not_mem_nil
    · cases hd
  enter _ _ _ h := h
  drain _ h := h
  tick s call rest s' hC ht h := by
    obtain ⟨hun, h⟩ := h
    obtain ⟨hun', hkeeps, -⟩ := hC
    have hledger : s'.ledger = (s.policy.call call).physicalDescriptors := by
      rw [System.ledger, ht.policy]
    rw [← hledger] at hun' hkeeps
    refine ⟨hun', ?_⟩
    cases ht.ticked with
    | silent _ _ hsame hruntime => rwa [hsame, hruntime]
    | record hr =>
        refine hr.loop_rule (J := SlotPerPage D s'.ledger) (C := fun _ => True)
          (fun _ _ => trivial) ?_
          (h.prepared ht.before.ledger ht.after.ledger hun hun' hkeeps hr.spec hr.prepared.freed)
        intro d rest hd rt rt' row page slot _ _ hp hJ
        exact hJ.placed hwarm hun' (hr.spec.page d hd) hp
    | @forget event hf =>
        have hkept : ∀ key d, s'.ledger.get? key = some d → s.ledger.get? key = some d := by
          intro key d hd
          rw [hf.spec.drop] at hd
          split at hd
          · cases hd
          · exact hd
        refine ⟨h.reclaimable.freed ht.before.ledger hf.spec.released hf.freed fun q hq =>
          hf.spec.other hq, fun key => ?_, ?_, ?_, List.nodup_nil, fun key d hd => ?_⟩
        · rw [hf.freed.overlay, h.noOverlay]
          exact ite_self none
        · exact fun d hd => absurd hd List.not_mem_nil
        · exact fun d hd => absurd hd List.not_mem_nil
        · exact .inr (h.kept hun hf.spec.released hf.freed (hkept key d hd) hd)

/-- **One slot per block.** In every run without prefix caching and sharing, in which pages keep
    their blocks and no more blocks are tracked than there are, and where policy and cache agree
    on the warm role of every layer: no application raises pool exhaustion, and afterwards every
    tracked block has exactly one canonical slot in every layer, and every other block none. -/
theorem one_slot_per_block (D : Deployment Layer) (hwarm : D.WarmRolesAgree)
    (segs : List (Segment Req)) (hcalls : ∀ x ∈ D.start.moments segs, UnsharedCall D x.1 x.2) :
    (∀ raw l, D.run segs ≠ .error (.poolExhausted raw l)) ∧
      ∀ s, D.run segs = .ok s → ∀ l ∈ D.policy.layerNames, s.OneSlotPerBlock l := by
  constructor
  · intro raw l hrun
    obtain ⟨s, call, -, hinv, hC, ⟨hun, h⟩, ht⟩ :=
      (slotPerPage_rule D hwarm).error (fun _ _ => trivial) hcalls hrun
    obtain ⟨hun', hkeeps, hlive⟩ := hC
    rcases tick_error hinv ht with he | ⟨event, pages, row, rt, rt', hqueued, -, -, -, hspec,
      hprepare, hprepared, hloop⟩
    · exact he raw l rfl
    · have hl' := (hinv.callSpec call).ledgerInv hinv.ledger
      have hloopKeeps : LoopKeeps D (s.policy.call call).physicalDescriptors event.totalPages
          event.descriptors (fun _ => True)
          (SlotPerPage D (s.policy.call call).physicalDescriptors) := by
        intro d rest hd rt rt' row page slot _ _ hp hJ
        exact hJ.placed hwarm hun' (hspec.page d hd) hp
      obtain ⟨d, rest, rt₁, hd, -, hinv₁, hJ, hrun⟩ := hloopKeeps.error (fun _ _ => trivial)
        hprepared.freed.inv (h.prepared hinv.ledger hl' hun hun' hkeeps hspec hprepared.freed) hloop
      have hplain := hun'.1 d (mem_values.mpr ⟨_, hspec.put d hd⟩)
      exact hJ.oneHolder.apply_error hinv₁ (hspec.page d hd) (hspec.put d hd)
        (hJ.firstHolder hwarm (hspec.page d hd) hplain _) hlive hrun raw l rfl
  · intro s hrun l hl b
    obtain ⟨hbetween, -, h⟩ := (slotPerPage_rule D hwarm).run (fun _ _ => trivial) hcalls hrun
    constructor
    · rintro ⟨d, hd, rfl⟩
      obtain ⟨⟨q, l', i⟩, hget⟩ := mem_values.mp hd
      -- the page is tracked in this layer too
      obtain ⟨d', hget', hcore⟩ := hbetween.ledger.uniform q l' i d hget l hl
      have hkey := hbetween.ledger.key _ _ hget'
      simp only [PhysicalPageDescriptor.key, Prod.mk.injEq] at hkey
      rcases h.slot _ d' hget' with hm | ⟨k, slot, hk⟩
      · cases hm
      · have hblock : d'.logicalBlockId = d.logicalBlockId := congrArg Prod.fst hcore
        rw [hkey.2.1, hblock] at hk
        exact ⟨k, slot, hk, fun k' slot' hk' => h.reclaimable.unique _ _ _ _ _ _ hk' hk⟩
    · intro hnone k
      rw [Option.eq_none_iff_forall_ne_some]
      intro slot hk
      obtain ⟨key, d, hd, -, -, hb, -⟩ := h.reclaimable.support l b k slot hk
      exact hnone d (mem_values.mpr ⟨key, hd⟩) hb

theorem one_slot_per_block_steadyRequests :
    ∃ s, halfRaw.run steadyRequests = .ok s ∧ s.OneSlotPerBlock 0 := by
  obtain ⟨s, hrun, -⟩ := exists_ok_of_any (x := halfRaw.run steadyRequests)
    (p := fun _ => true) (by decide +kernel)
  exact ⟨s, hrun, (one_slot_per_block halfRaw (by decide +kernel) steadyRequests
    (by decide +kernel)).2 s hrun 0 (by decide)⟩

/-- One layer, late for the policy and early for its cache; six of fifteen pages are raw. -/
def mixedWarmRoles : Deployment Nat :=
  .ofEqualLayers 1 ⟨1, 25, true, 2, 7⟩ (fun _ => false) 15

/-- A request fills the raw pool; a short one, that raw capacity would keep raw, is demoted and
    forgotten. -/
def demotedAndForgotten : List (Segment Nat) :=
  [⟨[allocate 0 [(0, false), (1, false), (2, false), (3, false), (4, false), (5, false),
      (6, false)]], ownRows 2⟩,
   ⟨[allocate 1 [(7, false), (8, false), (9, false)]], ownRows 2⟩,
   ⟨[.forgetRequest 1], ownRows 2⟩]

/-- The warm page of block 8 was demoted to the cache's warm role; the release of its descriptor
    looks under the policy's warm role, and the slot stays held for a block that is not
    tracked. -/
theorem one_slot_per_block_fails :
    (∀ x ∈ mixedWarmRoles.start.moments demotedAndForgotten,
      UnsharedCall mixedWarmRoles x.1 x.2) ∧
      ∃ s, mixedWarmRoles.run demotedAndForgotten = .ok s ∧ ¬ s.OneSlotPerBlock 0 := by
  refine ⟨by decide +kernel, ?_⟩
  obtain ⟨s, hrun, hp⟩ := exists_ok_of_any (x := mixedWarmRoles.run demotedAndForgotten)
    (p := fun s => decide ((∀ d ∈ s.ledger.values, d.logicalBlockId ≠ 8) ∧
      s.runtime.canonicalSlots.get? (0, 8, .warmInt8Int4) ≠ none)) (by decide +kernel)
  obtain ⟨hnone, hheld⟩ := of_decide_eq_true hp
  exact ⟨s, hrun, fun h => hheld ((h 8).2 hnone .warmInt8Int4)⟩

end Sock.Tmh
