/-
  Reclaiming slots, along runs.

  The policy counts canonical descriptors by (layer, block, policy role); the runtime holds
  slots by (layer, block, placed role). A release finds the slot of a descriptor under the
  policy role, the promoted or the demoted one. A slot leaks when no release looks for it: an
  overlay page that was demoted has no count at the policy, and of two keys of one block a
  release takes one (`slots_reclaimed_fails`).

  * `Reclaimable`: every held canonical key is one that a tracked canonical descriptor of its
    block can find, each block has at most one key, and overlays are of tracked requests.
  * `slots_reclaimed`: in a run whose placements keep it so, once every request is forgotten
    all slots are free.
-/
import Sock.Tmh.Rows

namespace Sock.Tmh

open Lib Lib.Fallible Lib.RefCount PhysicalRuntime

variable {Req Layer : Type} [DecidableEq Req] [DecidableEq Layer]

/-- Every slot of a layer's pools is on its free list. -/
def System.AllFree (s : System Req Layer) (l : Layer) (cfg : CacheLayout) : Prop :=
  (∃ free, s.runtime.rawFreeSlots.get? l = some free ∧ ∀ slot < cfg.rawPages, slot ∈ free) ∧
    ∃ free, s.runtime.warmFreeSlots.get? l = some free ∧ ∀ slot < cfg.warmPages, slot ∈ free

/-- The held keys are ones that the releases of the tracked descriptors will find. -/
structure Reclaimable (D : Deployment Layer) (ledger : Ledger Req Layer)
    (rt : PhysicalRuntime Req Layer) : Prop where
  support : ∀ l b k slot, rt.canonicalSlots.get? (l, b, k) = some slot →
    ∃ key d, ledger.get? key = some d ∧ d.storage = .canonical ∧ d.layerName = l ∧
      d.logicalBlockId = b ∧ Releasable (D.layout l) d.role k
  unique : ∀ l b k k' slot slot', rt.canonicalSlots.get? (l, b, k) = some slot →
    rt.canonicalSlots.get? (l, b, k') = some slot' → k = k'
  overlay : ∀ l q p slot, rt.overlaySlots.get? (l, q, p) = some slot → Tracked ledger q

/-- The descriptor as the runtime will place it. -/
def Site.placed (D : Deployment Layer) (site : Site Req Layer) : PhysicalPageDescriptor Req Layer :=
  site.runtime.placement (D.layout site.descriptor.layerName) site.descriptor site.totalPages

/-- No canonical slot is held for the block. -/
def NoCanonical (rt : PhysicalRuntime Req Layer) (l : Layer) (b : Int) : Prop :=
  ∀ key ∈ rt.canonicalSlots.keys, ¬ (key.1 = l ∧ key.2.1 = b)

instance (rt : PhysicalRuntime Req Layer) (l : Layer) (b : Int) : Decidable (NoCanonical rt l b) :=
  inferInstanceAs (Decidable (∀ key ∈ rt.canonicalSlots.keys, _))

omit [DecidableEq Req] in
theorem NoCanonical.get? {rt : PhysicalRuntime Req Layer} {l : Layer} {b : Int}
    (h : NoCanonical rt l b) (k : PageRole) : rt.canonicalSlots.get? (l, b, k) = none :=
  Dict.get?_eq_none.mpr fun hm => h _ hm ⟨rfl, rfl⟩

/-- The application of a descriptor leaves a slot that will be found: when the page takes a fresh
    canonical slot, its descriptor is counted canonically at the policy, a release of it looks
    under the placed role, and the block has no other canonical slot. -/
def Site.Reclaims (D : Deployment Layer) (site : Site Req Layer) : Prop :=
  let d := site.descriptor
  let placed := site.placed D
  placed.storage = .canonical →
    site.runtime.canonicalSlots.get? (d.layerName, d.logicalBlockId, placed.role) = none →
    d.storage = .canonical ∧ Releasable (D.layout d.layerName) d.role placed.role ∧
      NoCanonical site.runtime d.layerName d.logicalBlockId

instance (D : Deployment Layer) (site : Site Req Layer) : Decidable (site.Reclaims D) :=
  inferInstanceAs (Decidable (_ → _ → _ ∧ _ ∧ _))

section Ticks

variable {D : Deployment Layer} {ledger ledger' : Ledger Req Layer}
  {rt rt' : PhysicalRuntime Req Layer}

/-- After the release phase, what is held is supported by what is tracked after the call. -/
theorem Reclaimable.freed (h : Reclaimable D ledger rt) (hl : LedgerInv D.policy ledger) {q : Req}
    {released : List (PhysicalPageDescriptor Req Layer)}
    (hr : ReleaseSpec ledger ledger' released) (hf : Freed D.layouts.get? rt q released rt')
    (hother : ∀ q', q' ≠ q → ∀ l p, ledger'.get? (q', l, p) = ledger.get? (q', l, p)) :
    Reclaimable D ledger' rt' where
  support l b k slot hk := by
    have hold := hf.sub _ _ hk
    obtain ⟨key, d, hd, hs, rfl, rfl, hrel⟩ := h.support l b k slot hold
    have hck : canonicalDescriptorKey d = some (d.layerName, d.logicalBlockId, d.role) :=
      canonicalDescriptorKey_eq_some.mpr ⟨hs, rfl, rfl, rfl⟩
    by_cases hlive : ∃ key' d', ledger'.get? key' = some d' ∧
        canonicalDescriptorKey d' = some (d.layerName, d.logicalBlockId, d.role)
    · obtain ⟨key', d', hd', hck'⟩ := hlive
      obtain ⟨hs', hl', hb', hr'⟩ := canonicalDescriptorKey_eq_some.mp hck'
      exact ⟨key', d', hd', hs', hl', hb', hr' ▸ hrel⟩
    · -- the key has died, so a descriptor with that key is released, and it finds the slot
      push Not at hlive
      obtain ⟨o, ho, hcko⟩ := hr.complete _ key d hd hck hlive
      obtain ⟨hso, hlo, hbo, hro⟩ := canonicalDescriptorKey_eq_some.mp hcko
      have hlay := D.layouts_get? (hl.page _ _ hd).mem_layerNames
      have hnone := hf.taken o ho (D.layout d.layerName) k (hlo ▸ hlay) (hro ▸ hrel)
        fun k' s' hk' =>
        h.unique _ _ _ _ _ _ (hlo ▸ hbo ▸ hk') hold
      rw [hlo, hbo, hk] at hnone
      cases hnone
  unique l b k k' slot slot' hk hk' := h.unique l b k k' slot slot' (hf.sub _ _ hk) (hf.sub _ _ hk')
  overlay l q' p slot ho := by
    rw [hf.overlay] at ho
    split at ho
    · cases ho
    · next hne => exact (tracked_of_other (hother q' hne)).mpr (h.overlay l q' p slot ho)

/-- Placing a tracked page keeps the held keys reclaimable. -/
theorem Reclaimable.placed (h : Reclaimable D ledger rt) {totalPages : Int}
    {d : PhysicalPageDescriptor Req Layer} {row page slot : Nat}
    (hp : PlacedAt rt (D.layout d.layerName) totalPages d row page slot rt')
    (hd : ledger.get? d.key = some d)
    (hC : Site.Reclaims D ⟨ledger, rt, totalPages, d⟩) : Reclaimable D ledger rt' := by
  -- a key held afterwards was held before, or is the fresh key of the page
  have hcases : ∀ l b k s, rt'.canonicalSlots.get? (l, b, k) = some s →
      rt.canonicalSlots.get? (l, b, k) = some s ∨
        l = d.layerName ∧ b = d.logicalBlockId ∧ d.storage = .canonical ∧
          Releasable (D.layout d.layerName) d.role k ∧ NoCanonical rt l b ∧
          k = (rt.placement (D.layout d.layerName) d totalPages).role := by
    intro l b k s hk
    cases hold : rt.canonicalSlots.get? (l, b, k) with
    | some s' => exact .inl ((hp.canonical_mono _ _ hold).symm.trans hk)
    | none =>
        rw [hp.canonical] at hk
        split at hk
        · next hnew =>
            obtain ⟨hc, he⟩ := hnew
            cases he
            obtain ⟨hs, hrel, hno⟩ := hC hc hold
            exact .inr ⟨rfl, rfl, hs, hrel, hno, rfl⟩
        · rw [hold] at hk
          cases hk
  refine ⟨fun l b k s hk => ?_, fun l b k k' s s' hk hk' => ?_, fun l q p s ho => ?_⟩
  · rcases hcases l b k s hk with hold | ⟨rfl, rfl, hs, hrel, -⟩
    · exact h.support l b k s hold
    · exact ⟨d.key, d, hd, hs, rfl, rfl, hrel⟩
  · rcases hcases l b k s hk with hold | ⟨-, -, -, -, hno, hrole⟩
    · rcases hcases l b k' s' hk' with hold' | ⟨-, -, -, -, hno, -⟩
      · exact h.unique l b k k' s s' hold hold'
      · rw [hno.get?] at hold
        cases hold
    · rcases hcases l b k' s' hk' with hold' | ⟨-, -, -, -, -, hrole'⟩
      · rw [hno.get?] at hold'
        cases hold'
      · rw [hrole, hrole']
  · rw [hp.overlay] at ho
    split at ho
    · next hnew =>
        obtain ⟨-, he⟩ := hnew
        cases he
        exact tracked_iff.mpr ⟨_, _, d, hd⟩
    · exact h.overlay l q p s ho

end Ticks

theorem reclaimable_rule (D : Deployment Layer) :
    RunRule D (fun _ (s : System Req Layer) => Reclaimable D s.ledger s.runtime)
      (fun s call => ∀ site ∈ s.sites call, site.Reclaims D) (fun _ _ => True) where
  start := by constructor <;> simp
  enter _ _ _ h := h
  drain _ h := h
  tick s call rest s' hC ht h := by
    cases ht.ticked with
    | silent _ _ hledger hruntime => rwa [hledger, hruntime]
    | record hr =>
        have hfreed := h.freed ht.before.ledger hr.spec.released hr.prepared.freed
          fun q hq => hr.spec.other hq
        refine hr.loop_rule (J := fun _ rt => Reclaimable D s'.ledger rt) hC ?_ hfreed
        intro d rest hd rt rt' row page slot hsite _ hp hJ
        exact hJ.placed hp (hr.spec.put d hd) hsite
    | forget hf =>
        exact h.freed ht.before.ledger hf.spec.released hf.freed fun q hq => hf.spec.other hq

/-- **No slot leaks.** In every run in which every application reclaims, once no request is
    tracked every slot of every layer is on its free list. -/
theorem slots_reclaimed (D : Deployment Layer) (segs : List (Segment Req))
    (hsites : ∀ x ∈ D.start.moments segs, ∀ site ∈ x.1.sites x.2, site.Reclaims D)
    {s : System Req Layer} (hrun : D.run segs = .ok s) (hdone : ∀ q, ¬ Tracked s.ledger q) :
    ∀ l ∈ D.policy.layerNames, s.AllFree l (D.layout l) := by
  obtain ⟨hbetween, h⟩ := (reclaimable_rule D).run (fun _ _ => trivial) hsites hrun
  have hcan : ∀ key, s.runtime.canonicalSlots.get? key = none := by
    rintro ⟨l, b, k⟩
    rw [Option.eq_none_iff_forall_ne_some]
    intro slot hk
    obtain ⟨⟨q, l', i⟩, d, hd, -⟩ := h.support l b k slot hk
    exact hdone q (tracked_iff.mpr ⟨l', i, d, hd⟩)
  have hover : ∀ key, s.runtime.overlaySlots.get? key = none := by
    rintro ⟨l, q, p⟩
    rw [Option.eq_none_iff_forall_ne_some]
    intro slot hk
    exact hdone q (h.overlay l q p slot hk)
  have hheld : ∀ raw l, s.runtime.held raw l = [] := by
    intro raw l
    rw [List.eq_nil_iff_forall_not_mem]
    intro slot hm
    rcases List.mem_append.mp hm with hm | hm
    · obtain ⟨key, -, hk⟩ := Dict.mem_select.mp hm
      rw [hcan] at hk
      cases hk
    · split at hm
      · obtain ⟨key, -, hk⟩ := Dict.mem_select.mp hm
        rw [hover] at hk
        cases hk
      · cases hm
  have hfree : ∀ l ∈ D.policy.layerNames, ∀ raw, ∃ free, (s.runtime.freeSlots raw).get? l =
      some free ∧ ∀ slot < (D.layout l).pages raw, slot ∈ free := by
    intro l hl raw
    obtain ⟨free, hf, hp⟩ := hbetween.pool.pool l _ raw (D.layouts_get? hl)
    rw [hheld, List.append_nil] at hp
    exact ⟨free, hf, fun slot hs => hp.mem_iff.mpr (List.mem_range.mpr hs)⟩
  exact fun l hl => ⟨hfree l hl true, hfree l hl false⟩

/-- Two requests that share their first block, one of them with a hot hashed page; both are
    forgotten. -/
def sharedAndForgotten : List (Segment Nat) :=
  [⟨[allocate 0 [(0, true), (1, false)], allocate 1 [(0, true), (2, true)]], ownRows 2⟩,
   ⟨[.forgetRequest 0, .forgetRequest 1], ownRows 2⟩]

theorem slots_reclaimed_sharedAndForgotten :
    ∃ s, halfRaw.run sharedAndForgotten = .ok s ∧ s.AllFree 0 (halfRaw.layout 0) := by
  obtain ⟨s, hrun, hp⟩ := exists_ok_of_any (x := halfRaw.run sharedAndForgotten)
    (p := fun s => decide (s.ledger.entries = [])) (by decide +kernel)
  refine ⟨s, hrun, slots_reclaimed halfRaw sharedAndForgotten (by decide +kernel) hrun ?_ 0
    (by decide)⟩
  intro q hq
  exact hq (by simp [requestKeys, Dict.keys, of_decide_eq_true hp])

/-- A request with a hot hashed page that finds the raw pool empty; it is forgotten. -/
def demotedOverlay : List (Segment Nat) :=
  [⟨[allocate 0 [(0, true), (1, true), (2, true), (3, true), (4, true)]], ownRows 1⟩,
   ⟨[.forgetRequest 0], ownRows 1⟩]

/-- The overlay page 4 was demoted to the canonical warm slot 0, which no release looks for. -/
theorem slots_reclaimed_fails :
    ∃ s, quarterRaw.run demotedOverlay = .ok s ∧ (∀ q, ¬ Tracked s.ledger q) ∧
      ¬ s.AllFree 0 (quarterRaw.layout 0) := by
  obtain ⟨s, hrun, hp⟩ := exists_ok_of_any (x := quarterRaw.run demotedOverlay)
    (p := fun s => decide (s.ledger.entries = [] ∧
      ∀ free ∈ s.runtime.warmFreeSlots.get? 0, 0 ∉ free)) (by decide +kernel)
  obtain ⟨hempty, hleak⟩ := of_decide_eq_true hp
  refine ⟨s, hrun, fun q hq => hq (by simp [requestKeys, Dict.keys, hempty]), ?_⟩
  rintro ⟨-, free, hf, hall⟩
  exact hleak free hf (hall 0 (by decide +kernel))

end Sock.Tmh
