/-
  Low pressure: runs that stay in the raw pool.

  The runtime keeps a request raw when its pages fit the raw capacity per request, which is the
  raw pool divided by the number of sequences, and at least one page. Without prefix caching and
  sharing, held slots and tracked pages match one to one. So with no more requests and blocks than
  the cache is made for, the raw pool has a free slot whenever a page needs one, and no page is
  ever demoted (`low_pressure_stays_raw`).

  * `le_rawPages`: capacity times requests is at most the raw pool; a pool that is smaller than
    the number of sequences has a page for each block.
  * `RawOnly`: all held slots are raw ones, found by the releases of the tracked pages.
  * `RawOnly.available`: a tracked page holds its raw slot, or a raw slot is free.
-/
import Mathlib.Data.List.ProdSigma
import Sock.Tmh.Capacity

namespace Sock.Tmh

open Lib Lib.Dict Lib.Fallible Lib.RefCount PhysicalRuntime

variable {Req Layer : Type}

/-! ## The raw pool -/

/-- The raw pool has a page for each sequence, or for each block if these are fewer. -/
theorem min_le_rawPages (spec : FullAttentionSpec) (n : Nat) :
    min n spec.tmhMaxNumSeqs ≤ (spec.layout n).rawPages := by
  unfold FullAttentionSpec.layout FullAttentionSpec.physicalPoolPageCounts
  split
  · omega
  · dsimp only
    omega

/-- As many pages as fit the raw capacity of the allowed requests, and no more than there are
    blocks, fit the raw pool. -/
theorem le_rawPages {spec : FullAttentionSpec} {n requests pages : Nat}
    (hrequests : requests ≤ spec.tmhMaxNumSeqs) (hblocks : pages ≤ n)
    (hpages : pages ≤ requests * (spec.layout n).rawCapacityPagesPerRequest) :
    pages ≤ (spec.layout n).rawPages := by
  have hmin := min_le_rawPages spec n
  rcases Nat.lt_or_ge (spec.layout n).rawPages spec.tmhMaxNumSeqs with hsmall | hlarge
  · -- the pool is smaller than the number of sequences, so it has a page for each block
    omega
  · rcases Nat.eq_zero_or_pos spec.tmhMaxNumSeqs with h0 | hpos
    · have : requests = 0 := by omega
      rw [this, Nat.zero_mul] at hpages
      omega
    · have hquot : 1 ≤ (spec.layout n).rawPages / spec.tmhMaxNumSeqs :=
        (Nat.one_le_div_iff hpos).mpr hlarge
      have hcap : (spec.layout n).rawCapacityPagesPerRequest ≤
          (spec.layout n).rawPages / spec.tmhMaxNumSeqs := by
        unfold CacheLayout.rawCapacityPagesPerRequest
        have hspec : (spec.layout n).spec = spec := rfl
        rw [hspec, Nat.max_eq_right hpos]
        exact max_le hquot (Nat.min_le_right _ _)
      calc pages ≤ requests * (spec.layout n).rawCapacityPagesPerRequest := hpages
        _ ≤ spec.tmhMaxNumSeqs * ((spec.layout n).rawPages / spec.tmhMaxNumSeqs) :=
          Nat.mul_le_mul hrequests hcap
        _ ≤ (spec.layout n).rawPages := Nat.mul_div_le _ _

/-! ## The role of a page -/

/-- The role of a page of a request that is kept raw. -/
def rawRole (pageIndex : Int) : PageRole := if pageIndex = 0 then .pinnedRaw else .hotRaw

theorem rawRole_raw (pageIndex : Int) : (rawRole pageIndex).raw = true := by
  unfold rawRole
  split <;> rfl

theorem effectiveDescriptor_rawRole {cache : CacheLayout} {totalPages : Int}
    (h : totalPages ≤ cache.rawCapacityPagesPerRequest) (d : PhysicalPageDescriptor Req Layer) :
    (effectiveDescriptor cache d totalPages).role = rawRole d.pageIndex := by
  unfold effectiveDescriptor
  rw [if_neg (by omega)]
  show (if d.role = rawRole d.pageIndex then d else descriptorWithRole d (rawRole d.pageIndex)).role
    = rawRole d.pageIndex
  split
  · assumption
  · rfl

/-- A raw role under which a release of the descriptor looks is the page's raw role. -/
theorem eq_rawRole_of_releasable {cache : CacheLayout} {d : PhysicalPageDescriptor Req Layer}
    (hpin : d.role = .pinnedRaw ↔ d.pageIndex = 0) {k : PageRole} (hk : k.raw = true)
    (h : Releasable cache d.role k) : k = rawRole d.pageIndex := by
  unfold rawRole
  rcases h with rfl | ⟨hwarm, rfl⟩ | ⟨-, rfl⟩
  · split
    · next h0 => exact hpin.mpr h0
    · next h0 =>
        cases hrole : d.role with
        | pinnedRaw => exact absurd (hpin.mp hrole) h0
        | hotRaw => rfl
        | warmInt8Int4 =>
            rw [hrole] at hk
            cases hk
        | warmInt8Int8 =>
            rw [hrole] at hk
            cases hk
  · rw [if_neg]
    intro h0
    rw [hpin.mpr h0] at hwarm
    cases hwarm
  · rw [cache.warmRoleForCache_raw] at hk
    cases hk

/-- A release of the descriptor looks under the page's raw role. -/
theorem releasable_rawRole {cache : CacheLayout} {d : PhysicalPageDescriptor Req Layer}
    (hpin : d.role = .pinnedRaw ↔ d.pageIndex = 0) :
    Releasable cache d.role (rawRole d.pageIndex) := by
  unfold rawRole
  split
  · next h0 => exact .inl (hpin.mpr h0).symm
  · next h0 =>
      cases hrole : d.role with
      | pinnedRaw => exact absurd (hpin.mp hrole) h0
      | hotRaw => exact .inl rfl
      | warmInt8Int4 => exact .inr (.inl ⟨rfl, rfl⟩)
      | warmInt8Int8 => exact .inr (.inl ⟨rfl, rfl⟩)

/-! ## Runs under low pressure -/

variable [DecidableEq Req] [DecidableEq Layer]

/-- The requests with tracked pages. -/
def trackedRequests (ledger : Ledger Req Layer) : List Req := (ledger.keys.map Prod.fst).dedup

/-- What a run under low pressure promises about a call: afterwards nothing is prefix-cached or
    shared, and no more blocks and requests are tracked than each cache is made for; a record has
    at most the raw capacity of each cache. -/
def LowPressure (D : Deployment Layer) (s : System Req Layer) (call : Call Req) : Prop :=
  let ledger' := (s.policy.call call).physicalDescriptors
  Unshared ledger' ∧ (liveBlocks ledger').length ≤ D.numLogicalBlocks ∧
    ∀ l ∈ D.policy.layerNames, (trackedRequests ledger').length ≤ (D.specs l).tmhMaxNumSeqs ∧
      ∀ recorded ∈ call.recorded D.policy,
        recorded.1 ≤ (D.layout l).rawCapacityPagesPerRequest

instance (D : Deployment Layer) (s : System Req Layer) (call : Call Req) :
    Decidable (LowPressure D s call) := inferInstanceAs (Decidable (_ ∧ _ ∧ _))

/-- Tracked pages of a layer that fit its raw pool. -/
structure FitsRaw (D : Deployment Layer) (ledger : Ledger Req Layer) : Prop where
  unshared : Unshared ledger
  blocks : (liveBlocks ledger).length ≤ D.numLogicalBlocks
  requests : ∀ l ∈ D.policy.layerNames,
    (trackedRequests ledger).length ≤ (D.specs l).tmhMaxNumSeqs
  pages : ∀ key d, ledger.get? key = some d →
    d.pageIndex < (D.layout d.layerName).rawCapacityPagesPerRequest

/-- The held keys are raw ones, which the releases of the tracked pages will find; there are no
    overlays, and the rows have raw pages only. -/
structure RawOnly (D : Deployment Layer) (ledger : Ledger Req Layer)
    (rt : PhysicalRuntime Req Layer) : Prop extends Reclaimable D ledger rt where
  raw : ∀ l b k slot, rt.canonicalSlots.get? (l, b, k) = some slot → k.raw = true
  noOverlay : ∀ key, rt.overlaySlots.get? key = none
  rows : ∀ l row page e, rt.entry l row page = some e → e = .blank ∨ e.rawPool = true

section Pages

variable {D : Deployment Layer} {ledger ledger' : Ledger Req Layer}
  {rt rt' : PhysicalRuntime Req Layer}

theorem RawOnly.oneHolder (h : RawOnly D ledger rt) : OneHolder D ledger rt := by
  refine ⟨h.toReclaimable, ?_, ?_, ?_⟩ <;> simp [h.noOverlay]

theorem RawOnly.held_warm (h : RawOnly D ledger rt) (l : Layer) : rt.held false l = [] := by
  rw [List.eq_nil_iff_forall_not_mem]
  intro slot hm
  rw [held, if_neg Bool.false_ne_true, List.append_nil] at hm
  obtain ⟨⟨l', b, k⟩, hkey, hk⟩ := mem_select.mp hm
  obtain ⟨-, hwarm⟩ := of_decide_eq_true hkey
  rw [h.raw _ _ _ _ hk] at hwarm
  cases hwarm

/-- A block of a tracked page is held under the page's raw role, if at all. -/
theorem RawOnly.held_role (h : RawOnly D ledger rt) (hl : LedgerInv D.policy ledger)
    (hun : Unshared ledger) {key : Req × Layer × Int} {d : PhysicalPageDescriptor Req Layer}
    (hd : ledger.get? key = some d) {k : PageRole} {slot : Nat}
    (hk : rt.canonicalSlots.get? (d.layerName, d.logicalBlockId, k) = some slot) :
    k = rawRole d.pageIndex := by
  obtain ⟨key', d', hd', -, hlay, hblock, hrel⟩ := h.support _ _ _ _ hk
  have heq := hun.2 d' (mem_values.mpr ⟨_, hd'⟩) d (mem_values.mpr ⟨_, hd⟩) hlay hblock
  subst heq
  exact eq_rawRole_of_releasable (hl.page _ _ hd).zone_pinned (h.raw _ _ _ _ hk) hrel

/-- The tracked pages of a layer. -/
def layerPages (ledger : Ledger Req Layer) (l : Layer) : List (PhysicalPageDescriptor Req Layer) :=
  ledger.values.filter fun d => decide (d.layerName = l)

omit [DecidableEq Req] in
theorem mem_layerPages {l : Layer} {d : PhysicalPageDescriptor Req Layer} :
    d ∈ layerPages ledger l ↔ d ∈ ledger.values ∧ d.layerName = l := by
  rw [layerPages, List.mem_filter, decide_eq_true_eq]

/-- A layer has at most the raw capacity of pages for each tracked request. -/
theorem FitsRaw.length_layerPages (h : FitsRaw D ledger) (hl : LedgerInv D.policy ledger)
    (l : Layer) : (layerPages ledger l).length ≤
      (trackedRequests ledger).length * (D.layout l).rawCapacityPagesPerRequest := by
  let place (d : PhysicalPageDescriptor Req Layer) : Req × Nat := (d.requestId, d.pageIndex.toNat)
  have hnodup : ((layerPages ledger l).map place).Nodup := by
    have hvalues : ledger.values.Nodup := values_nodup fun k k' d hd hd' =>
      (hl.key _ _ hd).symm.trans (hl.key _ _ hd')
    refine List.Nodup.map_on ?_ (hvalues.filter _)
    intro d hd d' hd' heq
    obtain ⟨hm, hlay⟩ := mem_layerPages.mp hd
    obtain ⟨hm', hlay'⟩ := mem_layerPages.mp hd'
    obtain ⟨key, hget⟩ := mem_values.mp hm
    obtain ⟨key', hget'⟩ := mem_values.mp hm'
    have h0 := (hl.page _ _ hget).1
    have h0' := (hl.page _ _ hget').1
    obtain ⟨hq, hp⟩ := Prod.mk.inj heq
    have hkey : d.key = d'.key := by
      rw [PhysicalPageDescriptor.key, PhysicalPageDescriptor.key, hq, hlay, hlay',
        show d.pageIndex = d'.pageIndex by omega]
    rw [← hl.key _ _ hget, hkey, hl.key _ _ hget', hget'] at hget
    exact (Option.some.inj hget).symm
  have hsub : (layerPages ledger l).map place ⊆
      trackedRequests ledger ×ˢ List.range (D.layout l).rawCapacityPagesPerRequest := by
    intro x hx
    obtain ⟨d, hd, rfl⟩ := List.mem_map.mp hx
    obtain ⟨hm, hlay⟩ := mem_layerPages.mp hd
    obtain ⟨key, hget⟩ := mem_values.mp hm
    have hpage := h.pages _ _ hget
    rw [hlay] at hpage
    have h0 := (hl.page _ _ hget).1
    refine List.mem_product.mpr ⟨?_, List.mem_range.mpr (by omega)⟩
    rw [trackedRequests, List.mem_dedup, List.mem_map]
    exact ⟨key, mem_keys.mpr ⟨d, hget⟩, by rw [← hl.key _ _ hget]; rfl⟩
  have hle := (List.subperm_of_subset hnodup hsub).length_le
  rwa [List.length_map, List.length_product, List.length_range] at hle

/-- The blocks that a layer holds slots for have canonical ones. -/
theorem RawOnly.heldBlocks_canonical (h : RawOnly D ledger rt) {l : Layer} {b : Int}
    (hb : b ∈ heldBlocks ledger rt l) : ∃ k slot, rt.canonicalSlots.get? (l, b, k) = some slot := by
  rcases h.oneHolder.heldBlocks_cases hb with hs | ⟨q, p, slot, d, hs, -⟩
  · exact hs
  · rw [h.noOverlay] at hs
    cases hs

/-- **Counting.** A tracked page holds its raw slot, or a raw slot is free: the raw pool has a
    page for each tracked page of the layer. -/
theorem RawOnly.available (h : RawOnly D ledger rt) (hinv : PoolInv D.layouts.get? rt)
    (hl : LedgerInv D.policy ledger) (hfits : FitsRaw D ledger)
    {d : PhysicalPageDescriptor Req Layer} (hd : ledger.get? d.key = some d) :
    rt.rawFree d.layerName = true ∨
      ∃ slot, rt.canonicalSlots.get? (d.layerName, d.logicalBlockId, rawRole d.pageIndex) =
        some slot := by
  by_contra hno
  push Not at hno
  obtain ⟨hfree, hnone⟩ := hno
  have hlayer := (hl.page _ _ hd).mem_layerNames
  obtain ⟨free, hf, hp⟩ := hinv.pool _ _ true (D.layouts_get? hlayer)
  have hnil : free = [] := by_contra fun hne => hfree ((rawFree_eq_true hf).mpr hne)
  have hfull : (rt.held true d.layerName).length = (D.layout d.layerName).rawPages :=
    length_held_of_empty hinv hlayer true (hnil ▸ hf)
  have hnew : d.logicalBlockId ∉ heldBlocks ledger rt d.layerName := by
    intro hm
    obtain ⟨k, slot, hs⟩ := h.heldBlocks_canonical hm
    have hrole := h.held_role hl hfits.unshared hd hs
    exact hnone slot (hrole ▸ hs)
  have hpages : heldBlocks ledger rt d.layerName ⊆
      (layerPages ledger d.layerName).map PhysicalPageDescriptor.logicalBlockId := by
    intro b hb
    obtain ⟨k, slot, hs⟩ := h.heldBlocks_canonical hb
    obtain ⟨key, e, he, -, hlay, hblock, -⟩ := h.support _ _ _ _ hs
    exact List.mem_map.mpr ⟨e, mem_layerPages.mpr ⟨mem_values.mpr ⟨_, he⟩, hlay⟩, hblock⟩
  have hlt := h.oneHolder.length_heldBlocks_lt (fun _ hb => h.oneHolder.heldBlocks_live hb)
    (mem_liveBlocks hd) hnew
  have hlt' := h.oneHolder.length_heldBlocks_lt hpages
    (List.mem_map_of_mem (mem_layerPages.mpr ⟨mem_values.mpr ⟨_, hd⟩, rfl⟩)) hnew
  rw [List.length_map] at hlt'
  have hbound : (heldBlocks ledger rt d.layerName).length + 1 ≤
      (D.layout d.layerName).rawPages :=
    le_rawPages (hfits.requests _ hlayer) (Nat.le_trans hlt hfits.blocks)
      (Nat.le_trans hlt' (hfits.length_layerPages hl d.layerName))
  rw [length_heldBlocks, hfull] at hbound
  omega

/-- A page of a short record is placed raw, as the raw capacity has it. -/
theorem RawOnly.placement_eq (h : RawOnly D ledger rt) (hinv : PoolInv D.layouts.get? rt)
    (hl : LedgerInv D.policy ledger) (hfits : FitsRaw D ledger)
    {d : PhysicalPageDescriptor Req Layer} (hd : ledger.get? d.key = some d) {totalPages : Int}
    (hcap : totalPages ≤ (D.layout d.layerName).rawCapacityPagesPerRequest) :
    rt.placement (D.layout d.layerName) d totalPages =
      effectiveDescriptor (D.layout d.layerName) d totalPages := by
  have hrole := effectiveDescriptor_rawRole hcap d
  have hre := effectiveDescriptor_reroled (D.layout d.layerName) d totalPages
  have hs : (effectiveDescriptor (D.layout d.layerName) d totalPages).storage = .canonical := by
    rw [hre.storage (hl.page _ _ hd).storage, hre.prefixCached,
      hfits.unshared.1 d (mem_values.mpr ⟨_, hd⟩), storageKindForRole_false]
  refine placedDescriptor_of_raw (hrole ▸ rawRole_raw _) ?_
  refine (h.available hinv hl hfits hd).imp_right fun ⟨slot, hk⟩ => ⟨hs, ?_⟩
  rw [hre.logicalBlockId, hrole, hk]
  rfl

theorem RawOnly.freed (h : RawOnly D ledger rt) (hl : LedgerInv D.policy ledger) {q : Req}
    {released : List (PhysicalPageDescriptor Req Layer)}
    (hr : ReleaseSpec ledger ledger' released) (hf : Freed D.layouts.get? rt q released rt')
    (hother : ∀ q', q' ≠ q → ∀ l p, ledger'.get? (q', l, p) = ledger.get? (q', l, p))
    (hrows : ∀ l row page e, rt'.entry l row page = some e →
      e = .blank ∨ rt.entry l row page = some e) : RawOnly D ledger' rt' where
  toReclaimable := h.toReclaimable.freed hl hr hf hother
  raw l b k slot hk := h.raw l b k slot (hf.sub _ _ hk)
  noOverlay key := by
    rw [hf.overlay, h.noOverlay]
    exact ite_self none
  rows l row page e he := (hrows l row page e he).elim .inl (h.rows l row page e)

theorem RawOnly.placed (h : RawOnly D ledger rt) (hinv : PoolInv D.layouts.get? rt)
    (hl : LedgerInv D.policy ledger) (hfits : FitsRaw D ledger)
    {d : PhysicalPageDescriptor Req Layer} (hd : ledger.get? d.key = some d) {totalPages : Int}
    (hcap : totalPages ≤ (D.layout d.layerName).rawCapacityPagesPerRequest) {row page slot : Nat}
    (hp : PlacedAt rt (D.layout d.layerName) totalPages d row page slot rt') :
    RawOnly D ledger rt' := by
  have hplace := h.placement_eq hinv hl hfits hd hcap
  have hrole : (rt.placement (D.layout d.layerName) d totalPages).role = rawRole d.pageIndex := by
    rw [hplace, effectiveDescriptor_rawRole hcap]
  have hplain : d.prefixCached = false := hfits.unshared.1 d (mem_values.mpr ⟨_, hd⟩)
  have hstore : d.storage = .canonical := by
    rw [(hl.page _ _ hd).storage, hplain, storageKindForRole_false]
  have hre := rt.placement_reroled (D.layout d.layerName) d totalPages
  have hcan : (rt.placement (D.layout d.layerName) d totalPages).storage = .canonical := by
    rw [hre.storage (hl.page _ _ hd).storage, hre.prefixCached, hplain, storageKindForRole_false]
  have hreclaims : Site.Reclaims D ⟨ledger, rt, totalPages, d⟩ := by
    intro _ hfresh
    refine ⟨hstore, ?_, ?_⟩
    · show Releasable _ _ (rt.placement (D.layout d.layerName) d totalPages).role
      rw [hrole]
      exact releasable_rawRole (hl.page _ _ hd).zone_pinned
    · -- a slot held for the block is held under the page's own key
      rintro ⟨l, b, k⟩ hk ⟨rfl, rfl⟩
      obtain ⟨s, hs⟩ := mem_keys.mp hk
      change rt.canonicalSlots.get? (_, _, (rt.placement _ d totalPages).role) = none at hfresh
      rw [hrole, ← h.held_role hl hfits.unshared hd hs, hs] at hfresh
      cases hfresh
  refine ⟨h.toReclaimable.placed hp hd hreclaims, ?_, ?_, ?_⟩
  · intro l b k s hk
    rw [hp.canonical] at hk
    split at hk
    · next hnew =>
        obtain ⟨-, he⟩ := hnew
        cases he
        rw [hrole, rawRole_raw]
    · exact h.raw l b k s hk
  · intro key
    rw [hp.overlay, if_neg, h.noOverlay]
    rintro ⟨hover, -⟩
    cases hcan.symm.trans hover
  · intro l row' page' e he
    rw [hp.entry] at he
    split at he
    · cases he
      rw [RowEntry.rawPool_of, hrole, rawRole_raw]
      exact .inr rfl
    · exact h.rows l row' page' e he

/-- After a call under low pressure the tracked pages fit. -/
theorem FitsRaw.call {s : System Req Layer} {call : Call Req} (h : FitsRaw D s.ledger)
    (hinv : SystemInv D s) (hC : LowPressure D s call) :
    FitsRaw D (s.policy.call call).physicalDescriptors := by
  obtain ⟨hun, hblocks, hlayers⟩ := hC
  refine ⟨hun, hblocks, fun l hl => (hlayers l hl).1, ?_⟩
  have hspec := hinv.callSpec call
  generalize (s.policy.call call).physicalDescriptors = ledger' at hspec
  generalize s.policy.queuedBy call = events at hspec
  intro key d hd
  cases hspec with
  | silent => exact h.pages key d hd
  | @record _ event _ hcall hq hchanges hrec =>
      by_cases hm : key ∈ event.descriptors.map PhysicalPageDescriptor.key
      · obtain ⟨e, he, rfl⟩ := List.mem_map.mp hm
        cases Option.some.inj ((hrec.put e he).symm.trans hd)
        have hcap := (hlayers _ (hrec.page d he).mem_layerNames).2 _ hcall
        exact Int.lt_of_lt_of_le (hrec.inside d he) hcap
      · exact h.pages key d ((hrec.keep key hm).symm.trans hd)
  | forget hcall hfor =>
      rw [hfor.drop] at hd
      split at hd
      · cases hd
      · exact h.pages key d hd

/-- The release phase of a record. -/
theorem RawOnly.prepared {event : PhysicalEvent Req Layer} {row : Nat} (h : RawOnly D ledger rt)
    (hl : LedgerInv D.policy ledger) (hspec : RecordSpec D.policy ledger ledger' event)
    (hp : Prepared D.layouts.get? rt event row rt') : RawOnly D ledger' rt' := by
  refine h.freed hl hspec.released hp.freed (fun q hq => hspec.other hq) ?_
  intro l row' page e he
  by_cases hrow : row' = row
  · subst hrow
    exact .inl (hp.blank l page e he)
  · rw [hp.other l row' page hrow] at he
    exact .inr he

end Pages

theorem rawOnly_rule (D : Deployment Layer) :
    RunRule D
      (fun _ (s : System Req Layer) => FitsRaw D s.ledger ∧ RawOnly D s.ledger s.runtime)
      (LowPressure D) (fun _ _ => True) where
  start := by
    refine ⟨⟨⟨?_, ?_⟩, Nat.zero_le _, fun _ _ => Nat.zero_le _, ?_⟩, (reclaimable_rule D).start,
      by simp, by simp, fun l row page e he => .inl (D.start_entry he)⟩
    · exact fun d hd => absurd hd List.not_mem_nil
    · exact fun d hd => absurd hd List.not_mem_nil
    · intro key d hd
      cases hd
  enter _ _ _ h := h
  drain _ h := h
  tick s call rest s' hC ht h := by
    obtain ⟨hfits, h⟩ := h
    have hledger : s'.ledger = (s.policy.call call).physicalDescriptors := by
      rw [System.ledger, ht.policy]
    have hfits' : FitsRaw D s'.ledger := hledger ▸ hfits.call ht.before hC
    refine ⟨hfits', ?_⟩
    cases ht.ticked with
    | silent _ _ hsame hruntime => rwa [hsame, hruntime]
    | record hr =>
        obtain ⟨pages, hcall, -⟩ := hr.recorded
        refine hr.loop_rule (J := fun _ rt => RawOnly D s'.ledger rt) (C := fun _ => True)
          (fun _ _ => trivial) ?_ (h.prepared ht.before.ledger hr.spec hr.prepared)
        intro d rest hd rt rt' row page slot _ hinv hp hJ
        exact hJ.placed hinv ht.after.ledger hfits' (hr.spec.put d hd)
          ((hC.2.2 _ (hr.spec.page d hd).mem_layerNames).2 _ hcall) hp
    | forget hf =>
        exact h.freed ht.before.ledger hf.spec.released hf.freed (fun q hq => hf.spec.other hq)
          fun l row page e he => .inr (hf.entry l row page ▸ he)

/-- **Low pressure stays raw.** In every run without prefix caching and sharing, in which no more
    requests and blocks are tracked than the caches are made for and every record has at most the
    raw capacity: no application demotes (or promotes) its page, each is placed in the raw pool,
    and afterwards no warm slot is held and every recorded row role is pinned or hot raw. -/
theorem low_pressure_stays_raw (D : Deployment Layer) (segs : List (Segment Req))
    (hcalls : ∀ x ∈ D.start.moments segs, LowPressure D x.1 x.2) :
    (∀ x ∈ D.start.moments segs, ∀ site ∈ x.1.sites x.2,
      site.placed D = effectiveDescriptor (D.layout site.descriptor.layerName) site.descriptor
          site.totalPages ∧ (site.placed D).role.raw = true) ∧
      ∀ s, D.run segs = .ok s → ∀ l, s.runtime.held false l = [] ∧
        ∀ row page e, s.runtime.entry l row page = some e → e = .blank ∨ e.rawPool = true := by
  constructor
  · intro x hx site hsite
    obtain ⟨hinv, hfits, h⟩ := (rawOnly_rule D).moments (fun _ _ => trivial) hcalls x hx
    have hC := hcalls x hx
    obtain ⟨event, pages, row, rt, hcall, hspec, hprepared, v, hv, rfl⟩ := hinv.mem_sites hsite
    have hfits' := hfits.call hinv hC
    have hl' := (hinv.callSpec x.2).ledgerInv hinv.ledger
    have hcap : ∀ d ∈ event.descriptors,
        event.totalPages ≤ (D.layout d.layerName).rawCapacityPagesPerRequest := fun d hd =>
      (hC.2.2 _ (hspec.page d hd).mem_layerNames).2 _ hcall
    have hkeeps : LoopKeeps D (x.1.policy.call x.2).physicalDescriptors event.totalPages
        event.descriptors (fun _ => True)
        fun _ => RawOnly D (x.1.policy.call x.2).physicalDescriptors := by
      intro d rest hd rt rt' row page slot _ hinv hp hJ
      exact hJ.placed hinv hl' hfits' (hspec.put d hd) (hcap d hd) hp
    obtain ⟨⟨hpool, hJ⟩, hd⟩ := hkeeps.visits hprepared.freed.inv
      (h.prepared hinv.ledger hspec hprepared) v hv
    have hplace := hJ.placement_eq hpool hl' hfits' (hspec.put _ hd) (hcap _ hd)
    refine ⟨hplace, ?_⟩
    rw [Site.placed, hplace, effectiveDescriptor_rawRole (hcap _ hd), rawRole_raw]
  · intro s hrun l
    obtain ⟨-, -, h⟩ := (rawOnly_rule D).run (fun _ _ => trivial) hcalls hrun
    exact ⟨h.held_warm l, h.rows l⟩

/-- One layer, eighteen blocks for two requests: six raw pages, three for each. -/
def sixRaw : Deployment Nat :=
  .ofEqualLayers 1 ⟨1, 25, true, 2, 4⟩ (fun _ => true) 18

/-- Two requests that fill the raw pool; the first is forgotten and another takes its place. -/
def threePagesEach : List (Segment Nat) :=
  [⟨[allocate 0 [(0, false), (1, false), (2, false)], allocate 1 [(3, false), (4, false)]],
      ownRows 2⟩,
   ⟨[allocate 1 [(3, false), (4, false), (5, false)]], ownRows 2⟩,
   ⟨[.forgetRequest 0, allocate 2 [(6, false), (7, false), (8, false)]], swappedRows⟩]

theorem low_pressure_threePagesEach :
    ∃ s, sixRaw.run threePagesEach = .ok s ∧
      (s.ledger.get? (2, 0, 1)).map PhysicalPageDescriptor.role = some .warmInt8Int8 ∧
      s.runtime.held false 0 = [] ∧
      ∀ row page e, s.runtime.entry 0 row page = some e → e = .blank ∨ e.rawPool = true := by
  obtain ⟨s, hrun, hp⟩ := exists_ok_of_any (x := sixRaw.run threePagesEach)
    (p := fun s => decide ((s.ledger.get? (2, 0, 1)).map PhysicalPageDescriptor.role =
      some .warmInt8Int8)) (by decide +kernel)
  obtain ⟨hwarm, hrows⟩ := (low_pressure_stays_raw sixRaw threePagesEach (by decide +kernel)).2
    s hrun 0
  exact ⟨s, hrun, of_decide_eq_true hp, hwarm, hrows⟩

end Sock.Tmh
