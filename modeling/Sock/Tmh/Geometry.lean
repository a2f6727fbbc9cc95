/-
  The pool of a page, as the kernels compute it and as the runtime chose it.

  The kernels recompute from page index and length whether a page is raw. The policy makes the
  same computation when it records a page, with its own configuration and without wrapping; the
  runtime then moves pages between the pools as free slots come and go. So the kernels read the
  pool the slot was taken from when the two configurations agree and no page is moved
  (`pools_agree`). A warm page that finds a free raw slot is promoted, and the kernels read a
  warm page at its slot (`pools_agree_fails`).

  * `kernelRaw_eq`: the kernels' test, in the policy's terms.
-/
import Mathlib.Tactic.Linarith
import Sock.Tmh.Kernels

namespace Sock.Tmh

open Lib Lib.Fallible Lib.RefCount PhysicalRuntime

/-! ## Rounding up -/

theorem int32_eq {x : Int} (hlo : -(2 ^ 31) ≤ x) (hhi : x < 2 ^ 31) : int32 x = x := by
  unfold int32
  rw [Int.bmod_eq_of_le] <;> omega

theorem int32_wrapped {x : Int} (hlo : 2 ^ 31 ≤ x) (hhi : x < 2 ^ 32) : int32 x = x - 2 ^ 32 := by
  unfold int32 Int.bmod
  simp only [Nat.reducePow, Nat.cast_ofNat]
  split <;> omega

/-- A number too large for 32 bits loses at least `2 ^ 32`. -/
theorem int32_le_sub {x : Int} (h : 2 ^ 31 ≤ x) : int32 x ≤ x - 2 ^ 32 := by
  unfold int32 Int.bmod
  simp only [Nat.reducePow, Nat.cast_ofNat]
  split <;> omega

theorem int32_add (x y : Int) : int32 (int32 x + y) = int32 (x + y) := by
  unfold int32
  exact Int.bmod_add_bmod

theorem tdiv_nonpos {x y : Int} (hx : x ≤ 0) (hy : 0 ≤ y) : x.tdiv y ≤ 0 := by
  have hneg := Int.tdiv_nonneg (Int.neg_nonneg_of_nonpos hx) hy
  rw [Int.neg_tdiv] at hneg
  omega

theorem le_tdiv_iff {x y m : Int} (hy : 0 < y) (hm : 0 < m) : m ≤ x.tdiv y ↔ m * y ≤ x := by
  rcases Int.le_total 0 x with hx | hx
  · rw [Int.tdiv_eq_ediv_of_nonneg hx, Int.le_ediv_iff_mul_le hy]
  · have hdiv := tdiv_nonpos hx (Int.le_of_lt hy)
    have hprod := Int.mul_pos hm hy
    exact ⟨fun h => by omega, fun h => by omega⟩

/-- The two ways to round a quotient up. -/
theorem add_sub_one_ediv (x : Int) {y : Int} (hy : 0 < y) : (x + y - 1) / y = -(-x / y) := by
  have hmod := Int.emod_add_mul_ediv (-x) y
  have hlo := Int.emod_nonneg (-x) (Int.ne_of_gt hy)
  have hhi := Int.emod_lt_of_pos (-x) hy
  have hx : x + y - 1 = (y - 1 - -x % y) + y * -(-x / y) := by
    rw [Int.mul_neg]
    omega
  rw [hx, Int.add_mul_ediv_left _ _ (Int.ne_of_gt hy), Int.ediv_eq_zero_of_lt (by omega) (by omega),
    Int.zero_add]

/-- `cdiv_fn` rounds up where nothing wraps. -/
theorem cdivFn_eq {x y : Int} (hx : 0 ≤ x) (hy : 0 < y) (h : x + y ≤ 2 ^ 31) :
    cdivFn x y = -(-x / y) := by
  unfold cdivFn
  rw [int32_eq (by omega) (by omega), Int.tdiv_eq_ediv_of_nonneg (by omega), add_sub_one_ediv x hy]

theorem cdivFn_nonpos {x y : Int} (hx : x ≤ 0) (hy : 0 < y) (hlo : -(2 ^ 31) ≤ x)
    (h : y ≤ 2 ^ 31) : cdivFn x y ≤ 0 := by
  unfold cdivFn
  rw [int32_eq (by omega) (by omega)]
  rcases Int.le_total 0 (x + y - 1) with h0 | h0
  · rw [Int.tdiv_eq_ediv_of_nonneg h0, Int.ediv_eq_zero_of_lt h0 (by omega)]
  · exact tdiv_nonpos h0 (Int.le_of_lt hy)

/-! ## The test in the policy's terms -/

section Test

variable {Layer : Type}

/-- The policy's pages are the cache's blocks, and both have the same hot budget, a whole number
    of hundredths of a percent once it is clamped. -/
structure SameGeometry (c : PolicyConfig Layer) (spec : FullAttentionSpec) : Prop where
  pageTokens : c.pageTokens = spec.blockSize
  hotBudgetPct : c.hotBudgetPct = spec.tmhHotBudgetPct
  bps : ∃ n : Nat, max 0 (min 100 spec.tmhHotBudgetPct) * 100 = n

/-- The page count of a length, as the policy records it. -/
def PolicyConfig.pagesOf (c : PolicyConfig Layer) (totalTokens : Int) : Int :=
  c.totalPages (max 1 totalTokens)

/-- The kernels' arithmetic on the length does not wrap. -/
structure Fits (c : PolicyConfig Layer) (totalTokens : Int) : Prop where
  low : -(2 ^ 31) ≤ totalTokens
  high : max 0 totalTokens + c.pageTokens ≤ 2 ^ 31
  pages : c.pagesOf totalTokens * 10000 + 10000 ≤ 2 ^ 31

instance (c : PolicyConfig Layer) (totalTokens : Int) : Decidable (Fits c totalTokens) :=
  decidable_of_iff (_ ∧ _ ∧ _) ⟨fun ⟨hl, hh, hp⟩ => ⟨hl, hh, hp⟩, fun ⟨hl, hh, hp⟩ => ⟨hl, hh, hp⟩⟩

variable {c : PolicyConfig Layer} {cache : CacheLayout}

/-- The hot pages, with a budget in hundredths of a percent. -/
theorem cdivFn_bps {totalPages : Int} {n : Nat} (h0 : 0 ≤ totalPages) (hn : n ≤ 10000)
    (hfit : totalPages * 10000 + 10000 ≤ 2 ^ 31) :
    cdivFn (int32 (totalPages * n)) 10000 = ⌈(totalPages : ℚ) * n / 10000⌉ := by
  have hprod : totalPages * n ≤ totalPages * 10000 := Int.mul_le_mul_of_nonneg_left (by omega) h0
  have hprod0 : 0 ≤ totalPages * (n : Int) := Int.mul_nonneg h0 (by omega)
  rw [int32_eq (by omega) (by omega), cdivFn_eq hprod0 (by omega) (by omega)]
  have hceil := Rat.ceil_intCast_div_natCast (totalPages * n) 10000
  push_cast at hceil
  exact hceil.symm

/-- The policy does not clamp its budget, but the result is the same. -/
theorem PolicyConfig.hotPages_clamped (c : PolicyConfig Layer) {totalPages : Int}
    (h1 : 1 ≤ totalPages) : c.hotPages totalPages =
      min totalPages ⌈(totalPages : ℚ) * (max 0 (min 100 c.hotBudgetPct) * 100) / 10000⌉ := by
  have hscale : ∀ pct : ℚ, (totalPages : ℚ) * (pct * 100) / 10000 = totalPages * pct / 100 := by
    intro pct
    ring
  unfold hotPages
  simp only [Rounding.exact_apply]
  rw [hscale]
  split
  · next hpct =>
      rw [max_eq_left ((min_le_right _ _).trans hpct), mul_zero, zero_div, Int.ceil_zero]
      omega
  · next hpct =>
      push Not at hpct
      rcases le_total c.hotBudgetPct 100 with h100 | h100
      · rw [min_eq_right h100, max_eq_right hpct.le]
      · -- a budget of everything, or more: both windows are the whole request
        have hfull : totalPages ≤ ⌈(totalPages : ℚ) * c.hotBudgetPct / 100⌉ := by
          have hpages : (0 : ℚ) ≤ totalPages := by exact_mod_cast (by omega : 0 ≤ totalPages)
          have hge : (totalPages : ℚ) ≤ totalPages * c.hotBudgetPct / 100 := by
            rw [le_div_iff₀ (by norm_num)]
            exact mul_le_mul_of_nonneg_left h100 hpages
          exact_mod_cast hge.trans (Int.le_ceil _)
        rw [min_eq_left hfull, min_eq_left h100, max_eq_right (by norm_num),
          mul_div_cancel_right₀ _ (by norm_num), Int.ceil_intCast, min_self]

theorem SameGeometry.hotPages (h : SameGeometry c cache.spec) {totalPages : Int}
    (h1 : 1 ≤ totalPages) (hfit : totalPages * 10000 + 10000 ≤ 2 ^ 31) :
    min totalPages (cdivFn (int32 (totalPages * tmhHotBudgetBps cache)) 10000) =
      c.hotPages totalPages := by
  obtain ⟨n, hn⟩ := h.bps
  have hbps : tmhHotBudgetBps cache = n := by
    unfold tmhHotBudgetBps
    rw [hn, roundHalfEven_natCast]
  have hle : n ≤ 10000 := by
    have hclamp : max 0 (min 100 cache.spec.tmhHotBudgetPct) ≤ 100 :=
      max_le (by norm_num) (min_le_left _ _)
    have hq : (n : ℚ) ≤ 10000 := by
      rw [← hn]
      linarith
    exact_mod_cast hq
  rw [hbps, cdivFn_bps (by omega) hle hfit, c.hotPages_clamped h1, h.hotBudgetPct, hn]

theorem PolicyConfig.pagesOf_of_nonpos (c : PolicyConfig Layer) {n : Int} (h : n ≤ 0) :
    c.pagesOf n = 1 := by
  unfold pagesOf totalPages
  have hpos : (0 : Int) < c.pageTokens := by exact_mod_cast c.pageTokens_pos
  rw [max_eq_left (by omega : n ≤ 1), ← add_sub_one_ediv 1 hpos,
    show (1 : Int) + c.pageTokens - 1 = c.pageTokens by omega, Int.ediv_self (by omega)]
  rfl

theorem PolicyConfig.pagesOf_of_pos (c : PolicyConfig Layer) {n : Int} (h : 0 < n) :
    c.pagesOf n = -(-n / (c.pageTokens : Int)) := by
  unfold pagesOf totalPages
  have hpos : (0 : Int) < c.pageTokens := by exact_mod_cast c.pageTokens_pos
  have hge : (1 : Int) ≤ (n + c.pageTokens - 1) / c.pageTokens :=
    (Int.le_ediv_iff_mul_le hpos).mpr (by omega)
  rw [add_sub_one_ediv n hpos] at hge
  rw [max_eq_right (by omega : (1 : Int) ≤ n), max_eq_right hge]

/-- **The kernels' test.** With the same geometry and without wrapping, the kernels take a page
    for raw when the request fits the raw capacity or the page is pinned or in the policy's
    recent window. -/
theorem kernelRaw_eq (h : SameGeometry c cache.spec) {n : Int} (hfit : Fits c n) (page : Int) :
    kernelRaw cache page n = decide (c.pagesOf n ≤ cache.rawCapacityPagesPerRequest ∨ page = 0 ∨
      page ≥ c.recentStartPage (c.pagesOf n)) := by
  have hcap := cache.rawCapacityPagesPerRequest_pos
  have hpos : (0 : Int) < cache.spec.blockSize := by
    rw [← h.pageTokens]
    exact_mod_cast c.pageTokens_pos
  have hhigh := hfit.high
  rw [h.pageTokens] at hhigh
  unfold kernelRaw
  rw [tmhRawOnlyPages_eq]
  rcases Int.lt_or_le 0 n with hn | hn
  · have hpages : cdivFn n cache.spec.blockSize = c.pagesOf n := by
      rw [cdivFn_eq (by omega) hpos (by omega), c.pagesOf_of_pos hn, h.pageTokens]
    have hwindow : tmhPageIsRaw page n cache.spec.blockSize (tmhHotBudgetBps cache) =
        decide (page = 0 ∨ page ≥ c.recentStartPage (c.pagesOf n)) := by
      have h1 : 1 ≤ c.pagesOf n := c.totalPages_pos _
      have hhot : c.hotPages (c.pagesOf n) ≤ c.pagesOf n := by
        rw [c.hotPages_clamped h1]
        exact min_le_left _ _
      unfold tmhPageIsRaw PolicyConfig.recentStartPage
      simp only [hpages, h.hotPages h1 hfit.pages]
      rw [max_eq_right (by omega : (0 : Int) ≤ c.pagesOf n - c.hotPages (c.pagesOf n))]
    rw [hpages, hwindow, ← Bool.decide_or]
  · have hpages := cdivFn_nonpos hn hpos hfit.low (by omega)
    have hlen : c.pagesOf n = 1 := c.pagesOf_of_nonpos hn
    rw [decide_eq_true (by omega), Bool.true_or, hlen, decide_eq_true (.inl (by omega))]

end Test

/-! ## Pages that stay in their pool -/

variable {Req Layer : Type} [DecidableEq Req] [DecidableEq Layer]

/-- Neither promotion nor demotion applies: a raw page finds a free raw slot or the slot held
    under its key, a warm page finds no free raw slot. -/
def Site.Unmoved (D : Deployment Layer) (site : Site Req Layer) : Prop :=
  let l := site.descriptor.layerName
  let d := effectiveDescriptor (D.layout l) site.descriptor site.totalPages
  (d.role.raw = true → site.runtime.rawFree l = true ∨ d.storage = .canonical ∧
      (site.runtime.canonicalSlots.get? (l, d.logicalBlockId, d.role)).isSome) ∧
    (d.role.raw = false → site.runtime.rawFree l = false)

instance (D : Deployment Layer) (site : Site Req Layer) : Decidable (site.Unmoved D) :=
  inferInstanceAs (Decidable (_ ∧ _))

omit [DecidableEq Req] in
theorem Site.Unmoved.placement_raw {D : Deployment Layer} {site : Site Req Layer}
    (h : site.Unmoved D) : (site.runtime.placement (D.layout site.descriptor.layerName)
      site.descriptor site.totalPages).role.raw =
        (decide (site.totalPages ≤ (D.layout site.descriptor.layerName).rawCapacityPagesPerRequest)
          || site.descriptor.role.raw) := by
  rw [← effectiveDescriptor_raw]
  unfold placement
  cases hraw : (effectiveDescriptor (D.layout site.descriptor.layerName) site.descriptor
      site.totalPages).role.raw with
  | true => rw [placedDescriptor_of_raw hraw (h.1 hraw), hraw]
  | false => rw [placedDescriptor_of_warm hraw (h.2 hraw)]

/-! ## Agreement along runs -/

/-- The length a call records. -/
def Call.tokens : Call Req → Option Int
  | .recordAllocation _ totalTokens _ _ => some totalTokens
  | .recordBlockIds _ totalTokens _ _ => some totalTokens
  | .forgetRequest _ => none

theorem noteLength_get? (lengths : Dict Req Int) (call : Call Req) :
    (noteLength lengths call).get? call.requestId = call.tokens := by
  cases call with
  | recordAllocation q t p bs => exact (Dict.get?_set _ _ _ _).trans (if_pos rfl)
  | recordBlockIds q t ids ps => exact (Dict.get?_set _ _ _ _).trans (if_pos rfl)
  | forgetRequest q => exact (Dict.get?_erase _ _ _).trans (if_pos rfl)

omit [DecidableEq Req] [DecidableEq Layer] in
theorem Call.tokens_of_recorded {c : PolicyConfig Layer} {call : Call Req} {totalPages : Int}
    {logicalPages : List (Int × Bool)} (h : call.recorded c = some (totalPages, logicalPages)) :
    ∃ n, call.tokens = some n ∧ totalPages = c.pagesOf n := by
  cases call with
  | recordAllocation q t p bs =>
      refine ⟨t, rfl, ?_⟩
      rw [recorded] at h
      split at h
      · obtain ⟨bs, -, he⟩ := Option.map_eq_some_iff.mp h
        exact (congrArg Prod.fst he).symm
      · cases h
  | recordBlockIds q t ids ps =>
      refine ⟨t, rfl, ?_⟩
      rw [recorded] at h
      split at h
      · exact (congrArg Prod.fst (Option.some.inj h)).symm
      · cases h
  | forgetRequest q => cases h

omit [DecidableEq Req] in
theorem Call.exists_tokens {call : Call Req} {q : Req} (hq : call.requestId = q)
    (h : call ≠ .forgetRequest q) : ∃ n, call.tokens = some n := by
  cases call with
  | recordAllocation _ t p bs => exact ⟨t, rfl⟩
  | recordBlockIds _ t ids ps => exact ⟨t, rfl⟩
  | forgetRequest q' => exact absurd (congrArg Call.forgetRequest hq) h

theorem SystemInv.mem_layerNames {D : Deployment Layer} {s : System Req Layer}
    (h : SystemInv D s) {l : Layer} {row page : Nat} {e : RowEntry}
    (he : s.runtime.entry l row page = some e) : l ∈ D.policy.layerNames := by
  obtain ⟨cache, hc, -⟩ := Option.map_eq_some_iff.mp he
  exact (D.eq_of_layouts (h.pool.layouts_of_cache hc)).1

/-- The kernels' arithmetic does not wrap on the length that a call records, a call that changes
    no page does not change the page count of its request, and no page that it changes is moved
    between the pools. -/
structure UnmovedCall (D : Deployment Layer) (s : System Req Layer) (call : Call Req) : Prop where
  fits : ∀ n ∈ call.tokens, Fits D.policy n
  steady : s.policy.queuedBy call = [] → ∀ old ∈ s.lengths.get? call.requestId,
    ∀ n ∈ call.tokens, D.policy.pagesOf n = D.policy.pagesOf old
  unmoved : ∀ site ∈ s.sites call, site.Unmoved D

instance (D : Deployment Layer) (s : System Req Layer) (call : Call Req) :
    Decidable (UnmovedCall D s call) :=
  decidable_of_iff (_ ∧ _ ∧ _) ⟨fun ⟨hf, hs, hu⟩ => ⟨hf, hs, hu⟩, fun ⟨hf, hs, hu⟩ => ⟨hf, hs, hu⟩⟩

/-- The entries of a row lie in the pools that the kernels compute. -/
def PoolsMatch (D : Deployment Layer) : RowProperty Req Layer := fun _ length rt _ row =>
  ∃ n, length = some n ∧ Fits D.policy n ∧ ∀ l (page : Nat) e, rt.entry l row page = some e →
    0 ≤ e.slot → e.rawPool = kernelRaw (D.layout l) page n

section Agreement

variable {D : Deployment Layer}
  (hgeo : ∀ l ∈ D.policy.layerNames, SameGeometry D.policy (D.specs l))

include hgeo

omit [DecidableEq Layer] in
/-- The test depends on the page count only. -/
theorem kernelRaw_congr {l : Layer} (hl : l ∈ D.policy.layerNames) {n n' : Int}
    (hn : Fits D.policy n) (hn' : Fits D.policy n')
    (h : D.policy.pagesOf n' = D.policy.pagesOf n) (page : Int) :
    kernelRaw (D.layout l) page n' = kernelRaw (D.layout l) page n := by
  have hsame : SameGeometry D.policy (D.layout l).spec := hgeo l hl
  rw [kernelRaw_eq hsame hn', kernelRaw_eq hsame hn, h]

/-- A page that is not moved is placed in the pool that the kernels compute. -/
theorem placement_raw_eq_kernelRaw {s s' : System Req Layer} {call : Call Req}
    {event : PhysicalEvent Req Layer} {row : Nat} {rt₀ : PhysicalRuntime Req Layer}
    (hr : Recorded D s call s' event row rt₀) {n : Int} (hfit : Fits D.policy n)
    (hpages : event.totalPages = D.policy.pagesOf n) {d : PhysicalPageDescriptor Req Layer}
    (hd : d ∈ event.descriptors) {rt : PhysicalRuntime Req Layer}
    (h : Site.Unmoved D ⟨s'.ledger, rt, event.totalPages, d⟩) :
    (rt.placement (D.layout d.layerName) d event.totalPages).role.raw =
      kernelRaw (D.layout d.layerName) d.pageIndex n := by
  have hsame : SameGeometry D.policy (D.layout d.layerName).spec :=
    hgeo _ (hr.spec.page d hd).mem_layerNames
  obtain ⟨pages, -, hchanges⟩ := hr.recorded
  rw [hchanges, mem_recordChanges D.nodup] at hd
  obtain ⟨i, b, cached, layer, -, -, rfl⟩ := mem_pageDescriptors.mp hd.1
  rw [h.placement_raw, kernelRaw_eq hsame hfit, hpages, Bool.decide_or]
  congr 1
  exact physicalRoleForPage_raw layer D.policy.earlyLayers i _

theorem poolsMatch_rule : RunRule D (RowsHave (PoolsMatch D : RowProperty Req Layer))
    (UnmovedCall D) StableRows := by
  refine rowRule ?_ ?_
  · intro s call s' q row hC ht hun hnf hown hP
    obtain ⟨n, hn, hfit, hP⟩ := hP
    by_cases hq : call.requestId = q
    · obtain ⟨m, hm⟩ := call.exists_tokens hq hnf
      refine ⟨m, ?_, hC.fits m hm, fun l page e he h0 => ?_⟩
      · rw [ht.lengths, ← hq, noteLength_get?, hm]
      · have hl := ht.after.mem_layerNames he
        rw [hun.entry] at he
        have hpages := hC.steady (hown hq) n (hq ▸ hn) m hm
        rw [hP l page e he h0, kernelRaw_congr hgeo hl hfit (hC.fits m hm) hpages]
    · refine ⟨n, (ht.length hq).trans hn, hfit, fun l page e he h0 => ?_⟩
      rw [hun.entry] at he
      exact hP l page e he h0
  · intro s call s' event row rt hC ht hr
    obtain ⟨pages, hrecorded, -⟩ := hr.recorded
    obtain ⟨m, hm, hpages⟩ := Call.tokens_of_recorded hrecorded
    have hfit := hC.fits m hm
    refine ⟨m, ?_, hfit, ?_⟩
    · rw [ht.lengths, hr.request, noteLength_get?, hm]
    · -- along the descriptor loop: the row holds what was placed, and else nothing
      refine hr.loop_rule (J := fun _ rt => ∀ l (page : Nat) e, rt.entry l row page = some e →
        0 ≤ e.slot → e.rawPool = kernelRaw (D.layout l) page m) hC.unmoved ?_ ?_
      · intro d rest hd rt rt' row' page' slot hsite _ hp hJ l page e he h0
        rw [hp.entry] at he
        split at he
        · next hat =>
            obtain ⟨rfl, -, rfl⟩ := hat
            cases he
            have hindex := tensorIndex_nonneg hp.index (hr.spec.page d hd).1
            have hpage : (page : Int) = d.pageIndex := by
              have h0 := (hr.spec.page d hd).1
              omega
            rw [RowEntry.rawPool_of, hpage,
              placement_raw_eq_kernelRaw hgeo hr hfit hpages hd hsite]
        · exact hJ l page e he h0
      · intro l page e he h0
        rw [hr.prepared.blank l page e he] at h0
        exact absurd h0 (by decide)

end Agreement

/-- For every row entry with a slot of a tracked request: the kernels, at the request's length,
    take the page for raw exactly when its slot was taken from the raw pool. -/
def System.PoolsAgree (D : Deployment Layer) (s : System Req Layer) : Prop :=
  ∀ q row l (page : Nat) e, Tracked s.ledger q → s.rows.get? q = some row →
    s.runtime.entry l row page = some e → 0 ≤ e.slot →
    ∃ n, s.lengths.get? q = some n ∧ kernelRaw (D.layout l) page n = e.rawPool

/-- **Pools.** When policy and caches have the same geometry: in every run with stable injective
    rows in which nothing wraps, a call that changes no page keeps its request's page count and no
    page is moved between the pools, kernels and runtime agree on the pool of every page. -/
theorem pools_agree (D : Deployment Layer)
    (hgeo : ∀ l ∈ D.policy.layerNames, SameGeometry D.policy (D.specs l))
    (segs : List (Segment Req)) (hrows : ∀ x ∈ trace System.step D.start segs, StableRows x.1 x.2)
    (hcalls : ∀ x ∈ D.start.moments segs, UnmovedCall D x.1 x.2) {s : System Req Layer}
    (hrun : D.run segs = .ok s) : s.PoolsAgree D := by
  obtain ⟨-, hI⟩ := (poolsMatch_rule hgeo).run hrows hcalls hrun
  intro q row l page e hq hrow he h0
  obtain ⟨row', hrow', n, hn, -, hP⟩ := hI.tracked hq
  rw [hrow] at hrow'
  cases hrow'
  exact ⟨n, hn, (hP l page e he h0).symm⟩

/-- One layer, three blocks for two requests, and raw slots for their first pages only. -/
def anchorsOnly : Deployment Nat :=
  .ofEqualLayers 1 ⟨1, 0, true, 2, 2⟩ (fun _ => true) 3

/-- Two requests take the raw slots, and then the second gets a second page. -/
def anchorsThenWarm : List (Segment Nat) :=
  [⟨[allocate 0 [(0, false)], allocate 1 [(1, false)]], ownRows 2⟩,
   ⟨[allocate 1 [(1, false), (2, false)]], ownRows 2⟩]

theorem pools_agree_anchorsThenWarm :
    ∃ s, anchorsOnly.run anchorsThenWarm = .ok s ∧
      (s.runtime.entry 0 0 0 = some (.of 0 .pinnedRaw) ∧
        s.runtime.entry 0 1 1 = some (.of 0 .warmInt8Int8)) ∧ s.PoolsAgree anchorsOnly := by
  obtain ⟨s, hrun, hp⟩ := exists_ok_of_any (x := anchorsOnly.run anchorsThenWarm)
    (p := fun s => decide (s.runtime.entry 0 0 0 = some (.of 0 .pinnedRaw) ∧
      s.runtime.entry 0 1 1 = some (.of 0 .warmInt8Int8))) (by decide +kernel)
  have hgeo : ∀ l ∈ anchorsOnly.policy.layerNames,
      SameGeometry anchorsOnly.policy (anchorsOnly.specs l) :=
    fun _ _ => ⟨rfl, rfl, 0, (by decide +kernel : max 0 (min 100 (0 : ℚ)) * 100 = (0 : Nat))⟩
  exact ⟨s, hrun, of_decide_eq_true hp, pools_agree anchorsOnly hgeo anchorsThenWarm
    (by decide +kernel) (by decide +kernel) hrun⟩

/-- One layer, eight blocks for two requests, a quarter of the pages hot. -/
def quarterHot : Deployment Nat :=
  .ofEqualLayers 1 ⟨1, 25, true, 2, 8⟩ (fun _ => true) 8

/-- A request of three pages. -/
def threePages : List (Segment Nat) :=
  [⟨[allocate 0 [(0, false), (1, false), (2, false)]], ownRows 1⟩]

/-- The warm page 1 finds a free raw slot and is promoted; the kernels take it for warm. -/
theorem pools_agree_fails :
    (∀ l ∈ quarterHot.policy.layerNames, SameGeometry quarterHot.policy (quarterHot.specs l)) ∧
      (∀ x ∈ trace System.step quarterHot.start threePages, StableRows x.1 x.2) ∧
      ∃ s, quarterHot.run threePages = .ok s ∧ ¬ s.PoolsAgree quarterHot := by
  refine ⟨fun _ _ => ⟨rfl, rfl, 2500,
    (by decide +kernel : max 0 (min 100 (25 : ℚ)) * 100 = (2500 : Nat))⟩, by decide +kernel, ?_⟩
  obtain ⟨s, hrun, hp⟩ := exists_ok_of_any (x := quarterHot.run threePages)
    (p := fun s => decide (Tracked s.ledger 0 ∧ s.rows.get? 0 = some 0 ∧
      s.lengths.get? 0 = some 3 ∧ s.runtime.entry 0 0 1 = some (.of 1 .hotRaw))) (by decide +kernel)
  obtain ⟨hq, hrow, hlen, he⟩ := of_decide_eq_true hp
  refine ⟨s, hrun, fun h => ?_⟩
  obtain ⟨n, hn, hraw⟩ := h 0 0 0 1 _ hq hrow he (by decide)
  rw [hlen] at hn
  cases hn
  revert hraw
  decide +kernel

end Sock.Tmh
