/-
  The hot window of a request: as the kernels compute it, and as it moves.

  The policy takes an exact share of the pages, rounded up. The kernels take the budget in
  hundredths of a percent, rounded, and compute on 32 bits. `windows_agree_iff` says for which
  budgets, block sizes and lengths they have the same window.

  The start of the window moves with the page count, by at most one page for each page added. So
  a page that has left the window does not come back while the request grows, over any calls on the
  policy (`pages_cool`).
-/
import Mathlib.Data.Int.ConditionallyCompleteOrder
import Sock.Tmh.Geometry
import Sock.Tmh.Sizing

namespace Sock.Tmh

open Lib Lib.RefCount

variable {Req Layer : Type}

/-! ## The kernels' window -/

/-- Where the page count is right, a page after the first is raw for the kernels when its distance
    from the end is within the hot pages. -/
theorem tmhPageIsRaw_eq {page pages seqLen blockSize bps : Int}
    (hpages : cdivFn seqLen blockSize = pages) (h0 : 0 < page) (hlt : page < pages) :
    tmhPageIsRaw page seqLen blockSize bps =
      decide (10000 * (pages - page) ≤ int32 (pages * bps + 9999)) := by
  have hhot : cdivFn (int32 (pages * bps)) 10000 = (int32 (pages * bps + 9999)).tdiv 10000 := by
    rw [cdivFn, show int32 (pages * bps) + 10000 - 1 = int32 (pages * bps) + 9999 by omega,
      int32_add]
  have hiff := le_tdiv_iff (x := int32 (pages * bps + 9999)) (by decide : (0 : Int) < 10000)
    (by omega : 0 < pages - page)
  unfold tmhPageIsRaw
  simp only [hpages, hhot]
  rw [decide_eq_decide, Int.mul_comm 10000, ← hiff]
  split <;> omega

/-- Where the page count wraps, every page is raw for the kernels. -/
theorem tmhPageIsRaw_of_nonpos {page seqLen blockSize bps : Int}
    (hpages : cdivFn seqLen blockSize ≤ 0) (h0 : 0 ≤ page) :
    tmhPageIsRaw page seqLen blockSize bps = true := by
  unfold tmhPageIsRaw
  dsimp only
  rw [if_pos (by omega)]
  exact decide_eq_true (.inr (by omega))

/-- The kernels' budget: at most everything, and off by at most half of a hundredth. -/
theorem tmhHotBudgetBps_spec {cache : CacheLayout} (h0 : 0 ≤ cache.spec.tmhHotBudgetPct)
    (h100 : cache.spec.tmhHotBudgetPct ≤ 100) :
    0 ≤ tmhHotBudgetBps cache ∧ tmhHotBudgetBps cache ≤ 10000 ∧
      (tmhHotBudgetBps cache : ℚ) ≤ cache.spec.tmhHotBudgetPct * 100 + 1 / 2 := by
  unfold tmhHotBudgetBps
  rw [min_eq_right h100, max_eq_right h0]
  obtain ⟨hlo, hhi⟩ := abs_le.mp (roundHalfEven_sub_le (cache.spec.tmhHotBudgetPct * 100))
  refine ⟨?_, ?_, by linarith⟩
  · have hgt : ((-1 : Int) : ℚ) < roundHalfEven (cache.spec.tmhHotBudgetPct * 100) := by
      push_cast
      linarith
    have := Int.cast_lt.mp hgt
    omega
  · have hlt : (roundHalfEven (cache.spec.tmhHotBudgetPct * 100) : ℚ) < (10001 : Int) := by
      push_cast
      linarith
    have := Int.cast_lt.mp hlt
    omega

/-! ## The policy's window -/

variable [DecidableEq Layer] (c : PolicyConfig Layer)

/-- A page after the first is raw for the policy when its distance from the end is within the exact
    share. -/
theorem physicalRoleForPage_raw_iff (layer : LayerShape Layer) {page pages : Nat} (h0 : page ≠ 0)
    (hlt : page < pages) :
    (physicalRoleForPage layer c.earlyLayers page (c.recentStartPage pages)).raw = true ↔
      100 * ((pages - 1 - page : Nat) : ℚ) < pages * c.hotBudgetPct := by
  rw [physicalRoleForPage_raw, c.recentStartPage_eq, decide_eq_true_eq, ← not_le, ← share_le_iff]
  omega

/-- Policy and kernels take the same pages of a request for raw. -/
def WindowsAgree (cache : CacheLayout) (layer : LayerShape Layer) (seqLen : Int) : Prop :=
  ∀ page : Nat, (page : Int) < c.pagesOf seqLen →
    (physicalRoleForPage layer c.earlyLayers page (c.recentStartPage (c.pagesOf seqLen))).raw =
      tmhPageIsRaw page seqLen cache.spec.blockSize (tmhHotBudgetBps cache)

section Agree

variable {c} {cache : CacheLayout} {layer : LayerShape Layer} {seqLen : Int} {pages : Nat}
  (hpages : c.pagesOf seqLen = pages)

include hpages in
/-- Page 0 is raw for both, so only the later pages count. -/
theorem windowsAgree_iff_later : WindowsAgree c cache layer seqLen ↔
    ∀ page : Nat, page ≠ 0 → page < pages →
      (100 * ((pages - 1 - page : Nat) : ℚ) < pages * c.hotBudgetPct ↔
        tmhPageIsRaw page seqLen cache.spec.blockSize (tmhHotBudgetBps cache) = true) := by
  unfold WindowsAgree
  rw [hpages]
  constructor
  · intro h page h0 hlt
    rw [← physicalRoleForPage_raw_iff c layer h0 hlt, h page (by exact_mod_cast hlt)]
  · intro h page hlt
    rcases Nat.eq_zero_or_pos page with rfl | hpos
    · simp [physicalRoleForPage_raw, tmhPageIsRaw]
    · have hlt : page < pages := by exact_mod_cast hlt
      rw [Bool.eq_iff_iff, physicalRoleForPage_raw_iff c layer (by omega) hlt,
        h page (by omega) hlt]

include hpages in
/-- Nothing wraps: the two shares, rounded up, are the same, or both leave less than a page after
    the first. -/
theorem windowsAgree_iff_of_fits (hcount : cdivFn seqLen cache.spec.blockSize = pages)
    (hfits : pages * tmhHotBudgetBps cache + 9999 < 2 ^ 31)
    (h0 : 0 ≤ tmhHotBudgetBps cache) : WindowsAgree c cache layer seqLen ↔
      ∀ k : Nat, k + 1 < pages → ((pages : ℚ) * c.hotBudgetPct ≤ 100 * k ↔
        pages * tmhHotBudgetBps cache ≤ 10000 * k) := by
  have hprod : 0 ≤ pages * tmhHotBudgetBps cache := Int.mul_nonneg (by omega) h0
  have hkernel : ∀ page : Nat, page ≠ 0 → page < pages →
      (tmhPageIsRaw page seqLen cache.spec.blockSize (tmhHotBudgetBps cache) = true ↔
        ¬ pages * tmhHotBudgetBps cache ≤ 10000 * (pages - 1 - page : Nat)) := by
    intro page hpage hlt
    rw [tmhPageIsRaw_eq hcount (by omega) (by omega), int32_eq (by omega) hfits,
      decide_eq_true_eq]
    omega
  rw [windowsAgree_iff_later hpages]
  constructor
  · intro h k hk
    have hpage := h (pages - 1 - k) (by omega) (by omega)
    rw [hkernel _ (by omega) (by omega), show pages - 1 - (pages - 1 - k) = k by omega,
      ← not_le, not_iff_not] at hpage
    exact hpage
  · intro h page hpage hlt
    rw [hkernel page hpage hlt, ← not_le, not_iff_not]
    exact h _ (by omega)

include hpages in
/-- The hot pages wrap: the kernels' window is too short. -/
theorem not_windowsAgree_of_wraps (hcount : cdivFn seqLen cache.spec.blockSize = pages)
    (hlen : pages < 2 ^ 31) (hpct : c.hotBudgetPct = cache.spec.tmhHotBudgetPct)
    (h0 : 0 ≤ c.hotBudgetPct) (h100 : c.hotBudgetPct ≤ 100)
    (hwraps : 2 ^ 31 ≤ pages * tmhHotBudgetBps cache + 9999) :
    ¬ WindowsAgree c cache layer seqLen := by
  rw [hpct] at h0 h100
  obtain ⟨-, hbps, hround⟩ := tmhHotBudgetBps_spec h0 h100
  have hlow := int32_le_sub hwraps
  have hprod : pages * tmhHotBudgetBps cache ≤ pages * 10000 :=
    Int.mul_le_mul_of_nonneg_left hbps (by omega)
  rw [windowsAgree_iff_later hpages]
  intro h
  -- the last page that is still in the exact window, whatever the rounding
  obtain ⟨k, hk⟩ : ∃ k : Nat,
      (k : Int) = (2 * (pages * tmhHotBudgetBps cache) - pages - 1) / 20000 :=
    ⟨_, Int.toNat_of_nonneg (by omega)⟩
  have hinside : k + 1 < pages := by omega
  have hexact : 100 * ((pages - 1 - (pages - 1 - k) : Nat) : ℚ) < pages * c.hotBudgetPct := by
    rw [show pages - 1 - (pages - 1 - k) = k by omega, hpct]
    have hdiv : 20000 * (k : Int) < 2 * (pages * tmhHotBudgetBps cache) - pages := by omega
    have hdiv : 20000 * (k : ℚ) < 2 * (pages * tmhHotBudgetBps cache) - pages := by
      exact_mod_cast hdiv
    have hmul : (pages : ℚ) * tmhHotBudgetBps cache ≤
        pages * (cache.spec.tmhHotBudgetPct * 100 + 1 / 2) :=
      mul_le_mul_of_nonneg_left hround (Nat.cast_nonneg pages)
    linarith
  have hraw := (h (pages - 1 - k) (by omega) (by omega)).mp hexact
  rw [tmhPageIsRaw_eq hcount (by omega) (by omega), decide_eq_true_eq] at hraw
  omega

include hpages in
/-- The page count wraps: all pages are raw for the kernels. -/
theorem windowsAgree_iff_of_nonpos (hcount : cdivFn seqLen cache.spec.blockSize ≤ 0)
    (htwo : 1 < pages) : WindowsAgree c cache layer seqLen ↔
      100 * ((pages - 2 : Nat) : ℚ) < pages * c.hotBudgetPct := by
  rw [windowsAgree_iff_later hpages]
  constructor
  · intro h
    exact (h 1 Nat.one_ne_zero htwo).mpr (tmhPageIsRaw_of_nonpos hcount (by decide))
  · intro h page hpage hlt
    refine iff_of_true (lt_of_le_of_lt ?_ h) (tmhPageIsRaw_of_nonpos hcount (by omega))
    have hle : pages - 1 - page ≤ pages - 2 := by omega
    gcongr

end Agree

omit [DecidableEq Layer] in
/-- A request of more than one page is longer than a page, and has at most a page for each token. -/
theorem pagesOf_bounds {seqLen : Int} (h : 1 < c.pagesOf seqLen) :
    (c.pageTokens : Int) < seqLen ∧ c.pagesOf seqLen ≤ seqLen := by
  have hpos : (0 : Int) < c.pageTokens := by exact_mod_cast c.pageTokens_pos
  have hlen : 0 < seqLen := by
    by_contra hneg
    rw [c.pagesOf_of_nonpos (by omega)] at h
    omega
  rw [c.pagesOf_of_pos hlen] at h ⊢
  constructor
  · have hdiv : -seqLen / (c.pageTokens : Int) < -1 := by omega
    have := (Int.ediv_lt_iff_lt_mul hpos).mp hdiv
    omega
  · have hle : -seqLen ≤ -seqLen / (c.pageTokens : Int) := by
      rw [Int.le_ediv_iff_mul_le hpos]
      nlinarith
    omega

/-- **The hot windows.** With the same block size and budget, policy and kernels have the same
    window for a request exactly when it has one page; or nothing wraps, and no number of pages
    that leaves a page after the first lies between the exact share and the rounded one; or the
    page count wraps, and the policy's window is all of the request. -/
theorem windows_agree_iff (cache : CacheLayout) (layer : LayerShape Layer)
    (hblock : c.pageTokens = cache.spec.blockSize)
    (hpct : c.hotBudgetPct = cache.spec.tmhHotBudgetPct) (h0 : 0 ≤ c.hotBudgetPct)
    (h100 : c.hotBudgetPct ≤ 100) (seqLen : Int) (hlen : seqLen < 2 ^ 31) :
    WindowsAgree c cache layer seqLen ↔
      c.pagesOf seqLen ≤ 1 ∨
      seqLen + c.pageTokens ≤ 2 ^ 31 ∧
        c.pagesOf seqLen * tmhHotBudgetBps cache + 9999 < 2 ^ 31 ∧
        (∀ k : Nat, k + 1 < c.pagesOf seqLen →
          ((c.pagesOf seqLen : ℚ) * c.hotBudgetPct ≤ 100 * k ↔
            c.pagesOf seqLen * tmhHotBudgetBps cache ≤ 10000 * k)) ∨
      2 ^ 31 < seqLen + c.pageTokens ∧
        100 * ((c.pagesOf seqLen : ℚ) - 2) < c.pagesOf seqLen * c.hotBudgetPct := by
  obtain ⟨pages, hpages⟩ : ∃ pages : Nat, c.pagesOf seqLen = pages :=
    ⟨_, (Int.toNat_of_nonneg (Int.le_of_lt (c.totalPages_pos _))).symm⟩
  rw [hpages, Int.cast_natCast]
  rcases Nat.lt_or_ge 1 pages with htwo | hone
  · obtain ⟨hlong, hshort⟩ := pagesOf_bounds c (by omega : 1 < c.pagesOf seqLen)
    have hpos : (0 : Int) < c.pageTokens := by exact_mod_cast c.pageTokens_pos
    rcases Int.lt_or_le (2 ^ 31) (seqLen + c.pageTokens) with hwraps | hfits
    · have hcount : cdivFn seqLen cache.spec.blockSize ≤ 0 := by
        rw [← hblock, cdivFn, int32_wrapped (by omega) (by omega)]
        exact tdiv_nonpos (by omega) (Int.le_of_lt hpos)
      rw [windowsAgree_iff_of_nonpos hpages hcount htwo, Nat.cast_sub (show 2 ≤ pages from htwo),
        Nat.cast_ofNat]
      constructor
      · exact fun h => .inr (.inr ⟨hwraps, h⟩)
      · rintro (h | ⟨h, -⟩ | ⟨-, h⟩)
        · omega
        · omega
        · exact h
    · have hcount : cdivFn seqLen cache.spec.blockSize = pages := by
        rw [← hblock, cdivFn_eq (by omega) hpos hfits, ← c.pagesOf_of_pos (by omega), hpages]
      rcases Int.lt_or_le (pages * tmhHotBudgetBps cache + 9999) (2 ^ 31) with hhot | hhot
      · rw [windowsAgree_iff_of_fits hpages hcount hhot
          (tmhHotBudgetBps_spec (hpct ▸ h0) (hpct ▸ h100)).1]
        constructor
        · exact fun h => .inr (.inl ⟨hfits, hhot, fun k hk => h k (by omega)⟩)
        · rintro (h | ⟨-, -, h⟩ | ⟨h, -⟩)
          · omega
          · exact fun k hk => h k (by omega)
          · omega
      · refine iff_of_false
          (not_windowsAgree_of_wraps hpages hcount (by omega) hpct h0 h100 hhot) ?_
        rintro (h | ⟨-, h, -⟩ | ⟨h, -⟩) <;> omega
  · refine iff_of_true ((windowsAgree_iff_later hpages).mpr fun page h0 hlt => ?_) (.inl (by omega))
    omega

/-- One layer with pages of one token. -/
def onePage (pct : ℚ) : PolicyConfig Nat := { onePhysicalLayer with hotBudgetPct := pct }

/-- Its cache. -/
def onePageCache (pct : ℚ) : CacheLayout :=
  ⟨{ blockSize := 1, tmhHotBudgetPct := pct }, 8, 8, 0⟩

/-- A quarter of eight pages. -/
theorem windows_agree_quarter :
    WindowsAgree (onePage 25) (onePageCache 25) ⟨0, 0, 1, 1, 1, 2⟩ 8 := by
  have hpages : (onePage 25).pagesOf 8 = 8 := by decide +kernel
  have hbps : tmhHotBudgetBps (onePageCache 25) = 2500 := by decide +kernel
  refine (windows_agree_iff (onePage 25) (onePageCache 25) ⟨0, 0, 1, 1, 1, 2⟩ rfl rfl
    (by decide +kernel) (by decide +kernel) 8 (by decide)).mpr (.inr (.inl ⟨by decide, ?_, ?_⟩))
  · rw [hpages, hbps]
    decide
  · rw [hpages, hbps]
    intro k _
    have hcast : ((8 : Int) : ℚ) * (onePage 25).hotBudgetPct ≤ 100 * k ↔
        ((200 : Nat) : ℚ) ≤ ((100 * k : Nat) : ℚ) := by
      push_cast [onePage]
      norm_num
    rw [hcast, Nat.cast_le]
    omega

/-- 33.334 percent of three pages are more than one page; rounded to 33.33 percent, they are
    less. -/
theorem windows_agree_fails :
    physicalRoleForPage ⟨0, 0, 1, 1, 1, 2⟩ (onePage (33334 / 1000)).earlyLayers 1
        ((onePage (33334 / 1000)).recentStartPage ((onePage (33334 / 1000)).pagesOf 3)) = .hotRaw ∧
      tmhHotBudgetBps (onePageCache (33334 / 1000)) = 3333 ∧
      tmhPageIsRaw 1 3 1 (tmhHotBudgetBps (onePageCache (33334 / 1000))) = false := by
  decide +kernel

/-! ## Cooling -/

omit [DecidableEq Layer] in
theorem PolicyConfig.recentStartPage_mono :
    Monotone fun pages : Nat => c.recentStartPage pages := by
  intro m n h
  dsimp only
  rw [c.recentStartPage_eq, c.recentStartPage_eq]
  exact_mod_cast sub_share_mono _ h trivial

omit [DecidableEq Layer] in
/-- A page more moves the start of the window by at most one page. -/
theorem PolicyConfig.recentStartPage_succ_le (pages : Nat) :
    c.recentStartPage (pages + 1 : Nat) ≤ c.recentStartPage pages + 1 := by
  have hshare : share c.hotBudgetPct pages ≤ share c.hotBudgetPct (pages + 1) :=
    share_mono _ _ (Nat.le_succ pages)
  rw [c.recentStartPage_eq, c.recentStartPage_eq]
  omega

omit [DecidableEq Layer] in
theorem PolicyConfig.pagesOf_mono {m n : Int} (h : m ≤ n) : c.pagesOf m ≤ c.pagesOf n := by
  have hpos : (0 : Int) < c.pageTokens := by exact_mod_cast c.pageTokens_pos
  have hdiv : -(max 1 n) / (c.pageTokens : Int) ≤ -(max 1 m) / (c.pageTokens : Int) :=
    Int.ediv_le_ediv hpos (by omega)
  unfold pagesOf totalPages
  omega

/-- The role that a page has in a layer when the request has the length. -/
def PolicyConfig.roleAt (layer : LayerShape Layer) (page length : Int)
    (r : Rounding := .exact) : PageRole :=
  physicalRoleForPage layer c.earlyLayers page (c.recentStartPage (c.pagesOf length) r)

/-- A warm page stays as it is when the request grows. -/
theorem PolicyConfig.roleAt_of_warm {layer : LayerShape Layer} {page m n : Int} (h : m ≤ n)
    (hwarm : (c.roleAt layer page m).raw = false) :
    c.roleAt layer page n = c.roleAt layer page m := by
  have hstart : c.recentStartPage (c.pagesOf m) ≤ c.recentStartPage (c.pagesOf n) := by
    have hm : 0 ≤ c.pagesOf m := Int.le_of_lt (c.totalPages_pos _)
    have hle := c.pagesOf_mono h
    have hmono := c.recentStartPage_mono (Int.toNat_le_toNat hle)
    dsimp only at hmono
    rwa [Int.toNat_of_nonneg hm, Int.toNat_of_nonneg (by omega)] at hmono
  unfold roleAt at hwarm ⊢
  rw [physicalRoleForPage_raw, decide_eq_false_iff_not, not_or] at hwarm
  unfold physicalRoleForPage
  rw [if_neg hwarm.1, if_neg hwarm.1, if_neg hwarm.2, if_neg (by omega)]

/-- Among three growing lengths, the role of a page after the first changes at most once. -/
theorem PolicyConfig.roleAt_changes_once {layer : LayerShape Layer} {page : Int} (h0 : page ≠ 0)
    {n₁ n₂ n₃ : Int} (h₁ : n₁ ≤ n₂) (h₂ : n₂ ≤ n₃) :
    c.roleAt layer page n₁ = c.roleAt layer page n₂ ∨
      c.roleAt layer page n₂ = c.roleAt layer page n₃ := by
  cases hraw : (c.roleAt layer page n₂).raw with
  | false => exact .inr (c.roleAt_of_warm h₂ hraw).symm
  | true =>
      cases hraw₁ : (c.roleAt layer page n₁).raw with
      | false => exact .inl (c.roleAt_of_warm h₁ hraw₁).symm
      | true =>
          -- the one raw role of such a page
          have hhot : ∀ n, (c.roleAt layer page n).raw = true →
              c.roleAt layer page n = .hotRaw := by
            intro n hn
            unfold roleAt at hn ⊢
            rw [physicalRoleForPage_raw, decide_eq_true_eq] at hn
            rw [physicalRoleForPage, if_neg h0, if_pos (hn.resolve_left h0)]
          exact .inl ((hhot _ hraw₁).trans (hhot _ hraw).symm)

section Runs

variable [DecidableEq Req]

/-- The lengths that calls record for a request. -/
def recordedLengths (q : Req) (calls : List (Call Req)) : List Int :=
  (calls.filter fun call => decide (call.requestId = q)).filterMap Call.tokens

omit [DecidableEq Layer] in
theorem recordedLengths_append (q : Req) (calls calls' : List (Call Req)) :
    recordedLengths q (calls ++ calls') = recordedLengths q calls ++ recordedLengths q calls' := by
  rw [recordedLengths, List.filter_append, List.filterMap_append]
  rfl

variable {c} (hn : c.layerNames.Nodup)

/-- The page's role in the ledger is that of one of the lengths. -/
def GivenAt (c : PolicyConfig Layer) (layer : LayerShape Layer) (q : Req) (page : Int)
    (lengths : List Int) (ledger : Ledger Req Layer) : Prop :=
  ∀ d, ledger.get? (q, layer.layerName, page) = some d →
    ∃ n ∈ lengths, d.role = c.roleAt layer page n

include hn in
/-- A call leaves the page as it is, or gives it the role of the length that it records. -/
theorem GivenAt.call {layer : LayerShape Layer} (hlayer : layer ∈ c.layers) {q : Req} {page : Int}
    {lengths : List Int} {ledger : Ledger Req Layer} (h : GivenAt c layer q page lengths ledger)
    (call : Call Req) :
    GivenAt c layer q page (lengths ++ recordedLengths q [call]) (ledgerCall c ledger call) := by
  intro d hd
  rcases effects_get?_some _ ledger hd with hold | hput
  · obtain ⟨n, hn, hrole⟩ := h d hold
    exact ⟨n, List.mem_append_left _ hn, hrole⟩
  · cases hrec : call.recorded c with
    | none =>
        -- such a call puts nothing
        cases call with
        | forgetRequest q' => simp [ledgerUpdates] at hput
        | recordAllocation => simp [ledgerUpdates, hrec] at hput
        | recordBlockIds => simp [ledgerUpdates, hrec] at hput
    | some recorded =>
        obtain ⟨totalPages, logicalPages⟩ := recorded
        rw [ledgerUpdates_recorded hrec, List.mem_map] at hput
        obtain ⟨d', hmem, heq⟩ := hput
        obtain ⟨hkey, rfl⟩ := Op.put.inj heq
        obtain ⟨i, b, cached, layer', -, hlayer', rfl⟩ :=
          mem_pageDescriptors.mp ((mem_recordChanges hn).mp hmem).1
        obtain ⟨hq, hname, rfl⟩ : call.requestId = q ∧ layer'.layerName = layer.layerName ∧
            (i : Int) = page := by
          simpa [PhysicalPageDescriptor.key, pageDescriptor] using hkey
        obtain rfl : layer' = layer := List.inj_on_of_nodup_map hn hlayer' hlayer hname
        obtain ⟨n, htokens, rfl⟩ := Call.tokens_of_recorded hrec
        refine ⟨n, List.mem_append_right _ ?_, rfl⟩
        simp [recordedLengths, hq, htokens]

include hn in
theorem GivenAt.calls {layer : LayerShape Layer} (hlayer : layer ∈ c.layers) {q : Req} {page : Int}
    {lengths : List Int} (calls : List (Call Req)) {s : RuntimePolicy Req Layer}
    (hc : s.config = c) (hs : Exact canonicalDescriptorKey s.index)
    (h : GivenAt c layer q page lengths s.physicalDescriptors) :
    GivenAt c layer q page (lengths ++ recordedLengths q calls)
      (s.calls calls).physicalDescriptors := by
  induction calls generalizing s lengths with
  | nil => rwa [recordedLengths, List.filter_nil, List.filterMap_nil, List.append_nil]
  | cons call calls ih =>
      have hr := call_refines s hs call
      have hstep := h.call hn hlayer call
      rw [← hc, ← hr.ledger, hc] at hstep
      rw [← List.singleton_append, recordedLengths_append, ← List.append_assoc]
      exact ih (hr.config.trans hc) hr.exact hstep

end Runs

/-- **Pages cool.** The start of the window grows with the page count, by at most one for a page.
    So over any calls on a policy in which the lengths recorded for a request never shrink: a page
    after the first that is warm at some moment has the same role at every later moment at which it
    has one, and among three moments at which it has a role, two that follow each other agree. -/
theorem pages_cool [DecidableEq Req] (hn : c.layerNames.Nodup) :
    (Monotone fun pages : Nat => c.recentStartPage pages) ∧
    (∀ pages : Nat, c.recentStartPage (pages + 1 : Nat) ≤ c.recentStartPage pages + 1) ∧
    ∀ (q : Req) (calls₁ calls₂ calls₃ : List (Call Req)),
      (recordedLengths q (calls₁ ++ calls₂ ++ calls₃)).Pairwise (· ≤ ·) →
      let s : RuntimePolicy Req Layer := { config := c }
      ∀ layer ∈ c.layers, ∀ page : Int, page ≠ 0 → ∀ d₁ d₂ d₃ : PhysicalPageDescriptor Req Layer,
        (s.calls calls₁).physicalDescriptors.get? (q, layer.layerName, page) = some d₁ →
        (s.calls (calls₁ ++ calls₂)).physicalDescriptors.get? (q, layer.layerName, page) =
          some d₂ →
        (s.calls (calls₁ ++ calls₂ ++ calls₃)).physicalDescriptors.get?
          (q, layer.layerName, page) = some d₃ →
        (d₁.role.raw = false → d₂.role = d₁.role) ∧ (d₁.role = d₂.role ∨ d₂.role = d₃.role) := by
  refine ⟨c.recentStartPage_mono, c.recentStartPage_succ_le, ?_⟩
  intro q calls₁ calls₂ calls₃ hgrows s layer hlayer page h0 d₁ d₂ d₃ hd₁ hd₂ hd₃
  have hnew : GivenAt c layer q page [] s.physicalDescriptors := fun d hd => by cases hd
  have hexact : ∀ calls, Exact canonicalDescriptorKey (s.calls calls).index :=
    fun calls => calls_exact s calls (exact_new c)
  have hconfig : ∀ calls, (s.calls calls).config = c :=
    fun calls => calls_config s calls (exact_new c)
  -- each later descriptor is that of the earlier length, or of one recorded in between
  have hlater : ∀ calls calls' d d' n,
      (s.calls calls).physicalDescriptors.get? (q, layer.layerName, page) = some d →
      d.role = c.roleAt layer page n →
      (s.calls (calls ++ calls')).physicalDescriptors.get? (q, layer.layerName, page) = some d' →
      ∃ n' ∈ n :: recordedLengths q calls', d'.role = c.roleAt layer page n' := by
    intro calls calls' d d' n hd hrole hd'
    have hgiven : GivenAt c layer q page [n] (s.calls calls).physicalDescriptors := by
      intro e he
      rw [hd] at he
      cases he
      exact ⟨n, List.mem_singleton_self n, hrole⟩
    rw [RuntimePolicy.calls, List.foldl_append] at hd'
    exact hgiven.calls hn hlayer calls' (hconfig calls) (hexact calls) d' hd'
  obtain ⟨n₁, hn₁, hrole₁⟩ := hnew.calls hn hlayer calls₁ rfl (exact_new c) d₁ hd₁
  obtain ⟨n₂, hn₂, hrole₂⟩ := hlater calls₁ calls₂ d₁ d₂ n₁ hd₁ hrole₁ hd₂
  obtain ⟨n₃, hn₃, hrole₃⟩ := hlater (calls₁ ++ calls₂) calls₃ d₂ d₃ n₂ hd₂ hrole₂ hd₃
  rw [recordedLengths_append, recordedLengths_append, List.pairwise_append,
    List.pairwise_append] at hgrows
  obtain ⟨⟨-, -, h12⟩, -, h3⟩ := hgrows
  have hle₂ : n₁ ≤ n₂ := by
    rcases List.mem_cons.mp hn₂ with rfl | hmem
    · exact le_refl _
    · exact h12 n₁ hn₁ n₂ hmem
  have hmem₂ : n₂ ∈ recordedLengths q calls₁ ++ recordedLengths q calls₂ := by
    rcases List.mem_cons.mp hn₂ with rfl | hmem
    · exact List.mem_append_left _ hn₁
    · exact List.mem_append_right _ hmem
  have hle₃ : n₂ ≤ n₃ := by
    rcases List.mem_cons.mp hn₃ with rfl | hmem
    · exact le_refl _
    · exact h3 n₂ hmem₂ n₃ hmem
  rw [hrole₁, hrole₂, hrole₃]
  exact ⟨c.roleAt_of_warm hle₂, c.roleAt_changes_once h0 hle₂ hle₃⟩

/-- Two pages, then four, then six: page 1 leaves the window and stays out. -/
theorem pages_cool_growing :
    let calls₁ : List (Call Nat) := [.recordBlockIds 0 2 [0, 1] []]
    let calls₂ : List (Call Nat) := [.recordBlockIds 0 4 [0, 1, 2, 3] []]
    let calls₃ : List (Call Nat) := [.recordBlockIds 0 6 [0, 1, 2, 3, 4, 5] []]
    let s : RuntimePolicy Nat Nat := { config := onePhysicalLayer }
    ∃ d₁ d₂ d₃, (s.calls calls₁).physicalDescriptors.get? (0, 0, 1) = some d₁ ∧
      (s.calls (calls₁ ++ calls₂)).physicalDescriptors.get? (0, 0, 1) = some d₂ ∧
      (s.calls (calls₁ ++ calls₂ ++ calls₃)).physicalDescriptors.get? (0, 0, 1) = some d₃ ∧
      d₁.role = .hotRaw ∧ d₂.role = .warmInt8Int8 ∧ (d₁.role = d₂.role ∨ d₂.role = d₃.role) := by
  intro calls₁ calls₂ calls₃ s
  have h₁ : ((s.calls calls₁).physicalDescriptors.get? (0, 0, 1)).map (·.role) = some .hotRaw := by
    decide +kernel
  have h₂ : ((s.calls (calls₁ ++ calls₂)).physicalDescriptors.get? (0, 0, 1)).map (·.role) =
      some .warmInt8Int8 := by decide +kernel
  have h₃ : ((s.calls (calls₁ ++ calls₂ ++ calls₃)).physicalDescriptors.get? (0, 0, 1)).map
      (·.role) = some .warmInt8Int8 := by decide +kernel
  obtain ⟨d₁, hd₁, hr₁⟩ := Option.map_eq_some_iff.mp h₁
  obtain ⟨d₂, hd₂, hr₂⟩ := Option.map_eq_some_iff.mp h₂
  obtain ⟨d₃, hd₃, -⟩ := Option.map_eq_some_iff.mp h₃
  exact ⟨d₁, d₂, d₃, hd₁, hd₂, hd₃, hr₁, hr₂,
    ((pages_cool onePhysicalLayer (by decide)).2.2 0 calls₁ calls₂ calls₃ (by decide)
      ⟨0, 0, 1, 1, 1, 2⟩ (List.mem_singleton_self _) 1 (by decide) d₁ d₂ d₃ hd₁ hd₂ hd₃).2⟩

end Sock.Tmh
