/-
  How large the pools are, and whether that is enough (`kv_cache_interface.py`,
  `kv_cache_utils.py`).

  The raw pool of a layer is sized for one anchor page per sequence and the hot share of all
  other pages together. The policy takes the hot share of each request's whole page count,
  rounds it up and adds the anchor (`rawPages_le`). So the demand of the requests can exceed the
  pool: `raw_pool_covers` says for which budgets, sizes and sequence limits it cannot.

  * `share`, `poolShare`: the hot share of a number of pages, rounded up, as the policy and as the
    pool sizes compute it. In doubles the two can differ.
  * `Holding`: a request with the blocks it holds, and the raw pages the policy gives it.
  * `raw_pool_covers`: the pool covers every family of requests, exactly when. The statement is
    about any rounding, the source's doubles among them.
-/
import Mathlib.Algebra.Group.Action.Defs
import Mathlib.Algebra.Order.BigOperators.Group.List
import Mathlib.Algebra.Order.Floor.Semiring
import Mathlib.Data.Fintype.EquivFin
import Mathlib.Data.List.Nodup
import Sock.Tmh.Policy

namespace Sock.Tmh

open Lib

/-! ## The hot share -/

/-- `pct` percent of `pages`, rounded up to a number of pages. -/
def share (pct : ℚ) (pages : Nat) (r : Rounding := .exact) : Nat :=
  ⌈r (r (r pages * pct) / 100)⌉₊

/-- The same by way of a ratio that is clamped to [0, 1]. -/
def poolShare (pct : ℚ) (pages : Nat) (r : Rounding := .exact) : Nat :=
  ⌈r (r pages * max 0 (min 1 (r (pct / 100))))⌉₊

section Share

variable {pct : ℚ} {m n : Nat}

theorem share_le_iff {k : Nat} : share pct m ≤ k ↔ (m : ℚ) * pct ≤ 100 * k := by
  simp only [share, Rounding.exact_apply]
  rw [Nat.ceil_le, div_le_iff₀ (by norm_num), mul_comm (k : ℚ)]

/-- The share is everything exactly when what is left out is less than a page. -/
theorem le_share_iff : m ≤ share pct m ↔ m = 0 ∨ (m : ℚ) * (100 - pct) < 100 := by
  rcases Nat.eq_zero_or_pos m with rfl | hm
  · simp
  · have hk : m ≤ share pct m ↔ ¬ share pct m ≤ m - 1 := by omega
    rw [hk, share_le_iff, Nat.cast_sub hm, Nat.cast_one]
    constructor
    · intro h
      right
      linarith
    · rintro (h | h)
      · omega
      · linarith

variable {r : Rounding}

theorem share_of_nonpos (h : pct ≤ 0) : share pct m r = 0 := by
  have hprod := mul_nonpos_of_nonneg_of_nonpos (r.nonneg (Nat.cast_nonneg m)) h
  exact Nat.ceil_eq_zero.mpr
    (r.nonpos (div_nonpos_of_nonpos_of_nonneg (r.nonpos hprod) (by norm_num)))

variable (pct r) in
theorem share_mono (h : m ≤ n) : share pct m r ≤ share pct n r := by
  rcases le_total pct 0 with h0 | h0
  · rw [share_of_nonpos h0, share_of_nonpos h0]
  · refine Nat.ceil_mono (r.mono (div_le_div_of_nonneg_right (r.mono ?_) (by norm_num)))
    exact mul_le_mul_of_nonneg_right (r.mono (Nat.cast_le.mpr h)) h0

/-- One page more raises the share by at most one page. -/
theorem share_succ_le (h : pct ≤ 100) (hr : r.InRange (100 * (m + 1))) :
    share pct (m + 1) r ≤ share pct m r + 1 := by
  have hm : r m = m := r.natCast (r.inRange_of_le (by omega) hr)
  have hnext : r ((m + 1 : Nat) : ℚ) = m + 1 := by
    rw [r.natCast (r.inRange_of_le (by omega) hr), Nat.cast_succ]
  have hle : share pct m r ≤ m := by
    have hprod : r (m * pct) ≤ (100 * m : Nat) := by
      rw [← r.natCast (r.inRange_of_le (by omega) hr : r.InRange (100 * m))]
      refine r.mono ?_
      push_cast
      nlinarith [Nat.cast_nonneg (α := ℚ) m]
    unfold share
    rw [hm, Nat.ceil_le]
    refine (r.mono (div_le_of_le_mul₀ (by norm_num) (Nat.cast_nonneg m) ?_)).trans_eq hm
    push_cast at hprod
    linarith
  have hstep := r.div_shift (x := m * pct) (n := share pct m r) (d := 100) (by norm_num)
    (r.inRange_of_le (by omega) hr) (by rw [share, hm]; exact_mod_cast Nat.le_ceil _)
  have hmono : r ((m + 1 : ℚ) * pct) / 100 ≤ r (m * pct + (100 : Nat)) / 100 := by
    refine div_le_div_of_nonneg_right (r.mono ?_) (by norm_num)
    push_cast
    linarith
  rw [share, hnext, Nat.ceil_le]
  push_cast at hstep hmono ⊢
  exact (r.mono hmono).trans hstep

theorem le_share_of_le (h : 100 ≤ pct) (hr : r.InRange (100 * m)) : m ≤ share pct m r := by
  have hm : r m = m := r.natCast (r.inRange_of_le (by omega) hr)
  have hprod : ((100 * m : Nat) : ℚ) ≤ r (m * pct) := by
    rw [← r.natCast hr]
    refine r.mono ?_
    push_cast
    nlinarith [Nat.cast_nonneg (α := ℚ) m]
  have hquot : (m : ℚ) ≤ r (m * pct) / 100 := by
    push_cast at hprod
    linarith
  have := (r.mono hquot).trans (Nat.le_ceil _)
  rw [hm] at this
  unfold share
  rw [hm]
  exact_mod_cast this

variable (pct) in
/-- What the share leaves out grows with the pages. -/
theorem sub_share_mono (h : m ≤ n) (hr : r.InRange (100 * n)) :
    m - share pct m r ≤ n - share pct n r := by
  induction n, h using Nat.le_induction with
  | base => exact le_refl _
  | succ k hmk ih =>
      have hk := ih (r.inRange_of_le (by omega) hr)
      rcases le_total pct 100 with h1 | h1
      · have := share_succ_le (m := k) h1 hr
        omega
      · have := le_share_of_le (m := k) h1 (r.inRange_of_le (by omega) hr)
        omega

variable (pct r) in
theorem poolShare_mono (h : m ≤ n) : poolShare pct m r ≤ poolShare pct n r :=
  Nat.ceil_mono (r.mono (mul_le_mul_of_nonneg_right (r.mono (Nat.cast_le.mpr h))
    (le_max_left _ _)))

variable (pct) in
theorem poolShare_succ_le (hr : r.InRange (m + 1)) :
    poolShare pct (m + 1) r ≤ poolShare pct m r + 1 := by
  have hm : r m = m := r.natCast (r.inRange_of_le (Nat.le_succ m) hr)
  have hnext : r ((m + 1 : Nat) : ℚ) = m + 1 := by rw [r.natCast hr, Nat.cast_succ]
  unfold poolShare
  rw [hm, hnext]
  obtain ⟨ratio, hratio⟩ : ∃ ratio, max 0 (min 1 (r (pct / 100))) = ratio := ⟨_, rfl⟩
  have hone : ratio ≤ 1 := hratio ▸ max_le zero_le_one (min_le_left _ _)
  rw [hratio, Nat.ceil_le]
  have hle : ⌈r (m * ratio)⌉₊ ≤ m := by
    rw [Nat.ceil_le]
    refine (r.mono ?_).trans_eq hm
    nlinarith [Nat.cast_nonneg (α := ℚ) m]
  have hstep := r.shift (x := m * ratio) (n := ⌈r (m * ratio)⌉₊)
    (r.inRange_of_le (by omega) hr) (Nat.le_ceil _)
  push_cast
  refine (r.mono ?_).trans hstep
  linarith

variable (pct) in
theorem sub_poolShare_mono (h : m ≤ n) (hr : r.InRange n) :
    m - poolShare pct m r ≤ n - poolShare pct n r := by
  induction n, h using Nat.le_induction with
  | base => exact le_refl _
  | succ k hmk ih =>
      have hk := ih (r.inRange_of_le (Nat.le_succ k) hr)
      have := poolShare_succ_le pct (m := k) hr
      omega

end Share

variable {Req Layer : Type}

/-! ## What the pool has -/

/-- The pool has a raw page for each sequence's anchor and for the hot share of the rest. -/
theorem FullAttentionSpec.rawPages_eq (spec : FullAttentionSpec) (n : Nat)
    (r : Rounding) : (spec.physicalPoolPageCounts n r).1 = min n spec.tmhMaxNumSeqs +
      min (n - spec.tmhMaxNumSeqs)
        (poolShare spec.tmhHotBudgetPct (n - spec.tmhMaxNumSeqs) r) := by
  obtain ⟨m, hm⟩ : ∃ m, n - min n spec.tmhMaxNumSeqs = m := ⟨_, rfl⟩
  have hm' : n - spec.tmhMaxNumSeqs = m := by omega
  unfold physicalPoolPageCounts
  split
  · next h => omega
  · dsimp only
    rw [Nat.zero_max, hm, hm', Int.ceil_toNat, ← poolShare]
    omega

/-! ## What the policy asks for -/

/-- A request and the blocks it holds in the first cache group. -/
structure Holding (Req : Type) where
  requestId : Req
  totalTokens : Int
  blocks : List KVCacheBlock

namespace Holding

/-- The ids of the blocks that a record of the request reads. -/
def blockIds (h : Holding Req) : List Int :=
  (RuntimePolicy.logicalPagesOfBlocks h.blocks).map Prod.fst

/-- `total_pages` of a record of the request. -/
def totalPages (c : PolicyConfig Layer) (h : Holding Req) : Int :=
  c.totalPages (max 1 h.totalTokens)

variable [DecidableEq Layer] (c : PolicyConfig Layer) (layer : LayerShape Layer) (h : Holding Req)

/-- The descriptors that a record of the request gives a layer's pages. -/
def layerDescriptors (r : Rounding := .exact) : List (PhysicalPageDescriptor Req Layer) :=
  ((RuntimePolicy.logicalPagesOfBlocks h.blocks).take (h.totalPages c).toNat).zipIdx.map
    fun ((logicalBlockId, prefixCached), i) =>
      pageDescriptor c h.requestId (c.recentStartPage (h.totalPages c) r) i logicalBlockId
        prefixCached layer

/-- How many pages of the layer the policy classifies as pinned or hot raw. -/
def rawPages (r : Rounding := .exact) : Nat :=
  (h.layerDescriptors c layer r).countP fun d => d.role.raw

end Holding

namespace PolicyConfig

variable (c : PolicyConfig Layer)

theorem hotPages_eq (pages : Nat) (r : Rounding) :
    c.hotPages pages r = (min pages (share c.hotBudgetPct pages r) : Nat) := by
  unfold hotPages
  split
  · next h => rw [share_of_nonpos h, Nat.min_zero, Nat.cast_zero]
  · next h =>
      have hpct : 0 ≤ c.hotBudgetPct := (not_le.mp h).le
      have hpages := r.nonneg (Nat.cast_nonneg (α := ℚ) pages)
      have hceil : ⌈r (r (r ((pages : Int) : ℚ) * c.hotBudgetPct) / 100)⌉ =
          (share c.hotBudgetPct pages r : Int) := by
        rw [share, Int.natCast_ceil_eq_ceil]
        · rfl
        · exact r.nonneg (div_nonneg (r.nonneg (mul_nonneg hpages hpct)) (by norm_num))
      rw [hceil]
      omega

/-- The recent window ends a request's pages. -/
theorem recentStartPage_eq (pages : Nat) (r : Rounding) :
    c.recentStartPage pages r = (pages - share c.hotBudgetPct pages r : Nat) := by
  unfold recentStartPage
  rw [c.hotPages_eq]
  split <;> omega

end PolicyConfig

theorem countP_range_raw (start pages : Nat) :
    (List.range pages).countP (fun i => decide (i = 0 ∨ start ≤ i)) =
      min pages (1 + (pages - start)) := by
  induction pages with
  | zero => simp
  | succ pages ih =>
      rw [List.range_succ, List.countP_append, ih, List.countP_singleton]
      simp only [decide_eq_true_eq]
      split <;> omega

namespace Holding

variable [DecidableEq Layer] (c : PolicyConfig Layer) (layer : LayerShape Layer) (h : Holding Req)
  (r : Rounding)

/-- The raw pages: the anchor and the pages from the recent window on. -/
theorem rawPages_eq (pages : Nat)
    (hpages : min (h.totalPages c).toNat h.blockIds.length = pages) : h.rawPages c layer r =
      min pages (1 + (pages - ((h.totalPages c).toNat -
        share c.hotBudgetPct (h.totalPages c).toNat r))) := by
  obtain ⟨t, ht⟩ : ∃ t : Nat, h.totalPages c = t := ⟨_, (Int.toNat_of_nonneg
    ((zero_le_one).trans (c.totalPages_pos _))).symm⟩
  rw [← countP_range_raw]
  unfold rawPages layerDescriptors
  rw [List.countP_map, ht, Int.toNat_natCast]
  have hraw : ((fun d : PhysicalPageDescriptor Req Layer => d.role.raw) ∘
      fun x : (Int × Bool) × Nat => pageDescriptor c h.requestId (c.recentStartPage t r)
        x.2 x.1.1 x.1.2 layer) = (fun i => decide (i = 0 ∨ t - share c.hotBudgetPct t r ≤ i)) ∘
          Prod.snd := by
    funext x
    simp only [Function.comp, pageDescriptor, physicalRoleForPage_raw, c.recentStartPage_eq]
    congr 1
    rw [ge_iff_le, Nat.cast_le, Nat.cast_eq_zero]
  rw [hraw, ← List.countP_map, List.zipIdx_map_snd, List.length_take, ← List.range_eq_range']
  rw [blockIds, List.length_map, ht, Int.toNat_natCast] at hpages
  rw [hpages]

/-- **What the policy asks for.** A request that holds `b` blocks has at most its anchor and
    the hot share of `b` pages in the raw pool. -/
theorem rawPages_le (hr : r.InRange (100 * (h.totalPages c).toNat)) : h.rawPages c layer r ≤
    min h.blockIds.length (1 + share c.hotBudgetPct h.blockIds.length r) := by
  obtain ⟨p, hp⟩ : ∃ p, min (h.totalPages c).toNat h.blockIds.length = p := ⟨_, rfl⟩
  rw [h.rawPages_eq c layer r p hp]
  have hwin := sub_share_mono c.hotBudgetPct (m := p) (by omega) hr
  have hshare := share_mono c.hotBudgetPct r (m := p) (n := h.blockIds.length) (by omega)
  omega

/-- A request whose blocks cover its pages has exactly that many. -/
theorem rawPages_eq_of_full (hfull : (h.totalPages c).toNat = h.blockIds.length) :
    h.rawPages c layer r =
      min h.blockIds.length (1 + share c.hotBudgetPct h.blockIds.length r) := by
  rw [h.rawPages_eq c layer r h.blockIds.length (by omega), hfull]
  omega

end Holding

/-! ## Families of requests -/

/-- Requests `name i`, `name (i + 1)`, … that hold consecutive runs of blocks of the given
    sizes, from block `o + 1` on. -/
def stacked (name : Nat → Req) (pageTokens : Nat) : Nat → Nat → List Nat → List (Holding Req)
  | _, _, [] => []
  | i, o, pages :: rest =>
      { requestId := name i
        totalTokens := (pages * pageTokens : Nat)
        blocks := (List.range' (o + 1) pages).map fun b : Nat => { blockId := (b : Int) } } ::
        stacked name pageTokens (i + 1) (o + pages) rest

section Stacked

variable {name : Nat → Req} {pageTokens : Nat}

theorem blockIds_run (q : Req) (t : Int) (ids : List Nat) :
    (Holding.mk q t (ids.map fun b : Nat => { blockId := (b : Int) })).blockIds =
      ids.map fun b : Nat => (b : Int) := by
  unfold Holding.blockIds RuntimePolicy.logicalPagesOfBlocks
  rw [List.filter_eq_self.mpr (by simp), List.map_map, List.map_map]
  rfl

theorem map_length_stacked (i o : Nat) (sizes : List Nat) :
    (stacked name pageTokens i o sizes).map (fun h => h.blockIds.length) = sizes := by
  induction sizes generalizing i o with
  | nil => rfl
  | cons pages rest ih =>
      rw [stacked, List.map_cons, ih, blockIds_run, List.length_map, List.length_range']

theorem length_stacked (i o : Nat) (sizes : List Nat) :
    (stacked name pageTokens i o sizes).length = sizes.length := by
  rw [← List.length_map (fun h : Holding Req => h.blockIds.length), map_length_stacked]

theorem requestIds_stacked (i o : Nat) (sizes : List Nat) :
    (stacked name pageTokens i o sizes).map Holding.requestId =
      (List.range' i sizes.length).map name := by
  induction sizes generalizing i o with
  | nil => rfl
  | cons pages rest ih => rw [stacked, List.map_cons, ih]; rfl

theorem blockIds_stacked (i o : Nat) (sizes : List Nat) :
    (stacked name pageTokens i o sizes).flatMap Holding.blockIds =
      (List.range' (o + 1) sizes.sum).map fun b : Nat => (b : Int) := by
  induction sizes generalizing i o with
  | nil => rfl
  | cons pages rest ih =>
      rw [stacked, List.flatMap_cons, ih, blockIds_run, List.sum_cons, ← List.range'_append_1,
        List.map_append, Nat.add_right_comm]

theorem full_stacked (c : PolicyConfig Layer) (sizes : List Nat) (hpos : ∀ b ∈ sizes, 0 < b)
    (i o : Nat) : ∀ h ∈ stacked name c.pageTokens i o sizes,
      (h.totalPages c).toNat = h.blockIds.length := by
  induction sizes generalizing i o with
  | nil => intro h hmem; cases hmem
  | cons pages rest ih =>
      intro h hmem
      rcases List.mem_cons.mp hmem with rfl | hmem
      · rw [blockIds_run, List.length_map, List.length_range']
        have hp := hpos pages List.mem_cons_self
        have ht := c.pageTokens_pos
        unfold Holding.totalPages PolicyConfig.totalPages
        have hge : (1 : Int) ≤ (pages * c.pageTokens : Nat) := by
          exact_mod_cast Nat.mul_pos hp ht
        rw [max_eq_right hge, Nat.cast_mul, ← Int.neg_mul, Int.mul_ediv_cancel _ (by omega)]
        omega
      · exact ih (fun b hb => hpos b (List.mem_cons_of_mem _ hb)) _ _ h hmem

variable (name) in
theorem sum_rawPages_stacked [DecidableEq Layer] (c : PolicyConfig Layer)
    (layer : LayerShape Layer) (r : Rounding) (sizes : List Nat) (hpos : ∀ b ∈ sizes, 0 < b) :
    ((stacked name c.pageTokens 0 0 sizes).map (Holding.rawPages c layer · r)).sum =
      (sizes.map fun b => min b (1 + share c.hotBudgetPct b r)).sum := by
  have hmap : (stacked name c.pageTokens 0 0 sizes).map (Holding.rawPages c layer · r) =
      ((stacked name c.pageTokens 0 0 sizes).map fun h => h.blockIds.length).map
        fun b => min b (1 + share c.hotBudgetPct b r) := by
    rw [List.map_map]
    refine List.map_congr_left fun h hmem => ?_
    exact h.rawPages_eq_of_full c layer r (full_stacked c sizes hpos 0 0 h hmem)
  rw [hmap, map_length_stacked]

end Stacked

/-! ## Demand against pool -/

section Covers

variable [DecidableEq Layer] (c : PolicyConfig Layer) (layer : LayerShape Layer)

/-- The raw pool for `n` logical blocks covers the raw pages of every family of at most
    `tmhMaxNumSeqs` requests that hold, in all, at most `n` blocks and no block twice. The page
    counts are in the range of the arithmetic (below 2 ^ 45 for doubles). -/
def RawPoolCovers (Req : Type) (spec : FullAttentionSpec) (n : Nat) (r : Rounding) : Prop :=
  ∀ family : List (Holding Req), family.length ≤ spec.tmhMaxNumSeqs →
    (family.map Holding.requestId).Nodup → (family.flatMap Holding.blockIds).Nodup →
    (family.flatMap Holding.blockIds).length ≤ n →
    (∀ h ∈ family, r.InRange (100 * (h.totalPages c).toNat)) →
    (family.map (Holding.rawPages c layer · r)).sum ≤ (spec.physicalPoolPageCounts n r).1

variable {c layer} {spec : FullAttentionSpec} {n : Nat} {r : Rounding}

/-- A pool that covers every family covers requests of any sizes. -/
theorem RawPoolCovers.sizes [Infinite Req] (h : RawPoolCovers c layer Req spec n r)
    (hr : r.InRange (100 * n)) (sizes : List Nat) (hpos : ∀ b ∈ sizes, 0 < b)
    (hlen : sizes.length ≤ spec.tmhMaxNumSeqs) (hsum : sizes.sum ≤ n) :
    (sizes.map fun b => min b (1 + share c.hotBudgetPct b r)).sum ≤
      (spec.physicalPoolPageCounts n r).1 := by
  have name : Nat ↪ Req := Infinite.natEmbedding Req
  rw [← sum_rawPages_stacked name c layer r sizes hpos]
  refine h _ ?_ ?_ ?_ ?_ ?_
  · rw [length_stacked]
    exact hlen
  · rw [requestIds_stacked]
    exact List.Nodup.map name.injective List.nodup_range'
  · rw [blockIds_stacked]
    exact List.Nodup.map Nat.cast_injective List.nodup_range'
  · rw [blockIds_stacked, List.length_map, List.length_range']
    exact hsum
  · intro holding hmem
    have hb := List.mem_map_of_mem (f := fun h : Holding Req => h.blockIds.length) hmem
    rw [map_length_stacked] at hb
    have hle := List.le_sum_of_mem hb
    rw [full_stacked c sizes hpos 0 0 holding hmem]
    exact r.inRange_of_le (by omega) hr

/-- A family of holdings on at most `n` blocks demands no more raw pages than that, and for each
    request no more than its anchor and the hot share of all of them. -/
theorem sum_rawPages_le (layer : LayerShape Layer) {family : List (Holding Req)}
    (hsum : (family.flatMap Holding.blockIds).length ≤ n)
    (hrange : ∀ h ∈ family, r.InRange (100 * (h.totalPages c).toNat)) :
    (family.map (Holding.rawPages c layer · r)).sum ≤ n ∧
      (family.map (Holding.rawPages c layer · r)).sum ≤
        family.length * (1 + share c.hotBudgetPct n r) := by
  have hraw : ∀ h ∈ family, h.rawPages c layer r ≤
      min h.blockIds.length (1 + share c.hotBudgetPct h.blockIds.length r) :=
    fun h hmem => h.rawPages_le c layer r (hrange h hmem)
  rw [List.length_flatMap] at hsum
  refine ⟨(List.sum_le_sum fun h hmem => (hraw h hmem).trans (min_le_left _ _)).trans hsum, ?_⟩
  rw [← List.length_map (Holding.rawPages c layer · r), ← smul_eq_mul]
  refine List.sum_le_card_nsmul _ _ fun k hk => ?_
  obtain ⟨h, hmem, rfl⟩ := List.mem_map.mp hk
  have hsize := List.le_sum_of_mem (List.mem_map_of_mem (f := fun h => h.blockIds.length) hmem)
  have hshare := share_mono c.hotBudgetPct r (hsize.trans hsum)
  have := hraw h hmem
  omega

/-- **Raw pool sizing.** The pool covers every family when the hot share of `n` pages is none, or
    the pages beyond the anchors are all raw, or no sequence is allowed, or only one is and the
    hot share of `n` pages is at most what the pool has for the `n - 1` pages beyond its anchor.
    Otherwise it does not, except where several sequences are allowed and two pages have no hot
    share, or the pool rounds the share of the pages beyond the anchors higher than the policy. -/
theorem raw_pool_covers [Infinite Req] (c : PolicyConfig Layer) (layer : LayerShape Layer)
    (spec : FullAttentionSpec) (hpct : spec.tmhHotBudgetPct = c.hotBudgetPct) (r : Rounding)
    (n : Nat) (hr : r.InRange (100 * n)) :
    let hot (pages : Nat) := share c.hotBudgetPct pages r
    let pool (pages : Nat) := poolShare c.hotBudgetPct pages r
    let rest := n - spec.tmhMaxNumSeqs
    let enough := hot n = 0 ∨ rest ≤ pool rest ∨ spec.tmhMaxNumSeqs = 0 ∨
      (spec.tmhMaxNumSeqs = 1 ∧ hot n ≤ pool (n - 1))
    (enough → RawPoolCovers c layer Req spec n r) ∧
    (RawPoolCovers c layer Req spec n r →
      enough ∨ (2 ≤ spec.tmhMaxNumSeqs ∧ (hot 2 = 0 ∨ hot rest < pool rest))) := by
  dsimp only
  have hpool := spec.rawPages_eq n r
  rw [hpct] at hpool
  constructor
  · intro hcond family hlen _ _ hsum hrange
    obtain ⟨hblocks, hrequests⟩ := sum_rawPages_le layer hsum hrange
    replace hrequests := hrequests.trans (Nat.mul_le_mul_right _ hlen)
    rcases hcond with h0 | hall | hzero | ⟨hone, hshare⟩
    · -- only the anchors are raw
      rw [h0] at hrequests
      omega
    · omega
    · rw [hzero, zero_mul] at hrequests
      omega
    · rw [hone] at hrequests hpool
      omega
  · intro hcov
    by_contra hcond
    push Not at hcond
    obtain ⟨⟨hpos, hcold, hzero, hone⟩, hmany⟩ := hcond
    rcases Nat.lt_or_ge 1 spec.tmhMaxNumSeqs with htwo | hle
    · -- one request of two pages takes two raw pages, which the pool does not count twice
      obtain ⟨htwoPages, hshare⟩ := hmany htwo
      have hsizes := hcov.sizes hr
        (2 :: (n - spec.tmhMaxNumSeqs) :: List.replicate (spec.tmhMaxNumSeqs - 2) 1)
        (by
          intro b hb
          simp only [List.mem_cons, List.mem_replicate] at hb
          omega)
        (by simp only [List.length_cons, List.length_replicate]; omega)
        (by simp only [List.sum_cons, List.sum_replicate, smul_eq_mul]; omega)
      simp only [List.map_cons, List.map_replicate, List.sum_cons, List.sum_replicate,
        smul_eq_mul] at hsizes
      rw [hpool, min_eq_left (by omega : 1 ≤ 1 + share c.hotBudgetPct 1 r)] at hsizes
      omega
    · -- the only request holds everything
      have hM : spec.tmhMaxNumSeqs = 1 := by omega
      have hne := hone hM
      rw [hM] at hcold hpool
      have hsizes := hcov.sizes hr [n] (by simp; omega) (by simp [hM]) (by simp)
      simp only [List.map_cons, List.map_nil, List.sum_cons, List.sum_nil] at hsizes
      omega

end Covers

/-- A quarter of the pages is hot; pages of sixteen tokens, one layer. -/
def quarterPolicy : PolicyConfig Nat :=
  { policy := .physical
    hotBudgetPct := 25
    pageTokens := 16
    layers := [{ layerName := 0, layerIndex := 0, numKvHeads := 1, headSize := 16, headSizeV := 16,
                 rawDtypeBytes := 2 }]
    pageTokens_pos := Nat.succ_pos _ }

/-- The spec of its layer, for one sequence of at most five pages. -/
def oneSequence : FullAttentionSpec :=
  { blockSize := 16, tmhHotBudgetPct := 25, tmhMaxNumSeqs := 1, tmhMaxModelPages := 5 }

/-- One request whose five pages fill five blocks. -/
def fivePages : Holding Nat :=
  { requestId := 0
    totalTokens := 80
    blocks := [{ blockId := 1 }, { blockId := 2 }, { blockId := 3 }, { blockId := 4 },
      { blockId := 5 }] }

theorem raw_pool_covers_four :
    oneSequence.tmhHotBudgetPct = quarterPolicy.hotBudgetPct ∧
      ∀ layer ∈ quarterPolicy.layers,
        RawPoolCovers quarterPolicy layer Nat oneSequence 4 .binary64 :=
  ⟨rfl, fun layer _ => (raw_pool_covers quarterPolicy layer oneSequence rfl .binary64 4
    (show 100 * 4 < 2 ^ 52 by norm_num)).1 (Or.inr (Or.inr (Or.inr ⟨rfl, by decide +kernel⟩)))⟩

/-- Five blocks, one sequence: the pool has two raw pages, the request needs three. -/
theorem raw_pool_covers_fails :
    oneSequence.tmhHotBudgetPct = quarterPolicy.hotBudgetPct ∧
      [fivePages].length ≤ oneSequence.tmhMaxNumSeqs ∧
      ([fivePages].map Holding.requestId).Nodup ∧
      ([fivePages].flatMap Holding.blockIds).Nodup ∧
      ([fivePages].flatMap Holding.blockIds).length ≤ 5 ∧
      (oneSequence.physicalPoolPageCounts 5 .binary64).1 = 2 ∧
      quarterPolicy.layers.all fun layer =>
        ([fivePages].map (Holding.rawPages quarterPolicy layer · .binary64)).sum = 3 := by
  decide +kernel

/-- At 28 percent the pool rounds 25 * 0.28 up to 8 pages, the policy rounds 25 * 28 / 100 to 7. -/
example : poolShare 28 25 .binary64 = 8 ∧ share 28 25 .binary64 = 7 := by decide +kernel

end Sock.Tmh
