/-
  The hot pages that the CUDA shim reports (cuda-shim/sock_cuda_shim/kv_cache.py), against the
  runtime policy that it stands for (tmh_policy.py).

  * `KvPageSpec`, `TmhPhysicalPolicy`: values that passed the checks of `__post_init__`.
  * `TmhPhysicalPolicy.pressure`: the report for a number of tokens.
  * `hotPages_eq`, `rawPages_eq`: the shim takes the hot share of the pages after the anchor, the
    policy takes it of all pages. `shim_hot_pages_iff`: when that is the same, for any rounding.

  Not modelled: the sizes and precisions of a page and the bytes of a report, which its pages do
  not depend on, and the validation of slot mappings.
-/
import Sock.Tmh.Window

namespace Sock.CudaShim

open Lib Tmh

/-! ## The shim -/

/-- `KVPageSpec`, as far as page counts are computed from it. -/
structure KvPageSpec where
  blockTokens : Nat
  blockTokens_pos : 0 < blockTokens

/-- `pages_for_tokens`: `max(1, ceil(max(1, tokens) / block_tokens))`; no result for a negative
    count, for which the source raises. -/
def KvPageSpec.pagesForTokens (spec : KvPageSpec) (tokens : Int) : Option Int :=
  if tokens < 0 then none else some (max 1 (-(-(max 1 tokens) / (spec.blockTokens : Int))))

/-- `TMHPhysicalPolicy`, as far as page counts are computed from it. -/
structure TmhPhysicalPolicy where
  hotBudgetPct : ℚ := 25
  anchorPages : Nat := 1
  hotBudgetPct_nonneg : 0 ≤ hotBudgetPct
  hotBudgetPct_le : hotBudgetPct ≤ 100

/-- The pages of a report. -/
structure Pressure where
  totalPages : Int
  hotPages : Int
  deriving DecidableEq

namespace TmhPhysicalPolicy

variable (policy : TmhPhysicalPolicy) (r : Rounding)

/-- `hot_pages`. -/
def hotPages (totalPages : Int) : Int :=
  min totalPages (policy.anchorPages +
    ⌈r (r (r (max 0 (totalPages - policy.anchorPages) : Int) * policy.hotBudgetPct) / 100)⌉)

/-- `pressure`. -/
def pressure (spec : KvPageSpec) (totalTokens : Int) : Option Pressure := do
  let totalPages ← spec.pagesForTokens totalTokens
  return { totalPages, hotPages := policy.hotPages r totalPages }

/-- The shim's hot pages: the anchor, and the hot share of the pages after it. -/
theorem hotPages_eq (hanchor : policy.anchorPages = 1) {pages : Nat} (hpos : 0 < pages) :
    policy.hotPages r pages =
      (min pages (1 + share policy.hotBudgetPct (pages - 1) r) : Nat) := by
  have hrest : max 0 ((pages : Int) - policy.anchorPages) = ((pages - 1 : Nat) : Int) := by
    rw [hanchor]
    omega
  have hceil : ⌈r (r (r (((pages - 1 : Nat) : Int) : ℚ) * policy.hotBudgetPct) / 100)⌉ =
      (share policy.hotBudgetPct (pages - 1) r : Int) := by
    have hpages := r.nonneg (Nat.cast_nonneg (α := ℚ) (pages - 1))
    have hprod := mul_nonneg hpages policy.hotBudgetPct_nonneg
    rw [share, Int.natCast_ceil_eq_ceil]
    · rfl
    · exact r.nonneg (div_nonneg (r.nonneg hprod) (by norm_num))
  unfold hotPages
  rw [hrest, hceil, hanchor]
  omega

end TmhPhysicalPolicy

/-! ## The runtime policy -/

section Runtime

variable {Layer : Type} [DecidableEq Layer] (c : PolicyConfig Layer) (r : Rounding)

/-- How many pages of a request the runtime policy takes for pinned or hot raw. -/
def rawPages (layer : LayerShape Layer) (tokens : Int) : Nat :=
  (List.range (c.pagesOf tokens).toNat).countP fun page : Nat =>
    (c.roleAt layer page tokens r).raw

/-- The runtime's raw pages: the anchor, and the hot share of all pages. -/
theorem rawPages_eq (layer : LayerShape Layer) {tokens : Int} {pages : Nat}
    (hpages : c.pagesOf tokens = pages) :
    rawPages c r layer tokens = min pages (1 + share c.hotBudgetPct pages r) := by
  have hrole : ∀ page : Nat, (c.roleAt layer page tokens r).raw =
      decide (page = 0 ∨ pages - share c.hotBudgetPct pages r ≤ page) := by
    intro page
    rw [PolicyConfig.roleAt, physicalRoleForPage_raw, hpages, c.recentStartPage_eq,
      decide_eq_decide]
    omega
  simp only [rawPages, hrole, hpages, Int.toNat_natCast, countP_range_raw]
  omega

/-- **Hot pages of the shim.** With one anchor page, a report counts the pages that the runtime
    policy takes for raw exactly when the hot share of all pages is that of the pages after the
    anchor, or leaves none of these out. Both sides compute in one arithmetic, the source's doubles
    or any other. -/
theorem shim_hot_pages_iff (policy : TmhPhysicalPolicy) (hanchor : policy.anchorPages = 1)
    (spec : KvPageSpec) (hbudget : c.hotBudgetPct = policy.hotBudgetPct)
    (hblock : c.pageTokens = spec.blockTokens) (layer : LayerShape Layer) (tokens : Nat) :
    ∃ report, policy.pressure r spec tokens = some report ∧
      report.totalPages = c.pagesOf tokens ∧
      (report.hotPages = rawPages c r layer tokens ↔
        share c.hotBudgetPct (c.pagesOf tokens).toNat r =
          share c.hotBudgetPct ((c.pagesOf tokens).toNat - 1) r ∨
        (c.pagesOf tokens).toNat ≤ 1 + share c.hotBudgetPct ((c.pagesOf tokens).toNat - 1) r) := by
  have hpos : 1 ≤ c.pagesOf tokens := c.totalPages_pos _
  obtain ⟨pages, hpages⟩ : ∃ pages : Nat, c.pagesOf tokens = pages :=
    ⟨_, (Int.toNat_of_nonneg (by omega)).symm⟩
  have hcount : spec.pagesForTokens tokens = some (c.pagesOf tokens) := by
    rw [KvPageSpec.pagesForTokens, if_neg (by omega), ← hblock]
    rfl
  refine ⟨⟨c.pagesOf tokens, policy.hotPages r (c.pagesOf tokens)⟩, ?_, rfl, ?_⟩
  · rw [TmhPhysicalPolicy.pressure, hcount]
    rfl
  · have hmono := share_mono c.hotBudgetPct r (Nat.sub_le pages 1)
    dsimp only
    rw [rawPages_eq c r layer hpages, hpages, policy.hotPages_eq r hanchor (by omega), ← hbudget,
      Int.toNat_natCast, Nat.cast_inj]
    omega

end Runtime

/-- A quarter of the pages, and one anchor. -/
def quarterPolicy : TmhPhysicalPolicy where
  hotBudgetPct_nonneg := by decide +kernel
  hotBudgetPct_le := by decide +kernel

/-- Blocks of sixteen tokens. -/
def sixteenTokens : KvPageSpec where
  blockTokens := 16
  blockTokens_pos := by decide

/-- The runtime policy for these. -/
def quarterConfig : PolicyConfig Nat :=
  { onePhysicalLayer with pageTokens := 16, pageTokens_pos := by decide }

/-- Four pages: two are hot, for the shim and for the runtime. -/
theorem shim_hot_pages_four :
    ∃ report, quarterPolicy.pressure .binary64 sixteenTokens (64 : Nat) = some report ∧
      report.totalPages = 4 ∧
      report.hotPages = rawPages quarterConfig .binary64 ⟨0, 0, 1, 1, 1, 2⟩ (64 : Nat) := by
  obtain ⟨report, hok, htotal, hiff⟩ := shim_hot_pages_iff quarterConfig .binary64 quarterPolicy rfl
    sixteenTokens rfl rfl ⟨0, 0, 1, 1, 1, 2⟩ 64
  exact ⟨report, hok, htotal, hiff.mpr (by decide +kernel)⟩

/-- Five pages: the shim reports two hot pages, the runtime keeps three raw. -/
theorem shim_hot_pages_differ :
    quarterPolicy.pressure .binary64 sixteenTokens 80 = some ⟨5, 2⟩ ∧
      rawPages quarterConfig .binary64 ⟨0, 0, 1, 1, 1, 2⟩ 80 = 3 := by
  decide +kernel

/-- The double for 0.8 is above it, so its exact share of 125 pages is 2; in doubles the product is
    100 and the share 1. -/
example : share (nearestDouble (8 / 10)) 125 = 2 ∧
    share (nearestDouble (8 / 10)) 125 .binary64 = 1 := by decide +kernel

end Sock.CudaShim
