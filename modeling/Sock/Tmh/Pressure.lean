/-
  The byte accounting of a request's pressure report (`record_allocation` in `tmh_policy.py`).

  A report charges spans of pages: page 0 and the recent window as hot, the pages between them as
  warm. A span's bytes are rounded up page by page, so spans that follow each other add up
  (`bytesForPageSpan_add`). When the window is the whole request, page 0 is charged twice;
  `pressure_counts_once_iff` says for which page counts and budgets every token is charged once.

  * `hotSpans`, `warmSpans`: the spans of a report.
-/
import Mathlib.Data.Int.Interval
import Sock.Tmh.Window

namespace Sock.Tmh

variable {Req Layer : Type}

/-! ## Bytes of a span -/

section Bytes

variable (layer : LayerShape Layer) (precision : Precision) (component : Component)

/-- The bytes of so many tokens, rounded up page by page. -/
def pagedBytes (pageTokens : Nat) (tokens : Int) : Int :=
  tokens / pageTokens * bytesFor layer pageTokens precision component +
    bytesFor layer (tokens % pageTokens) precision component

@[simp] theorem bytesFor_zero : bytesFor layer 0 precision component = 0 := by
  unfold bytesFor
  simp

theorem bytesForPageSpan_eq (startPage endPage totalTokens : Int) (pageTokens : Nat) :
    bytesForPageSpan layer startPage endPage totalTokens pageTokens precision component =
      pagedBytes layer precision component pageTokens
        (tokenCountForPageSpan startPage endPage totalTokens pageTokens) := by
  unfold bytesForPageSpan pagedBytes
  dsimp only
  split
  · rfl
  · next h => rw [not_not.mp h, bytesFor_zero, Int.add_zero]

/-- Whole pages first. -/
theorem pagedBytes_add {pageTokens : Nat} (hpos : 0 < pageTokens) (pages tokens : Int) :
    pagedBytes layer precision component pageTokens (pages * pageTokens + tokens) =
      pagedBytes layer precision component pageTokens (pages * pageTokens) +
        pagedBytes layer precision component pageTokens tokens := by
  have hne : (pageTokens : Int) ≠ 0 := by omega
  unfold pagedBytes
  rw [Int.add_comm (pages * _) tokens, Int.add_mul_ediv_right _ _ hne, Int.add_mul_emod_self_right,
    Int.mul_ediv_cancel _ hne, Int.mul_emod_left, bytesFor_zero]
  ring

theorem tokenCountForPageSpan_of_le {startPage endPage : Int} (h : startPage ≤ endPage)
    (totalTokens : Int) (pageTokens : Nat) :
    tokenCountForPageSpan startPage endPage totalTokens pageTokens =
      max 0 (min totalTokens (endPage * pageTokens) - startPage * pageTokens) := by
  unfold tokenCountForPageSpan
  split
  · next hle =>
      obtain rfl : startPage = endPage := by omega
      omega
  · rfl

theorem tokenCountForPageSpan_nonneg (startPage endPage totalTokens : Int) (pageTokens : Nat) :
    0 ≤ tokenCountForPageSpan startPage endPage totalTokens pageTokens := by
  unfold tokenCountForPageSpan
  split
  · exact le_refl _
  · exact le_max_left _ _

/-- Spans that follow each other add up. -/
theorem bytesForPageSpan_add {a b d totalTokens : Int} {pageTokens : Nat} (hpos : 0 < pageTokens)
    (hab : a ≤ b) (hbd : b ≤ d) :
    bytesForPageSpan layer a d totalTokens pageTokens precision component =
      bytesForPageSpan layer a b totalTokens pageTokens precision component +
        bytesForPageSpan layer b d totalTokens pageTokens precision component := by
  have hab' : a * (pageTokens : Int) ≤ b * pageTokens :=
    Int.mul_le_mul_of_nonneg_right hab (by omega)
  have hbd' : b * (pageTokens : Int) ≤ d * pageTokens :=
    Int.mul_le_mul_of_nonneg_right hbd (by omega)
  rw [bytesForPageSpan_eq, bytesForPageSpan_eq, bytesForPageSpan_eq,
    tokenCountForPageSpan_of_le hab, tokenCountForPageSpan_of_le hbd,
    tokenCountForPageSpan_of_le (hab.trans hbd)]
  rcases Int.le_total (b * pageTokens) totalTokens with hfull | hpart
  · -- the first span has whole pages only
    have hcount : max 0 (min totalTokens (b * pageTokens) - a * pageTokens) =
        (b - a) * pageTokens := by
      rw [Int.sub_mul]
      omega
    rw [hcount, ← pagedBytes_add layer precision component hpos, Int.sub_mul]
    congr 1
    omega
  · -- the second span is empty
    have hempty : max 0 (min totalTokens (d * pageTokens) - b * pageTokens) = 0 := by omega
    have hzero : pagedBytes layer precision component pageTokens 0 = 0 := by simp [pagedBytes]
    rw [hempty, hzero, Int.add_zero]
    congr 1
    omega

variable {layer precision component}

/-- `bytes_per_scalar`. -/
def Precision.bytesPerScalar (layer : LayerShape Layer) : Precision → ℚ
  | .raw => layer.rawDtypeBytes
  | .int8 => 1
  | .int4 => 1 / 2

/-- Fewer bytes for a scalar, fewer bytes for a span. -/
theorem bytesForPageSpan_le {precision' : Precision}
    (h : precision.bytesPerScalar layer ≤ precision'.bytesPerScalar layer)
    (startPage endPage totalTokens : Int) {pageTokens : Nat} (hpos : 0 < pageTokens) :
    bytesForPageSpan layer startPage endPage totalTokens pageTokens precision component ≤
      bytesForPageSpan layer startPage endPage totalTokens pageTokens precision' component := by
  have hbytes : ∀ tokens : Int, 0 ≤ tokens →
      bytesFor layer tokens precision component ≤ bytesFor layer tokens precision' component := by
    intro tokens htokens
    have htokens : (0 : ℚ) ≤ tokens := by exact_mod_cast htokens
    refine Int.ceil_le_ceil (mul_le_mul_of_nonneg_left h ?_)
    cases component <;> positivity
  have hcount := tokenCountForPageSpan_nonneg startPage endPage totalTokens pageTokens
  rw [bytesForPageSpan_eq, bytesForPageSpan_eq]
  exact Int.add_le_add
    (Int.mul_le_mul_of_nonneg_left (hbytes _ (by omega)) (Int.ediv_nonneg hcount (by omega)))
    (hbytes _ (Int.emod_nonneg _ (by omega)))

theorem bytesForPageSpan_nonneg (h : 0 ≤ precision.bytesPerScalar layer)
    (startPage endPage totalTokens : Int) {pageTokens : Nat} (hpos : 0 < pageTokens) :
    0 ≤ bytesForPageSpan layer startPage endPage totalTokens pageTokens precision component := by
  have hbytes : ∀ tokens : Int, 0 ≤ tokens → 0 ≤ bytesFor layer tokens precision component := by
    intro tokens htokens
    have htokens : (0 : ℚ) ≤ tokens := by exact_mod_cast htokens
    refine Int.ceil_nonneg (mul_nonneg ?_ h)
    cases component <;> positivity
  have hcount := tokenCountForPageSpan_nonneg startPage endPage totalTokens pageTokens
  rw [bytesForPageSpan_eq]
  exact Int.add_nonneg (Int.mul_nonneg (Int.ediv_nonneg hcount (by omega)) (hbytes _ (by omega)))
    (hbytes _ (Int.emod_nonneg _ (by omega)))

end Bytes

/-! ## The spans of a report -/

variable (c : PolicyConfig Layer)

/-- A span of pages: where it starts, and where it ends. -/
abbrev PageSpan := Int × Int

/-- The span has the token, among the first `totalTokens`. -/
def PageSpan.holds (span : PageSpan) (totalTokens : Int) (pageTokens : Nat) (token : Int) : Bool :=
  decide (span.1 * pageTokens ≤ token ∧ token < min totalTokens (span.2 * pageTokens))

namespace PolicyConfig

/-- The spans that a report charges as hot. -/
def hotSpans (totalTokens : Int) : List PageSpan :=
  [(0, 1), (c.recentStartPage (c.totalPages totalTokens), c.totalPages totalTokens)]

/-- The span that a report charges as warm. -/
def warmSpans (totalTokens : Int) : List PageSpan :=
  [(1, c.recentStartPage (c.totalPages totalTokens))]

/-- The bytes of spans in a layer, for given precisions of keys and values. -/
def spanBytes (totalTokens : Int) (keys values : Precision) (spans : List PageSpan)
    (layer : LayerShape Layer) : Int :=
  (spans.map fun span =>
    bytesForPageSpan layer span.1 span.2 totalTokens c.pageTokens keys .k +
      bytesForPageSpan layer span.1 span.2 totalTokens c.pageTokens values .v).sum

end PolicyConfig

section Report

variable (requestId : Req) (totalTokens promptTokens : Int) (liveBytes : Nat)

/-- What a report charges, span by span. -/
theorem requestPressure_bytes :
    let report := requestPressure c requestId totalTokens promptTokens liveBytes
    report.rawEquivalentBytes = (c.layers.map
        (c.spanBytes totalTokens .raw .raw [(0, c.totalPages totalTokens)])).sum ∧
      report.hotBytes = (c.layers.map
        (c.spanBytes totalTokens .raw .raw (c.hotSpans totalTokens))).sum ∧
      report.warmBytes = (c.earlyLayers.map
          (c.spanBytes totalTokens .int8 .int4 (c.warmSpans totalTokens))).sum +
        (c.lateLayers.map (c.spanBytes totalTokens .int8 .int8 (c.warmSpans totalTokens))).sum ∧
      report.tmhEffectiveBytes = report.hotBytes + report.warmBytes ∧
      report.sameHotUniformInt8Bytes = report.hotBytes + (c.layers.map
        (c.spanBytes totalTokens .int8 .int8 (c.warmSpans totalTokens))).sum := by
  unfold PolicyConfig.spanBytes PolicyConfig.hotSpans PolicyConfig.warmSpans requestPressure
  simp

end Report

section Once

variable {c} {totalTokens : Int}

/-- The start of the window is a page of the request, or its end. -/
theorem PolicyConfig.recentStartPage_bounds (c : PolicyConfig Layer) (totalTokens : Int) :
    0 ≤ c.recentStartPage (c.totalPages totalTokens) ∧
      c.recentStartPage (c.totalPages totalTokens) ≤ c.totalPages totalTokens := by
  obtain ⟨pages, hpages⟩ : ∃ pages : Nat, c.totalPages totalTokens = pages :=
    ⟨_, (Int.toNat_of_nonneg (Int.le_of_lt (c.totalPages_pos _))).symm⟩
  rw [hpages, c.recentStartPage_eq]
  omega

theorem PolicyConfig.le_totalPages_mul (c : PolicyConfig Layer) (totalTokens : Int) :
    totalTokens ≤ c.totalPages totalTokens * c.pageTokens := by
  have hpos : (0 : Int) < c.pageTokens := by exact_mod_cast c.pageTokens_pos
  have hle : -(-totalTokens / (c.pageTokens : Int)) ≤ c.totalPages totalTokens := le_max_right _ _
  have hdiv := Int.ediv_mul_le (-totalTokens) (Int.ne_of_gt hpos)
  have hmul := Int.mul_le_mul_of_nonneg_right hle (Int.le_of_lt hpos)
  rw [Int.neg_mul] at hmul
  omega

/-- Every token is charged once when page 0 is not in the window, and else page 0 is charged
    twice. -/
theorem charged_once_iff (hpos : 0 < totalTokens) :
    (∀ token, 0 ≤ token → token < totalTokens →
      (c.hotSpans totalTokens ++ c.warmSpans totalTokens).countP
        (PageSpan.holds · totalTokens c.pageTokens token) = 1) ↔
      1 ≤ c.recentStartPage (c.totalPages totalTokens) := by
  have htokens : (0 : Int) < c.pageTokens := by exact_mod_cast c.pageTokens_pos
  obtain ⟨hlo, hhi⟩ := c.recentStartPage_bounds totalTokens
  have hall := c.le_totalPages_mul totalTokens
  unfold PolicyConfig.hotSpans PolicyConfig.warmSpans PageSpan.holds
  generalize c.recentStartPage (c.totalPages totalTokens) = start at hlo hhi
  generalize c.totalPages totalTokens = pages at hhi hall
  constructor
  · intro h
    by_contra hstart
    obtain rfl : start = 0 := by omega
    have hfirst := h 0 (le_refl 0) hpos
    simp only [List.cons_append, List.nil_append, List.countP_cons, List.countP_nil,
      decide_eq_true_eq] at hfirst
    split_ifs at hfirst <;> omega
  · intro hstart token h0 hlt
    have hmul := Int.mul_le_mul_of_nonneg_right hstart (Int.le_of_lt htokens)
    simp only [List.cons_append, List.nil_append, List.countP_cons, List.countP_nil,
      decide_eq_true_eq]
    split_ifs <;> omega

variable (totalTokens)

/-- With page 0 outside the window, the spans of a layer add up to the request. -/
theorem spanBytes_request (layer : LayerShape Layer)
    (hstart : 1 ≤ c.recentStartPage (c.totalPages totalTokens)) :
    c.spanBytes totalTokens .raw .raw [(0, c.totalPages totalTokens)] layer =
      c.spanBytes totalTokens .raw .raw (c.hotSpans totalTokens) layer +
        c.spanBytes totalTokens .raw .raw (c.warmSpans totalTokens) layer := by
  have hend := (c.recentStartPage_bounds totalTokens).2
  unfold PolicyConfig.spanBytes PolicyConfig.hotSpans PolicyConfig.warmSpans
  simp only [List.map_cons, List.map_nil, List.sum_cons, List.sum_nil]
  have hsplit : ∀ component,
      bytesForPageSpan layer 0 (c.totalPages totalTokens) totalTokens c.pageTokens .raw component =
        bytesForPageSpan layer 0 1 totalTokens c.pageTokens .raw component +
        (bytesForPageSpan layer 1 (c.recentStartPage (c.totalPages totalTokens)) totalTokens
          c.pageTokens .raw component +
        bytesForPageSpan layer (c.recentStartPage (c.totalPages totalTokens))
          (c.totalPages totalTokens) totalTokens c.pageTokens .raw component) := fun component => by
    rw [← bytesForPageSpan_add layer .raw component c.pageTokens_pos hstart hend,
      ← bytesForPageSpan_add layer .raw component c.pageTokens_pos (by decide) (hstart.trans hend)]
  rw [hsplit .k, hsplit .v]
  ring

theorem spanBytes_le {keys keys' values values' : Precision} {layer : LayerShape Layer}
    (hkeys : keys.bytesPerScalar layer ≤ keys'.bytesPerScalar layer)
    (hvalues : values.bytesPerScalar layer ≤ values'.bytesPerScalar layer) (spans : List PageSpan) :
    c.spanBytes totalTokens keys values spans layer ≤
      c.spanBytes totalTokens keys' values' spans layer :=
  List.sum_le_sum fun _ _ => Int.add_le_add
    (bytesForPageSpan_le hkeys _ _ _ c.pageTokens_pos)
    (bytesForPageSpan_le hvalues _ _ _ c.pageTokens_pos)

theorem spanBytes_nonneg {keys values : Precision} {layer : LayerShape Layer}
    (hkeys : 0 ≤ keys.bytesPerScalar layer) (hvalues : 0 ≤ values.bytesPerScalar layer)
    (spans : List PageSpan) : 0 ≤ c.spanBytes totalTokens keys values spans layer :=
  List.sum_nonneg fun _ hbytes => by
    obtain ⟨_, -, rfl⟩ := List.mem_map.mp hbytes
    exact Int.add_nonneg (bytesForPageSpan_nonneg hkeys _ _ _ c.pageTokens_pos)
      (bytesForPageSpan_nonneg hvalues _ _ _ c.pageTokens_pos)

/-- A sum over the layers, early ones first. -/
theorem PolicyConfig.sum_layers (c : PolicyConfig Layer) (f : LayerShape Layer → Int) :
    (c.layers.map f).sum = (c.earlyLayers.map f).sum + (c.lateLayers.map f).sum := by
  rw [earlyLayers, lateLayers, ← List.sum_append, ← List.map_append, List.take_append_drop]

/-- The warm bytes are at most those of the same spans in any precisions that are no smaller. -/
theorem warmBytes_le (keys values : Precision)
    (hkeys : ∀ layer ∈ c.layers, 1 ≤ keys.bytesPerScalar layer)
    (hvalues : ∀ layer ∈ c.layers, 1 ≤ values.bytesPerScalar layer) :
    (c.earlyLayers.map (c.spanBytes totalTokens .int8 .int4 (c.warmSpans totalTokens))).sum +
        (c.lateLayers.map (c.spanBytes totalTokens .int8 .int8 (c.warmSpans totalTokens))).sum ≤
      (c.layers.map (c.spanBytes totalTokens keys values (c.warmSpans totalTokens))).sum := by
  rw [c.sum_layers]
  refine Int.add_le_add (List.sum_le_sum fun layer hlayer => ?_)
    (List.sum_le_sum fun layer hlayer => ?_)
  · have hmem := List.mem_of_mem_take hlayer
    exact spanBytes_le totalTokens (hkeys layer hmem)
      (le_trans (by norm_num [Precision.bytesPerScalar]) (hvalues layer hmem)) _
  · have hmem := List.mem_of_mem_drop hlayer
    exact spanBytes_le totalTokens (hkeys layer hmem) (hvalues layer hmem) _

end Once

end Sock.Tmh
