/-
  The attention kernels (ops/tmh_triton_ops.py, ops/triton_attention_helpers.py): what a program
  computes for a query.

  A program has a block of queries of one sequence and walks over tiles of keys; a tile is a page.
  It skips tiles that no query of the block sees, keeps a running softmax, and either divides at the
  end (2D) or leaves the state of its segment of the keys to `reduce_segments` (3D).

  * `loopBounds_cover`: no key that a query sees lies in a skipped tile.
  * `rowState_holds`: the running softmax stands for the keys that the query sees.
  * `attention2D_eq`, `attention3D_eq`: in either form the result is the softmax over these keys.

  Numbers are exact and integers do not wrap, but in `cdiv_fn`. `load` is what a program reads of a
  page: the raw and the mixed kernel differ in it only.

  Not modelled: padding of the head dimension; the cast of the result to the output type.
-/
import Mathlib.Algebra.Order.BigOperators.Group.Finset
import Mathlib.Data.Nat.Log
import Sock.Lib.OnlineSoftmax
import Sock.Tmh.Geometry

namespace Sock.Tmh

open Lib Lib.OnlineSoftmax

/-- The functions on floats that the kernels use. -/
structure Numerics (K : Type) [Field K] [LinearOrder K] extends Exponential K where
  sqrt : K → K

/-- Key and value of a token, for one head. -/
abbrev KeyValue (K : Type) (n : Nat) := (Fin n → K) × (Fin n → K)

/-- The arguments of a launch. Tiles have the size of a block. -/
structure AttentionLaunch (K : Type) where
  blockSize : Nat
  blockSize_pos : 0 < blockSize
  blockM : Nat
  numQueriesPerKv : Nat
  perKv_pos : 0 < numQueriesPerKv
  perKv_le : numQueriesPerKv ≤ blockM
  slidingWindow : Int
  window_nonneg : 0 ≤ slidingWindow
  chunkLookback : Int
  chunkSize : Int
  chunks : chunkLookback > -1 →
    0 < slidingWindow ∧ 0 < chunkSize ∧ (chunkLookback + 1) * chunkSize ≤ slidingWindow
  mmPrefixRange : Option (Nat → List (Int × Int))
  scale : K
  softcap : K
  alibiSlopes : Option (Nat → K)
  useAlibiSqrt : Bool
  qqBias : Option (Int × (Int → Int → K))
  sinks : Option (Nat → K)
  outScale : Option K
  fp8Min : K
  fp8Max : K

namespace AttentionLaunch

variable {K : Type} (A : AttentionLaunch K)

/-- `BLOCK_Q`. -/
def blockQ : Nat := A.blockM / A.numQueriesPerKv

/-- `_get_tmh_query_block_shape`. -/
def queryBlockShape (isCuda : Bool) (numQueriesPerKv headSize numQueryTokens numSeqs : Nat) :
    Nat × Nat :=
  let blockM := if numQueriesPerKv ≤ 16 then 16 else 2 ^ Nat.clog 2 numQueriesPerKv
  let blockM :=
    if isCuda = true ∧ numQueriesPerKv ≤ 16 ∧ headSize ≤ 128 ∧
      (numQueryTokens > numSeqs ∨ numSeqs ≥ 4) then 32 else blockM
  (blockM, blockM / numQueriesPerKv)

/-- `_tmh_resolve_chunking`: the sliding window, the chunks looked back and their size. -/
def resolveChunking (windowLeft chunkLookback : Int) : Except String (Int × Int × Int) :=
  let slidingWindow := if windowLeft ≥ 0 then 1 + windowLeft else 0
  if slidingWindow > 0 ∧ chunkLookback > -1 then
    let chunkSize := slidingWindow / (chunkLookback + 1)
    if chunkSize > 0 then .ok (slidingWindow, chunkLookback, chunkSize)
    else .error "sliding_window must be > chunk_lookback+1"
  else if slidingWindow ≤ 0 then .ok (slidingWindow, -1, -1)
  else .ok (slidingWindow, chunkLookback, -1)

/-- A query: its sequence, its position among the sequence's queries and its head. -/
structure Query where
  seqIdx : Nat
  queryLen : Int
  seqLen : Int
  queryPos : Int
  head : Nat

/-- `context_len`. -/
def Query.contextLen (q : Query) : Int := q.seqLen - q.queryLen

/-- `query_abs_pos`. -/
def Query.absPos (q : Query) : Int := q.contextLen + q.queryPos

/-- `compute_kv_seq_mask`, for a causal kernel. -/
def sees (q : Query) (k : Int) : Bool :=
  (decide (k ≤ q.absPos) &&
      (if A.chunkLookback > -1 then
        decide (q.absPos.tdiv A.chunkSize - k.tdiv A.chunkSize ≤ A.chunkLookback)
      else if A.slidingWindow > 0 then decide (q.absPos - k < A.slidingWindow)
      else true)) ||
    match A.mmPrefixRange with
    | none => false
    | some ranges => (ranges q.seqIdx).any fun (first, last) =>
        decide (first < last ∧ first ≤ q.absPos ∧ q.absPos ≤ last ∧ first ≤ k ∧ k ≤ last)

/-- The last row of a program, counted in queries. -/
def lastRow : Int := (A.blockM - 1) / A.numQueriesPerKv

/-- `max_seq_prefix_len`: the longest prefix of a query of the block. -/
def prefixLen (q : Query) (qBlockLocalIdx : Int) : Int :=
  if A.mmPrefixRange.isSome then q.seqLen
  else min (q.contextLen + qBlockLocalIdx * A.blockQ + A.lastRow + 1) q.seqLen

/-- `first_allowed_key`. -/
def firstAllowedKey (q : Query) (qBlockLocalIdx : Int) : Int :=
  let qAbs := q.contextLen + qBlockLocalIdx * A.blockQ
  if A.chunkLookback > -1 then (qAbs.tdiv A.chunkSize - A.chunkLookback) * A.chunkSize
  else qAbs - A.slidingWindow + 1

/-- `tile_start` and `tile_end`. -/
def tileRange (q : Query) (qBlockLocalIdx : Int) : Int × Int :=
  let numTiles := cdivFn (A.prefixLen q qBlockLocalIdx) A.blockSize
  if A.slidingWindow > 0 ∧ A.mmPrefixRange.isSome = false then
    let qposHi := min (qBlockLocalIdx * A.blockQ + A.lastRow) (q.queryLen - 1)
    (max 0 ((A.firstAllowedKey q qBlockLocalIdx).tdiv A.blockSize),
      min ((q.contextLen + qposHi).tdiv A.blockSize + 1) numTiles)
  else (0, numTiles)

/-- `compute_tile_loop_bounds`. A segment is its index and the number of tiles of a segment. -/
def loopBounds (q : Query) (qBlockLocalIdx : Int) (segment : Option (Nat × Int)) : Int × Int :=
  let (tileStart, tileEnd) := A.tileRange q qBlockLocalIdx
  match segment with
  | none => (tileStart, tileEnd)
  | some (segmIdx, tilesPerSegment) =>
      (max (segmIdx * tilesPerSegment) tileStart, min ((segmIdx + 1) * tilesPerSegment) tileEnd)

/-! ## Launches -/

/-- The chunks looked back and the current one fit into the window. -/
theorem resolveChunking_ok {windowLeft chunkLookback w c size : Int}
    (h : resolveChunking windowLeft chunkLookback = .ok (w, c, size)) :
    0 ≤ w ∧ (c > -1 → 0 < w ∧ 0 < size ∧ (c + 1) * size ≤ w) := by
  unfold resolveChunking at h
  have hwindow : 0 ≤ if windowLeft ≥ 0 then 1 + windowLeft else 0 := by split <;> omega
  generalize (if windowLeft ≥ 0 then 1 + windowLeft else 0) = window at h hwindow
  simp only at h
  split at h
  · split at h
    · next hw hs =>
        cases h
        exact ⟨hwindow, fun _ => ⟨hw.1, hs, Int.mul_ediv_self_le (by omega)⟩⟩
    · cases h
  · split at h
    · cases h
      omega
    · cases h
      omega

theorem perKv_le_blockM (isCuda : Bool) (perKv headSize tokens seqs : Nat) :
    perKv ≤ (queryBlockShape isCuda perKv headSize tokens seqs).1 := by
  unfold queryBlockShape
  dsimp only
  split
  · omega
  · split
    · assumption
    · exact Nat.le_pow_clog (by norm_num) perKv

/-- The launch with the blocks and chunks that `tmh_physical_attention` computes. -/
def resolve (A : AttentionLaunch K) (isCuda : Bool) (headSize numQueryTokens numSeqs : Nat)
    (windowLeft chunkLookback : Int) : Except String (AttentionLaunch K) :=
  match h : resolveChunking windowLeft chunkLookback with
  | .error e => .error e
  | .ok (slidingWindow, chunkLookback, chunkSize) => .ok { A with
      blockM := (queryBlockShape isCuda A.numQueriesPerKv headSize numQueryTokens numSeqs).1
      perKv_le := perKv_le_blockM ..
      slidingWindow
      window_nonneg := (resolveChunking_ok h).1
      chunkLookback
      chunkSize
      chunks := (resolveChunking_ok h).2 }

/-! ## The tiles that are walked over -/

variable {A} {q : Query} {blk : Int}

/-- The query is one of its sequence, and the program has it in its block, in a row. -/
structure Query.InBlock (q : Query) (A : AttentionLaunch K) (blk : Int) : Prop where
  pos_lt : q.queryPos < q.queryLen
  len_le : q.queryLen ≤ q.seqLen
  nonneg : 0 ≤ blk
  lo : blk * A.blockQ ≤ q.queryPos
  hi : q.queryPos ≤ blk * A.blockQ + A.lastRow

/-- Bidirectional ranges end in the sequence, and there is no window beside them. -/
def Query.RangesFit (q : Query) (A : AttentionLaunch K) : Prop :=
  ∀ ranges, A.mmPrefixRange = some ranges →
    A.slidingWindow = 0 ∧ ∀ r ∈ ranges q.seqIdx, r.2 < q.seqLen

theorem Query.InBlock.absPos_lt (hb : q.InBlock A blk) : q.absPos < q.seqLen := by
  have := hb.pos_lt
  unfold Query.absPos Query.contextLen
  omega

theorem Query.InBlock.pos_nonneg (hb : q.InBlock A blk) : 0 ≤ q.queryPos :=
  (Int.mul_nonneg hb.nonneg (Int.natCast_nonneg A.blockQ)).trans hb.lo

theorem Query.InBlock.absPos_nonneg (hb : q.InBlock A blk) : 0 ≤ q.absPos := by
  have := hb.pos_nonneg
  have := hb.len_le
  unfold Query.absPos Query.contextLen
  omega

theorem sees_lt (hb : q.InBlock A blk) (hmm : q.RangesFit A) {k : Int} (hk : A.sees q k = true) :
    k < q.seqLen := by
  rcases (Bool.or_eq_true _ _).mp hk with h | h
  · have hle : k ≤ q.absPos := by simpa using ((Bool.and_eq_true _ _).mp h).1
    exact Int.lt_of_le_of_lt hle hb.absPos_lt
  · cases hranges : A.mmPrefixRange with
    | none => simp [hranges] at h
    | some ranges =>
        simp only [hranges, List.any_eq_true, decide_eq_true_eq] at h
        obtain ⟨r, hr, hin⟩ := h
        have := (hmm ranges hranges).2 r hr
        omega

/-- Without bidirectional ranges: the key is not behind the query, and not too far before it. -/
theorem sees_of_none (hmm : A.mmPrefixRange = none) {k : Int} (hk : A.sees q k = true) :
    k ≤ q.absPos ∧
      (A.chunkLookback > -1 → q.absPos.tdiv A.chunkSize - k.tdiv A.chunkSize ≤ A.chunkLookback) ∧
      (¬ A.chunkLookback > -1 → A.slidingWindow > 0 → q.absPos - k < A.slidingWindow) := by
  simp only [sees, hmm, Bool.or_false, Bool.and_eq_true, decide_eq_true_eq] at hk
  refine ⟨hk.1, fun hc => ?_, fun hc hw => ?_⟩
  · simpa [hc] using hk.2
  · simpa [hc, hw] using hk.2

/-- The first key that the tile loop keeps is not behind a key that the query sees. -/
theorem firstAllowedKey_le (hb : q.InBlock A blk) (hmm : A.mmPrefixRange = none)
    (hw : A.slidingWindow > 0) {k : Int} (hk0 : 0 ≤ k) (hk : A.sees q k = true) :
    A.firstAllowedKey q blk ≤ k := by
  obtain ⟨-, hchunk, hwindow⟩ := sees_of_none hmm hk
  have hlo := hb.lo
  have hlen := hb.len_le
  have hlocal := Int.mul_nonneg hb.nonneg (Int.natCast_nonneg A.blockQ)
  unfold firstAllowedKey
  dsimp only
  split
  · next hc =>
      obtain ⟨-, hsize, -⟩ := A.chunks hc
      have hseen := hchunk hc
      unfold Query.absPos Query.contextLen at *
      rw [Int.tdiv_eq_ediv_of_nonneg (by omega)] at hseen ⊢
      rw [Int.tdiv_eq_ediv_of_nonneg hk0] at hseen
      have hmono : (q.seqLen - q.queryLen + blk * A.blockQ) / A.chunkSize ≤
          (q.seqLen - q.queryLen + q.queryPos) / A.chunkSize := Int.ediv_le_ediv hsize (by omega)
      calc _ ≤ k / A.chunkSize * A.chunkSize := Int.mul_le_mul_of_nonneg_right (by omega) hsize.le
        _ ≤ k := Int.ediv_mul_le k hsize.ne'
  · next hc =>
      have := hwindow hc hw
      unfold Query.absPos at this
      omega

/-- The value of a key that a query sees is not cut off at the window of the block. -/
theorem sees_dist (hb : q.InBlock A blk) (hmm : q.RangesFit A) {k : Int} (hk0 : 0 ≤ k)
    (hk : A.sees q k = true) (hw : A.slidingWindow ≠ 0) :
    q.contextLen + blk * A.blockQ - k < A.slidingWindow := by
  have hnone : A.mmPrefixRange = none := by
    cases h : A.mmPrefixRange with
    | none => rfl
    | some ranges => exact absurd (hmm ranges h).1 hw
  obtain ⟨-, hchunk, hwindow⟩ := sees_of_none hnone hk
  have hlo := hb.lo
  have habs : q.contextLen + blk * A.blockQ ≤ q.absPos := by
    unfold Query.absPos
    omega
  by_cases hc : A.chunkLookback > -1
  · obtain ⟨-, hsize, hfit⟩ := A.chunks hc
    have hseen := hchunk hc
    rw [Int.tdiv_eq_ediv_of_nonneg hb.absPos_nonneg, Int.tdiv_eq_ediv_of_nonneg hk0] at hseen
    -- the query is in its chunk, the key not before the first chunk looked back to
    have hq := Int.lt_ediv_add_one_mul_self q.absPos hsize
    have hk := Int.ediv_mul_le k hsize.ne'
    have hprod : (q.absPos / A.chunkSize - k / A.chunkSize + 1) * A.chunkSize ≤
        (A.chunkLookback + 1) * A.chunkSize := Int.mul_le_mul_of_nonneg_right (by omega) hsize.le
    have hsplit : (q.absPos / A.chunkSize - k / A.chunkSize + 1) * A.chunkSize =
        (q.absPos / A.chunkSize + 1) * A.chunkSize - k / A.chunkSize * A.chunkSize := by ring
    omega
  · have := A.window_nonneg
    have := hwindow hc (by omega)
    omega

/-- The tile is one of the segment's. -/
def InSegment : Option (Nat × Int) → Nat → Prop
  | none, _ => True
  | some (s, tiles), j => s * tiles ≤ j ∧ (j : Int) < (s + 1) * tiles

theorem lt_cdivFn {x y j : Int} (hx : 0 ≤ x) (hy : 0 < y) (h : x + y ≤ 2 ^ 31) :
    j < cdivFn x y ↔ j * y < x := by
  rw [cdivFn_eq hx hy h, lt_neg, Int.ediv_lt_iff_lt_mul hy, Int.neg_mul, neg_lt_neg_iff]

theorem sees_lt_prefixLen (hb : q.InBlock A blk) (hmm : q.RangesFit A) {k : Int}
    (hk : A.sees q k = true) : k < A.prefixLen q blk := by
  have hlt := sees_lt hb hmm hk
  unfold prefixLen
  split
  · exact hlt
  · next hsome =>
      have hcausal := (sees_of_none (by simpa using hsome) hk).1
      have hhi := hb.hi
      unfold Query.absPos at hcausal
      omega

/-- **No key is skipped.** The tile of a key that a query sees is one of the loop if and only if it
    is one of the segment. -/
theorem loopBounds_cover (hb : q.InBlock A blk) (hmm : q.RangesFit A)
    (hfits : q.seqLen + A.blockSize ≤ 2 ^ 31) (segment : Option (Nat × Int)) {k : Nat}
    (hk : A.sees q k = true) :
    ((A.loopBounds q blk segment).1 ≤ (k / A.blockSize : Nat) ∧
      ((k / A.blockSize : Nat) : Int) < (A.loopBounds q blk segment).2) ↔
        InSegment segment (k / A.blockSize) := by
  have hsize : (0 : Int) < A.blockSize := by exact_mod_cast A.blockSize_pos
  have hprefix := sees_lt_prefixLen hb hmm hk
  have hnum : ((k / A.blockSize : Nat) : Int) < cdivFn (A.prefixLen q blk) A.blockSize := by
    have hle : A.prefixLen q blk ≤ q.seqLen := by
      unfold prefixLen
      split <;> omega
    rw [lt_cdivFn (by omega) hsize (by omega)]
    have := Nat.div_mul_le_self k A.blockSize
    exact_mod_cast (show ((k / A.blockSize * A.blockSize : Nat) : Int) < _ by omega)
  have hrange : (A.tileRange q blk).1 ≤ (k / A.blockSize : Nat) ∧
      ((k / A.blockSize : Nat) : Int) < (A.tileRange q blk).2 := by
    unfold tileRange
    simp only
    split
    · next hw =>
        have hnone : A.mmPrefixRange = none := by simpa using hw.2
        have hfirst := firstAllowedKey_le hb hnone hw.1 (Int.natCast_nonneg k) hk
        have hcausal := (sees_of_none hnone hk).1
        have hlast : (k : Int) ≤ q.contextLen +
            min (blk * A.blockQ + A.lastRow) (q.queryLen - 1) := by
          have := hb.hi
          have := hb.pos_lt
          unfold Query.absPos at hcausal
          omega
        rw [Int.natCast_ediv]
        refine ⟨max_le (by positivity) ?_, lt_min ?_ (by rw [← Int.natCast_ediv]; exact hnum)⟩
        · rcases le_total (A.firstAllowedKey q blk) 0 with h0 | h0
          · exact (tdiv_nonpos h0 (Int.le_of_lt hsize)).trans (by positivity)
          · rw [Int.tdiv_eq_ediv_of_nonneg h0]
            exact Int.ediv_le_ediv hsize hfirst
        · rw [Int.tdiv_eq_ediv_of_nonneg (by omega)]
          exact Int.lt_add_one_iff.mpr (Int.ediv_le_ediv hsize hlast)
    · exact ⟨Int.natCast_nonneg _, hnum⟩
  cases segment with
  | none => exact iff_of_true hrange trivial
  | some segment =>
      simp only [loopBounds, InSegment, max_le_iff, lt_min_iff]
      tauto

theorem loopBounds_nonneg (q : Query) (blk : Int) (segment : Option (Nat × Int)) :
    0 ≤ (A.loopBounds q blk segment).1 := by
  have hrange : 0 ≤ (A.tileRange q blk).1 := by
    unfold tileRange
    dsimp only
    split
    · exact le_max_left _ _
    · exact le_rfl
  cases segment with
  | none => exact hrange
  | some segment => exact hrange.trans (le_max_right _ _)

/-! ## The tile loop -/

variable [Field K] [LinearOrder K] (N : Numerics K) (A)

/-- `S`, before the mask: `apply_softcap`, `apply_alibi_to_score`, `load_qq_bias_tile`. -/
def score (q : Query) (k : Int) (dot : K) : K :=
  let s := dot * A.scale
  let s := if A.softcap > 0 then
      let p1 := N.exp (s / A.softcap)
      let p2 := N.exp (-(s / A.softcap))
      A.softcap * (p1 - p2) / (p1 + p2)
    else s
  let s := match A.alibiSlopes with
    | none => s
    | some slope =>
        let offset : K :=
          if A.useAlibiSqrt then if k - q.absPos ≤ 0 then -N.sqrt ((q.absPos - k : Int)) else 0
          else ((k - q.contextLen : Int))
        s + slope q.head * offset
  match A.qqBias with
  | none => s
  | some (stride, bias) =>
      let rel := k - q.contextLen
      s + if 0 ≤ rel ∧ rel < stride then bias q.queryPos rel else 0

variable {n : Nat}

/-- `tl.dot`. -/
def dot (x y : Fin n → K) : K := ∑ d, x d * y d

/-- The key at an offset in a tile. -/
def tileKey (q : Query) (qBlockLocalIdx : Int) (query : Fin n → K)
    (load : Nat → Nat → KeyValue K n) (j t : Nat) : Key K (Fin n) :=
  let k : Int := j * A.blockSize + t
  let kv := if k < A.prefixLen q qBlockLocalIdx then load j t else (0, 0)
  { score := if A.sees q k then some (A.score N q k (dot query kv.1)) else none
    value :=
      if A.slidingWindow ≠ 0 ∧
        ¬ q.contextLen + qBlockLocalIdx * A.blockQ - k < A.slidingWindow then 0 else kv.2 }

/-- `init_softmax_M` and the initial `L` and `acc`. -/
def init (q : Query) (segment : Option (Nat × Int)) : State K (Fin n) :=
  { ref := if segment.all (·.1 = 0) then A.sinks.map (· q.head) else none
    sum := 1
    acc := 0 }

/-- The tile loop of a program for one of its rows. -/
def rowState (q : Query) (qBlockLocalIdx : Int) (segment : Option (Nat × Int)) (query : Fin n → K)
    (load : Nat → Nat → KeyValue K n) : State K (Fin n) :=
  let (lo, hi) := A.loopBounds q qBlockLocalIdx segment
  run N.toExponential (A.init q segment)
    ((List.range' lo.toNat (hi - lo).toNat).map fun j =>
      (List.range A.blockSize).map fun t => A.tileKey N q qBlockLocalIdx query load j t)

/-- The key at a position, as the query sees it. -/
def keyAt (q : Query) (query : Fin n → K) (load : Nat → Nat → KeyValue K n) (k : Nat) :
    Key K (Fin n) :=
  let kv := load (k / A.blockSize) (k % A.blockSize)
  { score := if A.sees q k then some (A.score N q k (dot query kv.1)) else none
    value := kv.2 }

instance (segment : Option (Nat × Int)) (j : Nat) : Decidable (InSegment segment j) :=
  match segment with
  | none => .isTrue trivial
  | some (s, tiles) => inferInstanceAs (Decidable (s * tiles ≤ j ∧ (j : Int) < (s + 1) * tiles))

/-- The positions of the sequence in the tiles of a segment. -/
def positions (q : Query) (segment : Option (Nat × Int)) : Finset Nat :=
  (Finset.range q.seqLen.toNat).filter fun k => InSegment segment (k / A.blockSize)

variable {N A} {query : Fin n → K} {load : Nat → Nat → KeyValue K n}

/-- In a tile stands the key of the position, if the query sees it, and else one without weight. -/
theorem tileKey_eq (hb : q.InBlock A blk) (hmm : q.RangesFit A) (j t : Nat)
    (ht : t < A.blockSize) :
    weight N.toExponential (A.tileKey N q blk query load j t).score =
        weight N.toExponential (A.keyAt N q query load (j * A.blockSize + t)).score ∧
      ∀ d, weight N.toExponential (A.tileKey N q blk query load j t).score *
          (A.tileKey N q blk query load j t).value d =
        weight N.toExponential (A.keyAt N q query load (j * A.blockSize + t)).score *
          (A.keyAt N q query load (j * A.blockSize + t)).value d := by
  have hdiv : (j * A.blockSize + t) / A.blockSize = j := by
    rw [Nat.mul_comm, Nat.mul_add_div A.blockSize_pos, Nat.div_eq_of_lt ht, Nat.add_zero]
  have hmod : (j * A.blockSize + t) % A.blockSize = t := by
    rw [Nat.mul_comm, Nat.mul_add_mod, Nat.mod_eq_of_lt ht]
  unfold tileKey keyAt
  rw [hdiv, hmod]
  push_cast
  by_cases hk : A.sees q (j * A.blockSize + t) = true
  · have hprefix := sees_lt_prefixLen hb hmm hk
    have hwindow : ¬ (A.slidingWindow ≠ 0 ∧ ¬ q.contextLen + blk * A.blockQ -
        (j * A.blockSize + t) < A.slidingWindow) := fun h =>
      h.2 (sees_dist hb hmm (by positivity) hk h.1)
    simp only [hk, hprefix, if_true, if_neg hwindow, and_self, implies_true]
  · simp only [hk, Bool.false_eq_true, if_false, weight, zero_mul, implies_true, and_self]

omit [LinearOrder K] in
/-- Of what vanishes where the query does not see, the loop sums all of its segment. -/
theorem sum_loop (hb : q.InBlock A blk) (hmm : q.RangesFit A)
    (hfits : q.seqLen + A.blockSize ≤ 2 ^ 31) {segment : Option (Nat × Int)} {lo hi : Int}
    (hbounds : A.loopBounds q blk segment = (lo, hi)) {f : Nat → K}
    (hf : ∀ k : Nat, A.sees q k ≠ true → f k = 0) :
    ∑ k ∈ Finset.Ico (lo.toNat * A.blockSize) ((lo.toNat + (hi - lo).toNat) * A.blockSize), f k =
      ∑ k ∈ A.positions q segment, f k := by
  have hlo := A.loopBounds_nonneg q blk segment
  have hcover := @loopBounds_cover _ _ _ _ hb hmm hfits segment
  rw [hbounds] at hlo hcover
  have hmem : ∀ k : Nat, k ∈ Finset.Ico (lo.toNat * A.blockSize)
      ((lo.toNat + (hi - lo).toNat) * A.blockSize) ↔
        lo ≤ (k / A.blockSize : Nat) ∧ ((k / A.blockSize : Nat) : Int) < hi := by
    intro k
    rw [Finset.mem_Ico, ← Nat.le_div_iff_mul_le A.blockSize_pos,
      ← Nat.div_lt_iff_lt_mul A.blockSize_pos]
    dsimp only at hlo
    omega
  refine Finset.sum_congr_of_eq_on_inter (fun k hk hnot => hf k fun hsee => hnot ?_)
    (fun k hk hnot => hf k fun hsee => hnot ?_) (fun _ _ _ => rfl)
  · have hlt := sees_lt hb hmm hsee
    exact Finset.mem_filter.mpr ⟨Finset.mem_range.mpr (by omega), (hcover hsee).mp ((hmem k).mp hk)⟩
  · exact (hmem k).mpr ((hcover hsee).mpr (Finset.mem_filter.mp hk).2)

/-- The weight of a position. -/
def weightAt (N : Numerics K) (A : AttentionLaunch K) (q : Query) (query : Fin n → K)
    (load : Nat → Nat → KeyValue K n) (k : Nat) : K :=
  weight N.toExponential (A.keyAt N q query load k).score

theorem weightAt_of_not_sees {k : Nat} (hk : A.sees q k ≠ true) :
    A.weightAt N q query load k = 0 := by
  simp only [weightAt, keyAt, if_neg hk, weight]

variable (query load) in
/-- The loop of a program stands for the keys of its segment that the query sees, and in the first
    segment for the sink. -/
theorem rowState_holds (hb : q.InBlock A blk) (hmm : q.RangesFit A)
    (hfits : q.seqLen + A.blockSize ≤ 2 ^ 31) (segment : Option (Nat × Int)) :
    (A.rowState N q blk segment query load).Holds N.toExponential
      (weight N.toExponential (A.init (n := n) q segment).ref +
        ∑ k ∈ A.positions q segment, A.weightAt N q query load k)
      fun d => ∑ k ∈ A.positions q segment,
        A.weightAt N q query load k * (A.keyAt N q query load k).value d := by
  have hinit : (A.init (n := n) q segment).Holds N.toExponential
      (weight N.toExponential (A.init (n := n) q segment).ref) fun _ => 0 := by
    unfold State.Holds
    split
    · next h => exact ⟨by rw [h]; rfl, fun _ => rfl⟩
    · next m h => exact ⟨by rw [h]; exact (one_mul _).symm, fun _ => (zero_mul _).symm⟩
  obtain ⟨⟨lo, hi⟩, hbounds⟩ : ∃ x, A.loopBounds q blk segment = x := ⟨_, rfl⟩
  have hrun := run_tiles_holds hinit (A.weightAt N q query load)
    (fun d k => A.weightAt N q query load k * (A.keyAt N q query load k).value d)
    (fun j t ht => (tileKey_eq hb hmm j t ht).1) (fun d j t ht => (tileKey_eq hb hmm j t ht).2 d)
    lo.toNat (hi - lo).toNat
  simp only [zero_add] at hrun
  rw [sum_loop hb hmm hfits hbounds fun k hk => weightAt_of_not_sees hk] at hrun
  have hvalue : ∀ d, _ := fun d => sum_loop hb hmm hfits hbounds
    (f := fun k => A.weightAt N q query load k * (A.keyAt N q query load k).value d)
    fun k hk => by rw [weightAt_of_not_sees hk, zero_mul]
  simp only [hvalue] at hrun
  unfold rowState
  rw [hbounds]
  exact hrun

/-! ## Results -/

/-- The result for an 8-bit output is scaled. -/
def scaled (A : AttentionLaunch K) (x : K) : K :=
  match A.outScale with
  | none => x
  | some s => x * s

/-- `reduce_segments` clamps it as well. -/
def clamped (A : AttentionLaunch K) (x : K) : K :=
  if A.outScale.isSome then max A.fp8Min (min (A.scaled x) A.fp8Max) else x

variable (N A) in
/-- The 2D kernel: the running values over the running weight. -/
def attention2D (q : Query) (qBlockLocalIdx : Int) (query : Fin n → K)
    (load : Nat → Nat → KeyValue K n) (d : Fin n) : K :=
  let st := A.rowState N q qBlockLocalIdx none query load
  A.scaled (st.acc d / st.sum)

/-- `tiles_per_segment`. -/
def tilesPerSegment (A : AttentionLaunch K) (seqLen : Int) (numSegments : Nat) : Int :=
  cdivFn seqLen (numSegments * A.blockSize)

variable (N A) in
/-- The 3D kernel: what the program of a segment stores, if it does. -/
def segmentState (q : Query) (qBlockLocalIdx : Int) (query : Fin n → K)
    (load : Nat → Nat → KeyValue K n) (numSegments segmIdx : Nat) :
    Option (State K (Fin n)) :=
  let tiles := A.tilesPerSegment q.seqLen numSegments
  if segmIdx * tiles * A.blockSize ≥ q.seqLen then none
  else some (A.rowState N q qBlockLocalIdx (some (segmIdx, tiles)) query load)

variable (N A) in
/-- `reduce_segments`, over buffers that held `old` before the launch, for a sequence of the
    length `seqLen`. -/
def attention3D (q : Query) (qBlockLocalIdx : Int) (query : Fin n → K)
    (load : Nat → Nat → KeyValue K n) (numSegments : Nat) (old : Nat → State K (Fin n))
    (seqLen : Int) (d : Fin n) : K :=
  let actNumSegments := cdivFn seqLen (A.tilesPerSegment seqLen numSegments * A.blockSize)
  let sts := (List.range (min numSegments actNumSegments.toNat)).map fun s =>
    (A.segmentState N q qBlockLocalIdx query load numSegments s).getD (old s)
  let overallMax := ((sts.map State.ref).foldl maxScore none).getD 0
  let (expsum, acc) := merge N.toExponential overallMax sts d
  A.clamped (if expsum = 0 then 0 else acc / expsum)

variable (N A) in
/-- The softmax over the keys that the query sees, and the sink. -/
def softmaxAttention (q : Query) (query : Fin n → K)
    (load : Nat → Nat → KeyValue K n) (d : Fin n) : K :=
  (∑ k ∈ Finset.range q.seqLen.toNat,
      A.weightAt N q query load k * (A.keyAt N q query load k).value d) /
    (weight N.toExponential (A.sinks.map (· q.head)) +
      ∑ k ∈ Finset.range q.seqLen.toNat, A.weightAt N q query load k)

variable [IsStrictOrderedRing K]

omit [IsStrictOrderedRing K] in
theorem weight_nonneg (s : Option K) : 0 ≤ weight N.toExponential s := by
  cases s with
  | none => exact le_rfl
  | some s => exact (N.exp_pos s).le

omit [Field K] [LinearOrder K] [IsStrictOrderedRing K] in
/-- A query sees itself. -/
theorem sees_self (A : AttentionLaunch K) (q : Query) : A.sees q q.absPos = true := by
  unfold sees
  refine (Bool.or_eq_true _ _).mpr (.inl ((Bool.and_eq_true _ _).mpr ⟨by simp, ?_⟩))
  split
  · next hc =>
      rw [decide_eq_true_eq]
      omega
  · split
    · next hw => simpa using hw
    · rfl

variable (query load) in
theorem denominator_pos (hb : q.InBlock A blk) (s : Option K) :
    0 < weight N.toExponential s +
      ∑ k ∈ Finset.range q.seqLen.toNat, A.weightAt N q query load k := by
  have h0 := hb.absPos_nonneg
  have hlt := hb.absPos_lt
  have hcast : ((q.absPos.toNat : Nat) : Int) = q.absPos := Int.toNat_of_nonneg h0
  have hself : 0 < A.weightAt N q query load q.absPos.toNat := by
    simp only [weightAt, keyAt, hcast, sees_self, if_true, weight]
    exact N.exp_pos _
  have hmem := Finset.mem_range.mpr (show q.absPos.toNat < q.seqLen.toNat by omega)
  refine add_pos_of_nonneg_of_pos (weight_nonneg s) (lt_of_lt_of_le hself ?_)
  exact Finset.single_le_sum (fun k _ => weight_nonneg (A.keyAt N q query load k).score) hmem

theorem attention2D_eq (hb : q.InBlock A blk) (hmm : q.RangesFit A)
    (hfits : q.seqLen + A.blockSize ≤ 2 ^ 31) (d : Fin n) :
    A.attention2D N q blk query load d =
      A.scaled (A.softmaxAttention N q query load d) := by
  have hpositions : A.positions q none = Finset.range q.seqLen.toNat :=
    Finset.filter_true_of_mem fun _ _ => trivial
  have hstate := rowState_holds (N := N) query load hb hmm hfits none
  rw [hpositions] at hstate
  exact congrArg A.scaled (hstate.quotient (denominator_pos query load hb _).ne' d)

/-- The segments that are reduced. -/
structure Segments (A : AttentionLaunch K) (q : Query) (numSegments m : Nat) (tiles : Int) :
    Prop where
  tiles_pos : 0 < tiles
  stored : ∀ s < m, s * tiles * A.blockSize < q.seqLen
  covers : ∀ k : Nat, (k : Int) < q.seqLen → k / A.blockSize / tiles.toNat < m

omit [Field K] [LinearOrder K] [IsStrictOrderedRing K] in
theorem segments_of_pos {numSegments : Nat} (hseq : 0 < q.seqLen) (hseg : 0 < numSegments)
    (hfits : 2 * q.seqLen + numSegments * A.blockSize ≤ 2 ^ 31) :
    Segments A q numSegments (min numSegments
      (cdivFn q.seqLen (A.tilesPerSegment q.seqLen numSegments * A.blockSize)).toNat)
      (A.tilesPerSegment q.seqLen numSegments) := by
  have hsize : (0 : Int) < A.blockSize := by exact_mod_cast A.blockSize_pos
  have hspan : (0 : Int) < numSegments * A.blockSize := by positivity
  have htiles := fun j => @lt_cdivFn q.seqLen (numSegments * A.blockSize) j hseq.le hspan (by omega)
  unfold tilesPerSegment
  generalize cdivFn q.seqLen (numSegments * A.blockSize) = tiles at htiles
  have hpos : 0 < tiles := (htiles 0).mpr (by omega)
  have hcover : q.seqLen ≤ tiles * (numSegments * A.blockSize) :=
    Int.not_lt.mp ((htiles tiles).not.mp (lt_irrefl _))
  have hlast : (tiles - 1) * (numSegments * A.blockSize) < q.seqLen :=
    (htiles (tiles - 1)).mp (by omega)
  have hstride : tiles * A.blockSize ≤ q.seqLen + numSegments * A.blockSize := by
    have hone : (A.blockSize : Int) ≤ numSegments * A.blockSize :=
      le_mul_of_one_le_left hsize.le (by exact_mod_cast hseg)
    have hprev := Int.mul_le_mul_of_nonneg_left hone (by omega : 0 ≤ tiles - 1)
    rw [Int.sub_mul, Int.one_mul] at hprev
    omega
  have hact := fun j =>
    @lt_cdivFn q.seqLen (tiles * A.blockSize) j hseq.le (by positivity) (by omega)
  generalize cdivFn q.seqLen (tiles * A.blockSize) = act at hact
  refine ⟨hpos, fun s hs => ?_, fun k hk => ?_⟩
  · rw [Int.mul_assoc]
    exact (hact s).mp (by omega)
  · have hT : ((tiles.toNat : Nat) : Int) = tiles := Int.toNat_of_nonneg hpos.le
    have hle : ((k / A.blockSize / tiles.toNat : Nat) : Int) * (tiles * A.blockSize) ≤ k := by
      have h1 := Nat.div_mul_le_self (k / A.blockSize) tiles.toNat
      have h2 := (Nat.mul_le_mul_right A.blockSize h1).trans (Nat.div_mul_le_self k A.blockSize)
      rw [← hT, ← Int.mul_assoc]
      exact_mod_cast h2
    have hlt := (hact _).mpr (hle.trans_lt hk)
    refine lt_min (Nat.lt_of_not_le fun hge => ?_) (by omega)
    have hmono := Int.mul_le_mul_of_nonneg_right (Int.ofNat_le.mpr hge)
      (Int.mul_nonneg hpos.le hsize.le)
    rw [Int.mul_left_comm] at hcover
    omega

omit [LinearOrder K] [IsStrictOrderedRing K] in
/-- Every position is in one segment. -/
theorem sum_segments {numSegments m : Nat} {tiles : Int} (h : Segments A q numSegments m tiles)
    (f : Nat → K) : ∑ s ∈ Finset.range m, ∑ k ∈ A.positions q (some (s, tiles)), f k =
      ∑ k ∈ Finset.range q.seqLen.toNat, f k := by
  obtain ⟨T, rfl⟩ := Int.eq_ofNat_of_zero_le h.tiles_pos.le
  have hT : 0 < T := by exact_mod_cast h.tiles_pos
  have hpositions : ∀ s, A.positions q (some (s, (T : Int))) =
      (Finset.range q.seqLen.toNat).filter fun k => k / A.blockSize / T = s := by
    intro s
    refine Finset.filter_congr fun k _ => ?_
    rw [Nat.div_eq_iff hT, InSegment]
    norm_cast
    rw [Nat.succ_mul]
    omega
  simp only [hpositions]
  refine Finset.sum_fiberwise_of_maps_to (fun k hk => ?_) f
  have hlt := h.covers k (by have := Finset.mem_range.mp hk; omega)
  rw [Int.toNat_natCast] at hlt
  exact Finset.mem_range.mpr hlt

omit [IsStrictOrderedRing K] in
/-- The sink is counted in the first segment. -/
theorem sum_sinks {m : Nat} (hm : 0 < m) {tiles : Int} :
    ∑ s ∈ Finset.range m, weight N.toExponential (A.init (n := n) q (some (s, tiles))).ref =
      weight N.toExponential (A.sinks.map (· q.head)) := by
  rw [Finset.sum_eq_single_of_mem 0 (Finset.mem_range.mpr hm)]
  · simp [init]
  · intro s _ hs
    simp [init, hs, weight]

theorem attention3D_eq (hb : q.InBlock A blk) (hmm : q.RangesFit A) {numSegments : Nat}
    (hseg : 0 < numSegments) (hfits : 2 * q.seqLen + numSegments * A.blockSize ≤ 2 ^ 31)
    (old : Nat → State K (Fin n)) (d : Fin n) :
    A.attention3D N q blk query load numSegments old q.seqLen d =
      A.clamped (A.softmaxAttention N q query load d) := by
  have hpos : 0 < q.seqLen := hb.absPos_nonneg.trans_lt hb.absPos_lt
  have hsegments := segments_of_pos hpos hseg hfits
  have hfits' : q.seqLen + A.blockSize ≤ 2 ^ 31 := by
    have hone : (A.blockSize : Int) ≤ numSegments * A.blockSize :=
      le_mul_of_one_le_left (Int.natCast_nonneg _) (by exact_mod_cast hseg)
    omega
  have hm := hsegments.covers 0 (by exact_mod_cast hpos)
  rw [Nat.zero_div, Nat.zero_div] at hm
  unfold attention3D
  dsimp only
  generalize min numSegments
    (cdivFn q.seqLen (A.tilesPerSegment q.seqLen numSegments * A.blockSize)).toNat = m at hsegments hm
  have hstored : (List.range m).map (fun s =>
      (A.segmentState N q blk query load numSegments s).getD (old s)) =
      (List.range m).map fun s =>
        A.rowState N q blk (some (s, A.tilesPerSegment q.seqLen numSegments)) query load := by
    refine List.map_congr_left fun s hs => ?_
    have := hsegments.stored s (List.mem_range.mp hs)
    rw [segmentState, if_neg (by omega)]
    rfl
  rw [hstored]
  generalize ((((List.range m).map fun s => A.rowState N q blk
    (some (s, A.tilesPerSegment q.seqLen numSegments)) query load).map State.ref).foldl maxScore
      none).getD 0 = ref
  obtain ⟨hweight, hvalue⟩ := merge_eq (List.range m) _ _ _
    (fun s _ => rowState_holds (N := N) query load hb hmm hfits'
      (some (s, A.tilesPerSegment q.seqLen numSegments))) ref d
  rw [sum_range_map, Finset.sum_add_distrib, sum_segments hsegments, sum_sinks hm] at hweight
  rw [sum_range_map, sum_segments hsegments] at hvalue
  have hdenominator := denominator_pos (N := N) query load hb
    (A.sinks.map (· q.head))
  generalize merge N.toExponential ref _ d = merged at hweight hvalue
  have hne : merged.1 ≠ 0 := by
    intro h0
    rw [h0, zero_mul] at hweight
    exact hdenominator.ne hweight
  rw [if_neg hne, softmaxAttention, ← hweight, ← hvalue, mul_div_mul_right _ _ (N.exp_pos ref).ne']

end AttentionLaunch

end Sock.Tmh
