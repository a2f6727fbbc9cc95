/-
  A launch of the mixed attention kernel: which query a row of a program has, what it reads of a
  page, and what the launch computes.

  * `rowQuery`: the query of a row, found by binary search over the blocks of queries.
  * `PoolContents`: what stands in the pools; `mixedLoad`: what the attention kernel makes of it.
  * `mixedAttention_eq_softmax`: every query of a batch has a row, and every row gets the softmax
    over the keys that its query sees, read where the request's row says. A page without a slot is
    not left out: its keys are zero.
-/
import Mathlib.Analysis.Complex.Exponential
import Mathlib.Analysis.Real.Sqrt
import Sock.Tmh.Attention

namespace Sock.Tmh

open Lib Lib.OnlineSoftmax

/-! ## Queries of a batch -/

namespace AttentionLaunch

variable {K : Type} (A : AttentionLaunch K) (b : Batch)

/-- `q_block_start_idx`. -/
def qBlockStart (i : Nat) : Int := (b.queryStartLoc i).tdiv A.blockQ + i

/-- `resolve_seq_and_query_len`, and the query of row `m` of the program: with the index of the
    block in its sequence, if the masks of the row are set. -/
def rowQuery (numQueryHeads qBlockGlobalIdx kvHeadIdx m : Nat) : Option (Int × Query) :=
  let seqIdx := Search.upperBound (A.qBlockStart b) qBlockGlobalIdx b.numSeqs 0 b.numSeqs - 1
  let qBlockLocalIdx := qBlockGlobalIdx - A.qBlockStart b seqIdx
  let queryLen := b.queryStartLoc (seqIdx + 1) - b.queryStartLoc seqIdx
  let queryPos := qBlockLocalIdx * A.blockQ + (m / A.numQueriesPerKv : Nat)
  let head := kvHeadIdx * A.numQueriesPerKv + m % A.numQueriesPerKv
  if qBlockLocalIdx * A.blockQ ≥ queryLen then none
  else if queryPos < queryLen ∧ head < numQueryHeads then
    some (qBlockLocalIdx, { seqIdx, queryLen, seqLen := b.seqLens seqIdx, queryPos, head })
  else none

/-- `total_num_q_blocks`. -/
def totalNumQBlocks (numTokens : Nat) : Nat := numTokens / A.blockQ + b.numSeqs

/-- The query of a token and a head. -/
def queryOf (i : Nat) (tok : Int) (head : Nat) : Query where
  seqIdx := i
  queryLen := b.queryStartLoc (i + 1) - b.queryStartLoc i
  seqLen := b.seqLens i
  queryPos := tok - b.queryStartLoc i
  head := head

/-- A batch as a launch over `numTokens` tokens gets it. -/
structure Launches (numTokens : Nat) : Prop where
  wellFormed : b.WellFormed
  nonempty : 0 < b.numSeqs
  first : b.queryStartLoc 0 = 0
  last : b.queryStartLoc b.numSeqs ≤ numTokens
  lengths : ∀ i < b.numSeqs, b.queryStartLoc (i + 1) - b.queryStartLoc i ≤ b.seqLens i

variable {A b} {numTokens : Nat}

theorem blockQ_pos (A : AttentionLaunch K) : 0 < A.blockQ := Nat.div_pos A.perKv_le A.perKv_pos

theorem Launches.start_nonneg (hb : Launches b numTokens) {i : Nat} (hi : i ≤ b.numSeqs) :
    0 ≤ b.queryStartLoc i := hb.first.ge.trans (hb.wellFormed 0 i (Nat.zero_le i) hi)

theorem Launches.qBlockStart_eq (hb : Launches b numTokens) {i : Nat} (hi : i ≤ b.numSeqs) :
    A.qBlockStart b i = b.queryStartLoc i / A.blockQ + i := by
  rw [qBlockStart, Int.tdiv_eq_ediv_of_nonneg (hb.start_nonneg hi)]

theorem Launches.qBlockStart_mono (hb : Launches b numTokens) {i j : Nat} (hij : i ≤ j)
    (hj : j ≤ b.numSeqs) : A.qBlockStart b i ≤ A.qBlockStart b j := by
  have hpos : (0 : Int) < A.blockQ := by exact_mod_cast A.blockQ_pos
  rw [hb.qBlockStart_eq (hij.trans hj), hb.qBlockStart_eq hj]
  have := Int.ediv_le_ediv hpos (hb.wellFormed i j hij hj)
  omega

/-- A row whose masks are set has a query of the batch that stands in its block, and the head of the
    program is the query's. -/
theorem Launches.rowQuery_sound (hb : Launches b numTokens) {heads g kvHead m : Nat}
    (hm : m < A.blockM) {blk : Int} {q : Query}
    (h : A.rowQuery b heads g kvHead m = some (blk, q)) :
    ∃ i tok head, b.Owns i tok ∧ kvHead = head / A.numQueriesPerKv ∧ q = queryOf b i tok head ∧
      q.InBlock A blk := by
  -- the sequence is the last one whose blocks do not start behind the program
  obtain ⟨i, hi, hstart, hsearch⟩ : ∃ i < b.numSeqs, A.qBlockStart b i ≤ g ∧
      Search.upperBound (A.qBlockStart b) g b.numSeqs 0 b.numSeqs = i + 1 := by
    have hfirst : A.qBlockStart b 0 ≤ g := by
      rw [hb.qBlockStart_eq (Nat.zero_le _), hb.first, Int.zero_ediv]
      omega
    have hspec := Nat.findGreatest_spec (P := fun j => A.qBlockStart b j ≤ g)
      (Nat.zero_le (b.numSeqs - 1)) hfirst
    have hle := Nat.findGreatest_le (P := fun j => A.qBlockStart b j ≤ g) (b.numSeqs - 1)
    have hseqs := hb.nonempty
    refine ⟨_, by omega, hspec, Search.upperBound_eq (by omega)
      (fun j hj => (hb.qBlockStart_mono hj (by omega)).trans hspec) fun j hij hj => ?_⟩
    exact Int.not_le.mp (Nat.findGreatest_is_greatest hij (by omega))
  unfold rowQuery at h
  simp only [hsearch, Nat.add_sub_cancel] at h
  obtain ⟨-, ⟨hpos, -⟩, hq⟩ := by simpa only [Option.ite_none_left_eq_some,
    Option.ite_none_right_eq_some, Option.some.injEq, Prod.mk.injEq] using h
  obtain ⟨rfl, rfl⟩ := hq
  have hrow : ((m / A.numQueriesPerKv : Nat) : Int) ≤ A.lastRow := by
    have hle := Nat.div_le_div_right (c := A.numQueriesPerKv) (Nat.le_sub_one_of_lt hm)
    have hcast : ((A.blockM : Int) - 1) = ((A.blockM - 1 : Nat) : Int) := by omega
    rw [lastRow, hcast]
    exact_mod_cast hle
  have hrow0 := Int.natCast_nonneg (m / A.numQueriesPerKv)
  have hlocal := Int.mul_nonneg (Int.sub_nonneg_of_le hstart) (Int.natCast_nonneg A.blockQ)
  refine ⟨i, b.queryStartLoc i +
    ((g - A.qBlockStart b i) * A.blockQ + (m / A.numQueriesPerKv : Nat)),
    kvHead * A.numQueriesPerKv + m % A.numQueriesPerKv, ⟨hi, by omega, by omega⟩, ?_, ?_,
    ⟨hpos, hb.lengths i hi, by omega, Int.le_add_of_nonneg_right hrow0, Int.add_le_add_left hrow _⟩⟩
  · rw [Nat.mul_comm, Nat.mul_add_div A.perKv_pos, Nat.div_eq_of_lt (Nat.mod_lt _ A.perKv_pos),
      Nat.add_zero]
  · rw [queryOf, add_sub_cancel_left]

/-- Every query has a row. -/
theorem Launches.rowQuery_covers (hb : Launches b numTokens) {numKvHeads i : Nat} {tok : Int}
    (htok : b.Owns i tok)
    {head : Nat} (hhead : head < A.numQueriesPerKv * numKvHeads) :
    ∃ g < A.totalNumQBlocks b numTokens, ∃ kvHead < numKvHeads, ∃ m < A.blockM, ∃ blk,
      A.rowQuery b (A.numQueriesPerKv * numKvHeads) g kvHead m =
        some (blk, queryOf b i tok head) := by
  obtain ⟨hi, hlo, hhi⟩ := htok
  have hQ : (0 : Int) < A.blockQ := by exact_mod_cast A.blockQ_pos
  have hstart := hb.start_nonneg hi.le
  obtain ⟨p, hp⟩ := Int.eq_ofNat_of_zero_le (Int.sub_nonneg_of_le hlo)
  -- its block starts no later than the query and ends behind it
  have hsplit : b.queryStartLoc i / A.blockQ + p / A.blockQ ≤ tok / A.blockQ := by
    rw [Int.le_ediv_iff_mul_le hQ, Int.add_mul]
    have h1 := Int.ediv_mul_le (b.queryStartLoc i) hQ.ne'
    have h2 := Int.ediv_mul_le (p : Int) hQ.ne'
    omega
  obtain ⟨g, hg⟩ : ∃ g : Nat, A.qBlockStart b i + (p : Int) / A.blockQ = g := by
    refine Int.eq_ofNat_of_zero_le ?_
    rw [hb.qBlockStart_eq hi.le]
    positivity
  have hblock := Int.ediv_nonneg (Int.natCast_nonneg p) hQ.le
  have hsearch : Search.upperBound (A.qBlockStart b) g b.numSeqs 0 b.numSeqs = i + 1 := by
    refine Search.upperBound_eq hi (fun j hj => ?_) fun j hij hj => ?_
    · exact (hb.qBlockStart_mono hj hi.le).trans (by omega)
    · refine lt_of_lt_of_le ?_ (hb.qBlockStart_mono (show i + 1 ≤ j from hij) hj.le)
      have hnext := Int.ediv_le_ediv hQ hhi.le
      rw [hb.qBlockStart_eq hi.le] at hg
      rw [hb.qBlockStart_eq (show i + 1 ≤ b.numSeqs from hi)]
      push_cast
      omega
  have hrow : (p % A.blockQ * A.numQueriesPerKv + head % A.numQueriesPerKv) / A.numQueriesPerKv =
      p % A.blockQ := by
    rw [Nat.mul_comm, Nat.mul_add_div A.perKv_pos, Nat.div_eq_of_lt (Nat.mod_lt _ A.perKv_pos),
      Nat.add_zero]
  have hpos : (p : Int) / A.blockQ * A.blockQ + (p % A.blockQ : Nat) = p := by
    exact_mod_cast Nat.div_add_mod' p A.blockQ
  refine ⟨g, ?_, head / A.numQueriesPerKv, Nat.div_lt_of_lt_mul hhead,
    p % A.blockQ * A.numQueriesPerKv + head % A.numQueriesPerKv, ?_, p / A.blockQ, ?_⟩
  · have hlast := Int.ediv_le_ediv hQ
      (hhi.le.trans ((hb.wellFormed (i + 1) _ hi le_rfl).trans hb.last))
    rw [hb.qBlockStart_eq hi.le] at hg
    unfold totalNumQBlocks
    omega
  · have hle := Nat.div_mul_le_self A.blockM A.numQueriesPerKv
    have hmul := Nat.mul_le_mul_right A.numQueriesPerKv (Nat.mod_lt p A.blockQ_pos)
    have := Nat.mod_lt head A.perKv_pos
    rw [Nat.succ_mul] at hmul
    exact lt_of_lt_of_le (by omega) (hmul.trans hle)
  · unfold rowQuery queryOf
    have hlocal : (g : Int) - A.qBlockStart b i = p / A.blockQ := by omega
    simp only [hsearch, Nat.add_sub_cancel, hlocal, hrow, hpos, Nat.mul_add_mod_self_right,
      Nat.mod_mod, Nat.div_add_mod']
    rw [if_neg (by omega), if_pos ⟨by omega, hhead⟩, hp]

end AttentionLaunch

/-! ## Contents of the pools -/

/-- A token in a warm page, for one head: bytes, and bytes or nibbles. -/
structure WarmToken (K : Type) (n : Nat) where
  key : Fin n → Int
  keyScale : K
  value : Fin n → Int
  valueScale : K
  valueZp : Int

/-- The tokens in the pools, by slot, head and offset. -/
structure PoolContents (K : Type) (n : Nat) where
  raw : Int → Nat → Nat → KeyValue K n
  warm : Int → Nat → Nat → WarmToken K n

variable {K : Type} [Field K] {n : Nat}

/-- What the attention kernel makes of a byte. -/
def int8Dequantize (scale : K) (q : Int) : K := q * scale

/-- What it makes of a nibble. -/
def int4Dequantize (scale : K) (zp q : Int) : K := (q - zp) * scale

def WarmToken.read (packed : Bool) (w : WarmToken K n) : KeyValue K n :=
  (fun d => int8Dequantize w.keyScale (w.key d),
    fun d =>
      if packed then int4Dequantize w.valueScale w.valueZp (w.value d)
      else int8Dequantize w.valueScale (w.value d))

/-- Key and value of a token of a page. -/
def PoolContents.read (C : PoolContents K n) (packed : Bool) (head offset : Nat) (t : Target) :
    KeyValue K n :=
  if t.raw then C.raw t.slot head offset else (C.warm t.slot head offset).read packed

/-- What the tile loop loads. Where the masks are not set, it gets zeros. -/
def mixedLoad (cache : PhysicalKVCache) (b : Batch) (C : PoolContents K n) (packed : Bool)
    (seqIdx head : Nat) (maxSeqPrefixLen : Int) (page offset : Nat) : KeyValue K n :=
  ((mixedAttentionRead cache b seqIdx page maxSeqPrefixLen).map
    (C.read packed head offset)).getD (0, 0)

/-- What the row of a request says is at an offset of a page. -/
def rowLoad (cache : PhysicalKVCache) (row : Nat) (seqLen : Int) (C : PoolContents K n)
    (packed : Bool) (head page offset : Nat) : KeyValue K n :=
  ((rowTarget cache row page seqLen).map (C.read packed head offset)).getD (0, 0)

/-! ## A launch -/

namespace AttentionLaunch

variable [LinearOrder K] {N : Numerics K} {A : AttentionLaunch K} {q : Query} {blk : Int}

/-- A row reads below the prefix only. -/
theorem attention_congr {load load' : Nat → Nat → KeyValue K n}
    (h : ∀ j t : Nat, (j * A.blockSize + t : Int) < A.prefixLen q blk → load j t = load' j t)
    (query : Fin n → K) (d : Fin n) :
    A.attention2D N q blk query load d = A.attention2D N q blk query load' d ∧
      ∀ numSegments old seqLen, A.attention3D N q blk query load numSegments old seqLen d =
        A.attention3D N q blk query load' numSegments old seqLen d := by
  have hkey : ∀ j t, A.tileKey N q blk query load j t =
      A.tileKey N q blk query load' j t := by
    intro j t
    by_cases hlt : (j * A.blockSize + t : Int) < A.prefixLen q blk
    · simp only [tileKey, if_pos hlt, h j t hlt]
    · simp only [tileKey, if_neg hlt]
  have hstate : ∀ segment, A.rowState N q blk segment query load =
      A.rowState N q blk segment query load' := fun segment => by
    simp only [rowState, hkey]
  have hsegment : A.segmentState N q blk query load =
      A.segmentState N q blk query load' := by
    funext numSegments s
    simp only [segmentState, hstate]
  exact ⟨by rw [attention2D, hstate]; rfl, fun _ _ _ => by rw [attention3D, hsegment]; rfl⟩

end AttentionLaunch

open AttentionLaunch in
/-- **What a launch computes.** In a launch of the mixed kernel every query of the batch has a row.
    Each row whose masks are set has a query of the batch, and its result is the softmax over the
    keys that the query sees, with the key head of its group, read where the row of its request
    says: in the 2D form, and in the 3D form after `reduce_segments`, which looks for the sequence
    of the token itself, whatever the buffers held. -/
theorem mixedAttention_eq_softmax [LinearOrder K] [IsStrictOrderedRing K] (N : Numerics K)
    (A : AttentionLaunch K) (cache : PhysicalKVCache) (hsize : A.blockSize = cache.spec.blockSize)
    {b : Batch} {numTokens : Nat} (hb : Launches b numTokens)
    (hmm : ∀ ranges, A.mmPrefixRange = some ranges → A.slidingWindow = 0 ∧
      ∀ i < b.numSeqs, ∀ r ∈ ranges i, r.2 < b.seqLens i)
    (hfits : ∀ i < b.numSeqs, b.seqLens i + A.blockSize ≤ 2 ^ 31) (numKvHeads : Nat)
    (Q : Int → Nat → Fin n → K) (C : PoolContents K n) (packed : Bool) :
    (∀ i tok head, b.Owns i tok → head < A.numQueriesPerKv * numKvHeads →
      ∃ g < A.totalNumQBlocks b numTokens, ∃ kvHead < numKvHeads, ∃ m < A.blockM, ∃ local',
        A.rowQuery b (A.numQueriesPerKv * numKvHeads) g kvHead m =
          some (local', queryOf b i tok head)) ∧
    ∀ g kvHead m local' q, m < A.blockM →
      A.rowQuery b (A.numQueriesPerKv * numKvHeads) g kvHead m = some (local', q) →
      ∃ i tok head, b.Owns i tok ∧ q = queryOf b i tok head ∧ ∀ d,
        A.attention2D N q local' (Q (b.queryStartLoc q.seqIdx + q.queryPos) q.head)
            (mixedLoad cache b C packed q.seqIdx kvHead (A.prefixLen q local')) d =
          A.scaled (A.softmaxAttention N q (Q tok head) (rowLoad cache (b.seqToRequestRow i)
            (b.seqLens i) C packed (head / A.numQueriesPerKv)) d) ∧
        ∀ numSegments : Nat, 0 < numSegments →
          2 * b.seqLens i + numSegments * A.blockSize ≤ 2 ^ 31 → ∀ old,
          A.attention3D N q local' (Q (b.queryStartLoc q.seqIdx + q.queryPos) q.head)
              (mixedLoad cache b C packed q.seqIdx kvHead (A.prefixLen q local')) numSegments old
              (b.seqLens (findSeqIdx b (b.queryStartLoc q.seqIdx + q.queryPos))) d =
            A.clamped (A.softmaxAttention N q (Q tok head) (rowLoad cache (b.seqToRequestRow i)
              (b.seqLens i) C packed (head / A.numQueriesPerKv)) d) := by
  refine ⟨fun i tok head htok hhead => hb.rowQuery_covers htok hhead, ?_⟩
  intro g kvHead m local' q hm hrow
  obtain ⟨i, tok, head, htok, hkv, hq, hblock⟩ := hb.rowQuery_sound hm hrow
  have hload : ∀ j t : Nat, (j * A.blockSize + t : Int) < A.prefixLen q local' →
      mixedLoad cache b C packed q.seqIdx kvHead (A.prefixLen q local') j t =
        rowLoad cache (b.seqToRequestRow i) (b.seqLens i) C packed kvHead j t := by
    intro j t hlt
    have hpage : (j * cache.spec.blockSize : Int) < A.prefixLen q local' := by
      rw [← hsize]
      omega
    rw [mixedLoad, mixedAttentionRead_eq cache b q.seqIdx hpage, rowLoad, hq]
    rfl
  have hranges : q.RangesFit A := fun ranges h =>
    ⟨(hmm ranges h).1, by rw [hq]; exact (hmm ranges h).2 i htok.1⟩
  have hlen : q.seqLen = b.seqLens i := by rw [hq]; rfl
  have htoken : b.queryStartLoc q.seqIdx + q.queryPos = tok := by
    rw [hq]
    simp only [queryOf, add_sub_cancel]
  have hhead : q.head = head := by rw [hq]; rfl
  refine ⟨i, tok, head, htok, hq, fun d => ?_⟩
  obtain ⟨h2, h3⟩ := attention_congr (N := N) hload (Q tok head) d
  rw [htoken, hhead, ← hkv, h2, findSeqIdx_eq hb.wellFormed htok]
  refine ⟨attention2D_eq hblock hranges (hlen ▸ hfits i htok.1) d,
    fun numSegments hseg hfit old => ?_⟩
  rw [h3]
  exact (congrArg (A.attention3D N q local' _ _ numSegments old · d) hlen.symm).trans
    (attention3D_eq hblock hranges hseg (hlen ▸ hfit) old d)

/-- A launch of two queries for each key, with a window of two chunks. -/
noncomputable def chunkedLaunch : AttentionLaunch ℝ where
  blockSize := 4
  blockSize_pos := by decide
  blockM := 32
  numQueriesPerKv := 2
  perKv_pos := by decide
  perKv_le := by decide
  slidingWindow := 4
  window_nonneg := by decide
  chunkLookback := 1
  chunkSize := 2
  chunks := by decide
  mmPrefixRange := none
  scale := 1
  softcap := 0
  alibiSlopes := none
  useAlibiSqrt := false
  qqBias := none
  sinks := none
  outScale := none
  fp8Min := -448
  fp8Max := 448

/-- The exponential and the square root of the reals. -/
noncomputable def realNumerics : Numerics ℝ :=
  ⟨⟨Real.exp, Real.exp_pos, Real.exp_add⟩, Real.sqrt⟩

/-- Pools full of ones. -/
noncomputable def onesPools : PoolContents ℝ 8 :=
  ⟨fun _ _ _ => 1, fun _ _ _ => ⟨1, 1, 1, 1, 0⟩⟩

open AttentionLaunch in
/-- The last of three queries of a sequence of seven tokens. -/
theorem mixedAttention_eq_softmax_threeQueries :
    chunkedLaunch.resolve true 8 3 1 3 1 = .ok chunkedLaunch ∧ Launches (.single 0 7 3) 3 ∧
    ∃ g kvHead m local' q, chunkedLaunch.rowQuery (.single 0 7 3) 4 g kvHead m = some (local', q) ∧
      q = queryOf (.single 0 7 3) 0 2 3 ∧ ∀ d,
      chunkedLaunch.attention2D realNumerics q local' 1 (mixedLoad (.fresh (fourTokens.layout 0))
          (.single 0 7 3) onesPools true 0 kvHead (chunkedLaunch.prefixLen q local')) d =
        chunkedLaunch.softmaxAttention realNumerics q 1
          (rowLoad (.fresh (fourTokens.layout 0)) 0 7 onesPools true 1) d ∧
      chunkedLaunch.attention3D realNumerics q local' 1 (mixedLoad (.fresh (fourTokens.layout 0))
          (.single 0 7 3) onesPools true 0 kvHead (chunkedLaunch.prefixLen q local')) 2
          (fun _ => ⟨none, 0, 0⟩) 7 d =
        chunkedLaunch.softmaxAttention realNumerics q 1
          (rowLoad (.fresh (fourTokens.layout 0)) 0 7 onesPools true 1) d := by
  have hb : Launches (.single 0 7 3) 3 :=
    ⟨Batch.single_wellFormed 0 7 (by decide), by decide, rfl, by decide, by decide⟩
  obtain ⟨hrow, hsoftmax⟩ := mixedAttention_eq_softmax realNumerics chunkedLaunch
    (.fresh (fourTokens.layout 0)) rfl hb (fun _ h => nomatch h) (by decide) 2 (fun _ _ => 1)
    onesPools true
  obtain ⟨g, -, kvHead, -, m, hm, local', h⟩ :=
    hrow 0 2 3 ⟨by decide, by decide, by decide⟩ (by decide)
  obtain ⟨i, tok, head, ⟨hi, -⟩, hq, hd⟩ := hsoftmax g kvHead m local' _ hm h
  obtain rfl : head = 3 := (congrArg Query.head hq).symm
  obtain rfl : i = 0 := (congrArg Query.seqIdx hq).symm
  exact ⟨rfl, hb, g, kvHead, m, local', _, h, rfl, fun d =>
    ⟨(hd d).1, (hd d).2 2 (by decide) (by decide) _⟩⟩

end Sock.Tmh
