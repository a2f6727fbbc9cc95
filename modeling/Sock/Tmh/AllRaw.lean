/-
  The all-raw dispatch: `_tmh_batch_is_all_raw` and the pages behind it.

  A batch that passes the test is attended to by kernels that read raw pages only, at the slots of
  the request's row or of the native block table. The test returns early for short batches
  without a look at the roles, and passes over pages without a slot; an entry without a slot is
  zero in the native table, which is a slot of some page. So the test is sound where every page of
  a sequence is shown in its row, and the test looks at all of them or none can be a warm one
  (`all_raw_sound`). A page that a later event of its request has cleared is not shown, and the
  test passes over it (`all_raw_sound_fails`).

  * `SeqFits`, `TracksSeq`: the lengths, and the tracked pages, of a sequence of the batch.
  * `lt_pageCount_of_visited`, `SeqFits.lt_maxPages`, `SeqFits.skippedPages_le`: what a kernel
    visits is what the test looks at.

  Not modelled: row and length tensors that are shorter than the batch; logging.
-/
import Sock.Tmh.Geometry
import Sock.Tmh.LowPressure

namespace Sock.Tmh

open Lib Lib.Fallible Lib.RefCount PhysicalRuntime

/-! ## The test -/

/-- What the test reads of the attention metadata; `max_seq_len` is zero if it is absent. -/
structure AttnMetadata where
  maxSeqLen : Int
  seqLens : Option (List Int)
  queryStartLoc : Option (Nat → Int)

/-- `sliding_window`, `chunk_lookback` and `chunk_size`. -/
structure Chunking where
  slidingWindow : Int
  chunkLookback : Int := -1
  chunkSize : Int := -1

namespace AttnMetadata

variable (m : AttnMetadata)

def numSeqs : Nat := (m.seqLens.getD []).length

def seqLen (i : Nat) : Int := (m.seqLens.getD []).getD i 0

/-- `query_lens`, if the query tokens are known. -/
def queryLen (i : Nat) : Option Int :=
  m.queryStartLoc.map fun queryStartLoc => int32 (queryStartLoc (i + 1) - queryStartLoc i)

/-- `context_lens`. -/
def contextLen (i : Nat) : Option Int :=
  (m.queryLen i).map fun queryLen => max 0 (int32 (m.seqLen i - queryLen))

/-- `skipped_pages`. -/
def skippedPages (blockSize : Nat) (chunking : Chunking) (i : Nat) : Int :=
  match m.contextLen i with
  | none => 0
  | some contextLen =>
      if chunking.chunkLookback > -1 ∧ chunking.chunkSize > 0 then
        max 0 (int32 ((contextLen / chunking.chunkSize - chunking.chunkLookback) *
          chunking.chunkSize)) / blockSize
      else 0

/-- The longest length: what the metadata says, or the maximum of the lengths. -/
def longest : Option Int :=
  if m.maxSeqLen > 0 then some m.maxSeqLen else (m.seqLens.getD []).max?

end AttnMetadata

/-- A length in pages, on 32 bits and rounded up. -/
def pageCount (blockSize : Nat) (length : Int) : Int := int32 (length + blockSize - 1) / blockSize

/-- The row of sequence `i`. -/
def requestRow (seqToRequestRow : Option (Nat → Nat)) (i : Nat) : Nat :=
  match seqToRequestRow with
  | none => i
  | some rows => rows i

section Test

variable (cache : PhysicalKVCache) (m : AttnMetadata) (seqToRequestRow : Option (Nat → Nat))
  (allowMissingCurrentPrefill : Bool) (chunking : Chunking)

/-- `valid`. -/
def pageValid (i page : Nat) : Bool :=
  decide (page < pageCount cache.spec.blockSize (m.seqLen i)) &&
    decide (page ≥ m.skippedPages cache.spec.blockSize chunking i)

/-- `roles == TMH_ROLE_PINNED_RAW | roles == TMH_ROLE_HOT_RAW`. -/
def roleRaw (row page : Nat) : Bool :=
  decide (cache.requestRoleByRowPage row page = 0) ||
    decide (cache.requestRoleByRowPage row page = 1)

/-- `raw | ~materialized | allowed_missing`. -/
def pagePasses (i page : Nat) : Bool :=
  let row := requestRow seqToRequestRow i
  let materialized := pageValid cache m chunking i page &&
    decide (cache.requestSlotByRowPage row page ≥ 0)
  let missing := decide (cache.requestRoleByRowPage row page < 0) && materialized
  let allowedMissing :=
    match m.contextLen i with
    | none => false
    | some contextLen => allowMissingCurrentPrefill && missing &&
        decide (page ≥ pageCount cache.spec.blockSize contextLen)
  roleRaw cache row page || !materialized || allowedMissing

/-- The test, once the longest length is known. -/
def allRawFor (maxSeqLen : Int) : Bool :=
  let maxPages := (maxSeqLen + cache.spec.blockSize - 1) / cache.spec.blockSize
  if maxPages ≤ tmhRawOnlyPages cache.toCacheLayout then true
  else if m.seqLens = none ∨ maxPages ≤ 0 then false
  else if m.numSeqs ≤ 0 then false
  else
    let maxPages := min maxPages cache.spec.tmhMaxModelPages
    (List.range m.numSeqs).all fun i => (List.range maxPages.toNat).all fun page =>
      pagePasses cache m seqToRequestRow allowMissingCurrentPrefill chunking i page

/-- `_tmh_batch_is_all_raw`. The maximum of no lengths raises. -/
def tmhBatchIsAllRaw : Option Bool :=
  if m.maxSeqLen > 0 then
    some (allRawFor cache m seqToRequestRow allowMissingCurrentPrefill chunking m.maxSeqLen)
  else
    match m.seqLens with
    | none => some false
    | some seqLens =>
        seqLens.max?.map (allRawFor cache m seqToRequestRow allowMissingCurrentPrefill chunking)

/-- `_tmh_native_decode_block_table`. -/
def tmhNativeDecodeBlockTable (i page : Nat) : Int :=
  cache.nativeBlockTableBySeq (requestRow seqToRequestRow i) page

/-- `first_allowed_key` of `compute_tile_loop_bounds`, for the first query of a sequence. -/
def Chunking.firstAllowedKey (contextLen : Int) : Int :=
  if chunking.slidingWindow > 0 then
    if chunking.chunkLookback > -1 then
      int32 ((contextLen.tdiv chunking.chunkSize - chunking.chunkLookback) * chunking.chunkSize)
    else contextLen - chunking.slidingWindow + 1
  else 0

/-- The pages of sequence `i` that the programs of its kernel run over, all together. The tile
    loops of the raw kernel leave out the pages before the first allowed key (`prunes`); with a
    multimodal prefix they do not, and neither do the native kernels. -/
def visitedPages (prunes : Bool) (i : Nat) : List Nat :=
  (List.range (cdivFn (m.seqLen i) cache.spec.blockSize).toNat).filter fun page =>
    match m.queryLen i with
    | none => true
    | some queryLen =>
        !prunes || decide (page ≥ (chunking.firstAllowedKey (int32 (m.seqLen i - queryLen))).tdiv
          cache.spec.blockSize)

end Test

/-! ## What the test says -/

section Meaning

variable {cache : PhysicalKVCache} {m : AttnMetadata} {seqToRequestRow : Option (Nat → Nat)}
  {allowMissingCurrentPrefill : Bool} {chunking : Chunking}

/-- A valid page with a slot and a role passes only if the role is a raw one: nothing is missing
    that could be allowed to be. -/
theorem roleRaw_of_pagePasses {i page : Nat}
    (h : pagePasses cache m seqToRequestRow allowMissingCurrentPrefill chunking i page = true)
    (hvalid : pageValid cache m chunking i page = true)
    (hslot : cache.requestSlotByRowPage (requestRow seqToRequestRow i) page ≥ 0)
    (hrole : cache.requestRoleByRowPage (requestRow seqToRequestRow i) page ≥ 0) :
    roleRaw cache (requestRow seqToRequestRow i) page = true := by
  unfold pagePasses at h
  simp only [hvalid, decide_eq_true hslot, decide_eq_false (Int.not_lt.mpr hrole), Bool.and_self,
    Bool.not_true, Bool.or_false, Bool.false_and, Bool.and_false] at h
  cases hc : m.contextLen i with
  | none => simpa [hc] using h
  | some contextLen => simpa [hc] using h

/-- A test that is passed was a short one, or looked at every page of the longest length. -/
theorem allRawFor_cases {n : Int}
    (h : allRawFor cache m seqToRequestRow allowMissingCurrentPrefill chunking n = true) :
    (n + cache.spec.blockSize - 1) / cache.spec.blockSize ≤ tmhRawOnlyPages cache.toCacheLayout ∨
      ∀ i < m.numSeqs, ∀ page : Nat,
        page < min ((n + cache.spec.blockSize - 1) / cache.spec.blockSize)
          (cache.spec.tmhMaxModelPages : Int) →
        pagePasses cache m seqToRequestRow allowMissingCurrentPrefill chunking i page = true := by
  unfold allRawFor at h
  dsimp only at h
  split at h
  · next hshort => exact .inl hshort
  · right
    split at h
    · cases h
    · split at h
      · cases h
      · simp only [List.all_eq_true, List.mem_range] at h
        intro i hi page hp
        exact h i hi page (by omega)

/-- The test runs with the longest length. -/
theorem tmhBatchIsAllRaw_true
    (h : tmhBatchIsAllRaw cache m seqToRequestRow allowMissingCurrentPrefill chunking =
      some true) :
    ∃ n ∈ m.longest,
      allRawFor cache m seqToRequestRow allowMissingCurrentPrefill chunking n = true := by
  unfold tmhBatchIsAllRaw at h
  unfold AttnMetadata.longest
  split at h
  · next hpos => exact ⟨m.maxSeqLen, if_pos hpos, Option.some.inj h⟩
  · next hpos =>
      rw [if_neg hpos]
      cases hlens : m.seqLens with
      | none => simp [hlens] at h
      | some seqLens =>
          rw [hlens] at h
          exact Option.map_eq_some_iff.mp h

end Meaning

/-! ## Visited pages -/

/-- What is asked of a sequence: its lengths are those of the metadata, the tables and 32 bits. -/
structure SeqFits (cache : PhysicalKVCache) (m : AttnMetadata) (i : Nat) : Prop where
  nonneg : 0 ≤ m.seqLen i
  longest : ∀ n ∈ m.longest, m.seqLen i ≤ n
  tables : m.seqLen i ≤ cache.spec.blockSize * cache.spec.tmhMaxModelPages
  bits : m.seqLen i + cache.spec.blockSize < 2 ^ 31
  query : ∀ n ∈ m.queryLen i, 0 ≤ n ∧ n ≤ m.seqLen i

instance (cache : PhysicalKVCache) (m : AttnMetadata) (i : Nat) : Decidable (SeqFits cache m i) :=
  decidable_of_iff (0 ≤ m.seqLen i ∧ (∀ n ∈ m.longest, m.seqLen i ≤ n) ∧
      m.seqLen i ≤ cache.spec.blockSize * cache.spec.tmhMaxModelPages ∧
      m.seqLen i + cache.spec.blockSize < 2 ^ 31 ∧ ∀ n ∈ m.queryLen i, 0 ≤ n ∧ n ≤ m.seqLen i)
    ⟨fun ⟨h₁, h₂, h₃, h₄, h₅⟩ => ⟨h₁, h₂, h₃, h₄, h₅⟩, fun h => ⟨h.1, h.2, h.3, h.4, h.5⟩⟩

section Visited

variable {cache : PhysicalKVCache} {m : AttnMetadata} {chunking : Chunking} {prunes : Bool}
  {i page : Nat}

theorem lt_pageCount_of_visited (h : page ∈ visitedPages cache m chunking prunes i) :
    (page : Int) < pageCount cache.spec.blockSize (m.seqLen i) := by
  have hpage : (page : Int) < cdivFn (m.seqLen i) cache.spec.blockSize := by
    have := List.mem_range.mp (List.mem_of_mem_filter h)
    omega
  unfold cdivFn at hpage
  unfold pageCount
  -- a quotient above a page index is positive, and so is what is divided
  have hnum : 0 ≤ int32 (m.seqLen i + cache.spec.blockSize - 1) := by
    by_contra hneg
    have := tdiv_nonpos (Int.le_of_lt (Int.not_le.mp hneg))
      (Int.natCast_nonneg cache.spec.blockSize)
    omega
  rwa [Int.tdiv_eq_ediv_of_nonneg hnum] at hpage

/-- The pages of a sequence are among those the test looks at, unless it returns early. -/
theorem SeqFits.lt_maxPages (h : SeqFits cache m i) {n : Int} (hn : n ∈ m.longest)
    (hpage : (page : Int) < pageCount cache.spec.blockSize (m.seqLen i)) :
    page < min ((n + cache.spec.blockSize - 1) / cache.spec.blockSize)
      (cache.spec.tmhMaxModelPages : Int) := by
  obtain ⟨h0, hlongest, htables, hbits, -⟩ := h
  have hn := hlongest n hn
  unfold pageCount at hpage
  rw [int32_eq (by omega) (by omega)] at hpage
  rcases Nat.eq_zero_or_pos cache.spec.blockSize with hz | hpos
  · rw [hz, Nat.cast_zero, Int.ediv_zero] at hpage
    omega
  · have hpos : (0 : Int) < cache.spec.blockSize := by exact_mod_cast hpos
    refine lt_min (Int.lt_of_lt_of_le hpage (Int.ediv_le_ediv hpos (by omega))) ?_
    refine Int.lt_of_lt_of_le hpage (Int.lt_add_one_iff.mp (Int.ediv_lt_of_lt_mul hpos ?_))
    rw [Int.add_mul, Int.mul_comm (cache.spec.tmhMaxModelPages : Int)]
    omega

/-- A page that is visited is not one that the test skips. -/
theorem SeqFits.skippedPages_le (h : SeqFits cache m i)
    (hchunk : chunking.chunkLookback ≤ -1 ∨ prunes = true ∧ 0 < chunking.slidingWindow)
    (hvisited : page ∈ visitedPages cache m chunking prunes i) :
    m.skippedPages cache.spec.blockSize chunking i ≤ page := by
  have hbits := h.bits
  have hvisited := List.of_mem_filter hvisited
  unfold AttnMetadata.skippedPages AttnMetadata.contextLen
  cases hq : m.queryLen i with
  | none => exact Int.natCast_nonneg page
  | some queryLen =>
      obtain ⟨hq0, hql⟩ := h.query queryLen hq
      have hcontext : int32 (m.seqLen i - queryLen) = m.seqLen i - queryLen :=
        int32_eq (by omega) (by omega)
      simp only [hq, Option.map_some, hcontext, max_eq_right (Int.sub_nonneg.mpr hql)] at hvisited ⊢
      split
      · next hlook =>
          rcases hchunk with hnone | ⟨rfl, hwindow⟩
          · omega
          · -- kernel and test divide the same context length, which is not negative
            rw [Chunking.firstAllowedKey, if_pos hwindow, if_pos hlook.1,
              Int.tdiv_eq_ediv_of_nonneg (Int.sub_nonneg.mpr hql)] at hvisited
            simp only [Bool.not_true, Bool.false_or, decide_eq_true_eq] at hvisited
            generalize int32 _ = first at hvisited ⊢
            rcases Int.le_total first 0 with hneg | hpos
            · rw [max_eq_left hneg, Int.zero_ediv]
              exact Int.natCast_nonneg page
            · rwa [max_eq_right hpos, ← Int.tdiv_eq_ediv_of_nonneg hpos]
      · exact Int.natCast_nonneg page

end Visited

/-! ## Soundness along runs -/

variable {Req Layer : Type} [DecidableEq Req] [DecidableEq Layer]

/-- Row and native table name, for page `page` of sequence `i`, a raw slot that the runtime holds
    for that page of request `q`. -/
def RawHeld (s : System Req Layer) (cache : PhysicalKVCache) (seqToRequestRow : Option (Nat → Nat))
    (q : Req) (l : Layer) (i page : Nat) : Prop :=
  ∃ d k slot, s.ledger.get? (q, l, (page : Int)) = some d ∧ k.raw = true ∧
    s.runtime.Holds d k slot ∧
    cache.requestSlotByRowPage (requestRow seqToRequestRow i) page = (slot : Nat) ∧
    cache.requestRoleByRowPage (requestRow seqToRequestRow i) page = k.toInt ∧
    tmhNativeDecodeBlockTable cache seqToRequestRow i page = slot

/-- Sequence `i` is request `q` in its row, and every page of its length is tracked. -/
def TracksSeq (s : System Req Layer) (cache : PhysicalKVCache) (m : AttnMetadata)
    (seqToRequestRow : Option (Nat → Nat)) (q : Req) (l : Layer) (i : Nat) : Prop :=
  s.rows.get? q = some (requestRow seqToRequestRow i) ∧
    ∀ page < (pageCount cache.spec.blockSize (m.seqLen i)).toNat,
      (q, l, (page : Int)) ∈ s.ledger.keys

instance (s : System Req Layer) (cache : PhysicalKVCache) (m : AttnMetadata)
    (seqToRequestRow : Option (Nat → Nat)) (q : Req) (l : Layer) (i : Nat) :
    Decidable (TracksSeq s cache m seqToRequestRow q l i) :=
  inferInstanceAs (Decidable (_ ∧ ∀ page < (pageCount _ _).toNat, _))

/-- Where every tracked page is shown, so is every page of a sequence, as the slot and the role of
    a held page. -/
theorem TracksSeq.held {s : System Req Layer} {cache : PhysicalKVCache} {m : AttnMetadata}
    {seqToRequestRow : Option (Nat → Nat)} {q : Req} {l : Layer} {i page : Nat}
    (h : TracksSeq s cache m seqToRequestRow q l i) (hI : RowsHave PagesHeld [] s)
    (hc : s.runtime.caches.get? l = some cache)
    (hpage : (page : Int) < pageCount cache.spec.blockSize (m.seqLen i)) :
    ∃ d k slot, s.ledger.get? (q, l, (page : Int)) = some d ∧ s.runtime.Holds d k slot ∧
      s.runtime.entry l (requestRow seqToRequestRow i) page = some (.of slot k) ∧
      cache.entry (requestRow seqToRequestRow i) page = .of slot k := by
  obtain ⟨d, hd⟩ := Dict.mem_keys.mp (h.2 page (by omega))
  obtain ⟨row, hrow, hP⟩ := hI.tracked (tracked_iff.mpr ⟨l, page, d, hd⟩)
  rw [h.1] at hrow
  cases hrow
  obtain ⟨k, slot, he, hh⟩ := hP l page d hd
  rw [Int.toNat_natCast] at he
  refine ⟨d, k, slot, hd, hh, he, ?_⟩
  rw [PhysicalRuntime.entry, hc] at he
  exact Option.some.inj he

/-- **All raw.** In every run with stable injective rows in which, before every call, the tracked
    descriptors of a block agree on its canonical key and the call records all pages of its
    request or none, take a batch of tracked requests in their rows. Let the kernel skip the pages
    that the chunk settings let the test skip; and let the longest sequence have more pages than
    are looked over, or the whole run stay under low pressure. If the test returns true, every
    page that is visited is a raw page held for its request. -/
theorem all_raw_sound (D : Deployment Layer) (segs : List (Segment Req))
    (hrows : ∀ x ∈ trace System.step D.start segs, StableRows x.1 x.2)
    (hcalls : ∀ x ∈ D.start.moments segs,
      KeyAgreement x.1.ledger ∧ RecordsAllOrNothing D.policy x.1.ledger x.2)
    {s : System Req Layer} (hrun : D.run segs = .ok s) {l : Layer} {cache : PhysicalKVCache}
    (hc : s.runtime.caches.get? l = some cache) (m : AttnMetadata)
    (seqToRequestRow : Option (Nat → Nat)) (allowMissingCurrentPrefill : Bool)
    (chunking : Chunking) (prunes : Bool) (requests : Nat → Req)
    (hbatch : ∀ i < m.numSeqs, SeqFits cache m i ∧
      TracksSeq s cache m seqToRequestRow (requests i) l i)
    (hchunk : chunking.chunkLookback ≤ -1 ∨ prunes = true ∧ 0 < chunking.slidingWindow)
    (hlong : (∀ n ∈ m.longest, tmhRawOnlyPages cache.toCacheLayout <
        (n + cache.spec.blockSize - 1) / cache.spec.blockSize) ∨
      ∀ x ∈ D.start.moments segs, LowPressure D x.1 x.2)
    (htest : tmhBatchIsAllRaw cache m seqToRequestRow allowMissingCurrentPrefill chunking =
      some true) :
    ∀ i < m.numSeqs, ∀ page ∈ visitedPages cache m chunking prunes i,
      RawHeld s cache seqToRequestRow (requests i) l i page := by
  obtain ⟨-, hI⟩ := (pagesHeld_rule D).run hrows hcalls hrun
  intro i hi page hvisited
  obtain ⟨hfits, htracks⟩ := hbatch i hi
  have hpage := lt_pageCount_of_visited hvisited
  obtain ⟨d, k, slot, hd, hh, hentry, he⟩ := htracks.held hI hc hpage
  have hslot : cache.requestSlotByRowPage (requestRow seqToRequestRow i) page = slot :=
    congrArg RowEntry.slot he
  have hrole : cache.requestRoleByRowPage (requestRow seqToRequestRow i) page = k.toInt :=
    congrArg RowEntry.role he
  refine ⟨d, k, slot, hd, ?_, hh, hslot, hrole, congrArg RowEntry.native he⟩
  rw [← RowEntry.rawPool_of slot]
  rcases hlong with hlong | hlow
  · -- the test has looked at the page
    obtain ⟨n, hn, hraw⟩ := tmhBatchIsAllRaw_true htest
    rcases allRawFor_cases hraw with hshort | hall
    · exact absurd (hlong n hn) (Int.not_lt.mpr hshort)
    · have hvalid : pageValid cache m chunking i page = true := by
        rw [pageValid, Bool.and_eq_true, decide_eq_true_eq, decide_eq_true_eq]
        exact ⟨hpage, hfits.skippedPages_le hchunk hvisited⟩
      have hpool := roleRaw_of_pagePasses (hall i hi page (hfits.lt_maxPages hn hpage)) hvalid
        (hslot ▸ Int.natCast_nonneg slot) (hrole ▸ k.toInt_nonneg)
      rw [← he]
      exact (Bool.decide_or _ _).trans hpool
  · -- nothing was ever placed outside the raw pool
    obtain ⟨-, -, hraw⟩ := (rawOnly_rule D).run (fun _ _ => trivial) hlow hrun
    rcases hraw.rows l _ _ _ hentry with hblank | hpool
    · have : (slot : Int) = -1 := congrArg RowEntry.slot hblank
      omega
    · exact hpool

/-- A decode step: one new token for each sequence, no window. -/
def decodeStep (seqLens : List Int) : AttnMetadata where
  maxSeqLen := seqLens.max?.getD 0
  seqLens := some seqLens
  queryStartLoc := some fun i => i

theorem all_raw_sound_sharedAnchor :
    ∃ s cache, halfRaw.run sharedAnchor = .ok s ∧ s.runtime.caches.get? 0 = some cache ∧
      (∀ i < 2, visitedPages cache (decodeStep [2, 2]) ⟨0, -1, -1⟩ false i = [0, 1]) ∧
      ∀ i < 2, ∀ page ∈ visitedPages cache (decodeStep [2, 2]) ⟨0, -1, -1⟩ false i,
        RawHeld s cache none i 0 i page := by
  obtain ⟨s, hrun, hp⟩ := exists_ok_of_any (x := halfRaw.run sharedAnchor)
    (p := fun s => (s.runtime.caches.get? 0).any fun cache =>
      decide (∀ i < (2 : Nat),
        visitedPages cache (decodeStep [2, 2]) ⟨0, -1, -1⟩ false i = [0, 1]) &&
      decide (∀ i < (2 : Nat), SeqFits cache (decodeStep [2, 2]) i ∧
        TracksSeq s cache (decodeStep [2, 2]) none i 0 i) &&
      decide (∀ n ∈ (decodeStep [2, 2]).longest, tmhRawOnlyPages cache.toCacheLayout <
        (n + cache.spec.blockSize - 1) / cache.spec.blockSize) &&
      decide (tmhBatchIsAllRaw cache (decodeStep [2, 2]) none false ⟨0, -1, -1⟩ = some true))
    (by decide +kernel)
  simp only [Option.any_eq_true, Bool.and_eq_true, decide_eq_true_eq] at hp
  obtain ⟨cache, hc, ⟨⟨hvisited, hbatch⟩, hlong⟩, htest⟩ := hp
  exact ⟨s, cache, hrun, hc, hvisited, all_raw_sound halfRaw sharedAnchor (by decide +kernel)
    (by decide +kernel) hrun hc (decodeStep [2, 2]) none false ⟨0, -1, -1⟩ false (fun i => i) hbatch
    (.inl (by decide)) (.inl hlong) htest⟩

/-- Two requests of one page; the second grows by a page. -/
def secondGrows : List (Segment Nat) :=
  [⟨[allocate 0 [(0, false)], allocate 1 [(1, false)]], ownRows 2⟩,
   ⟨[allocate 1 [(1, false), (2, false)]], ownRows 2⟩]

/-- Page 0 of request 1 was cleared when page 1 came: the test passes over it, its row names no
    slot, and the native table names raw slot 0, which is the page of request 0. -/
theorem all_raw_sound_fails :
    (∀ x ∈ trace System.step halfRaw.start secondGrows, StableRows x.1 x.2) ∧
      (∀ x ∈ halfRaw.start.moments secondGrows, KeyAgreement x.1.ledger) ∧
      ∃ s cache, halfRaw.run secondGrows = .ok s ∧ s.runtime.caches.get? 0 = some cache ∧
        (∀ i < 2, Tracked s.ledger i ∧ s.rows.get? i = some i) ∧
        tmhBatchIsAllRaw cache (decodeStep [1, 2]) none false ⟨0, -1, -1⟩ = some true ∧
        0 ∈ visitedPages cache (decodeStep [1, 2]) ⟨0, -1, -1⟩ false 1 ∧
        ¬ RawHeld s cache none 1 0 1 0 ∧ tmhNativeDecodeBlockTable cache none 1 0 = 0 ∧
        s.runtime.entry 0 0 0 = some (.of 0 .pinnedRaw) := by
  refine ⟨by decide +kernel, by decide +kernel, ?_⟩
  obtain ⟨s, hrun, hp⟩ := exists_ok_of_any (x := halfRaw.run secondGrows)
    (p := fun s => decide (∃ cache ∈ s.runtime.caches.get? 0,
      tmhBatchIsAllRaw cache (decodeStep [1, 2]) none false ⟨0, -1, -1⟩ = some true ∧
      0 ∈ visitedPages cache (decodeStep [1, 2]) ⟨0, -1, -1⟩ false 1 ∧
      cache.requestSlotByRowPage 1 0 = -1 ∧ tmhNativeDecodeBlockTable cache none 1 0 = 0) &&
      decide (s.runtime.entry 0 0 0 = some (.of 0 .pinnedRaw)) &&
      (List.range 2).all fun i => decide (Tracked s.ledger i ∧ s.rows.get? i = some i))
    (by decide +kernel)
  simp only [Bool.and_eq_true, List.all_eq_true, List.mem_range, decide_eq_true_eq] at hp
  obtain ⟨⟨⟨cache, hc, htest, hvisited, hblank, hnative⟩, hother⟩, hbatch⟩ := hp
  refine ⟨s, cache, hrun, hc, hbatch, htest, hvisited, ?_, hnative, hother⟩
  rintro ⟨d, k, slot, -, -, -, hslot, -⟩
  have hslot : cache.requestSlotByRowPage 1 0 = slot := hslot
  omega

end Sock.Tmh
