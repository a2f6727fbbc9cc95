/-
  The mixed kernels: where a token is written, where a page is read.

  Both kernels take the slot from the request's row and recompute the pool from the page index
  and the sequence's current length (`kernelRaw`); neither looks at the role that the runtime
  wrote next to the slot, and nothing moves a page's contents when slot or pool change. So a page
  is read where it was written as long as the row entry and the test stay the same
  (`read_your_writes`). A record event that leaves out a page of its request breaks this
  (`read_your_writes_fails`).

  Arithmetic on the device is on 32 bits (`int32`) and division truncates. Positions and page
  indices stay below the sequence's length, so they do not wrap; the product in the hot page
  count may.

  Not modelled: the contents of the pages and their quantization; which tiles a program of the
  attention kernel visits (a page is read if its first position is below the longest prefix of
  the program's queries).
-/
import Sock.Lib.Search
import Sock.Tmh.Rows

namespace Sock.Tmh

open Lib Lib.Fallible Lib.RefCount PhysicalRuntime

/-! ## The geometry test -/

/-- Arithmetic on 32 bits. -/
def int32 (x : Int) : Int := x.bmod (2 ^ 32)

/-- `cdiv_fn`. -/
def cdivFn (x y : Int) : Int := (int32 (x + y - 1)).tdiv y

/-- `_tmh_page_is_raw`. -/
def tmhPageIsRaw (pageIndex seqLen blockSize hotBudgetBps : Int) : Bool :=
  let totalPages := cdivFn seqLen blockSize
  let hotPages := cdivFn (int32 (totalPages * hotBudgetBps)) 10000
  let hotPages := min totalPages hotPages
  let recentStartPage := if hotPages ≤ 0 then totalPages else totalPages - hotPages
  decide (pageIndex = 0 ∨ pageIndex ≥ recentStartPage)

/-- `_tmh_hot_budget_bps`, with Python's `round`. -/
def tmhHotBudgetBps (cache : CacheLayout) : Int :=
  roundHalfEven (max 0 (min 100 cache.spec.tmhHotBudgetPct) * 100)

/-- `_tmh_raw_only_pages`. -/
def tmhRawOnlyPages (cache : CacheLayout) : Nat :=
  let maxReqs := max 1 cache.spec.tmhMaxNumSeqs
  max 1 (min cache.spec.tmhMaxModelPages (cache.rawPages / maxReqs))

/-- The kernels' bound is the runtime's. -/
theorem tmhRawOnlyPages_eq (cache : CacheLayout) :
    tmhRawOnlyPages cache = cache.rawCapacityPagesPerRequest := rfl

theorem CacheLayout.rawCapacityPagesPerRequest_pos (cache : CacheLayout) :
    1 ≤ cache.rawCapacityPagesPerRequest := Nat.le_max_left _ _

/-- `is_raw`, as both mixed kernels compute it. -/
def kernelRaw (cache : CacheLayout) (pageIndex seqLen : Int) : Bool :=
  decide (cdivFn seqLen cache.spec.blockSize ≤ tmhRawOnlyPages cache) ||
    tmhPageIsRaw pageIndex seqLen cache.spec.blockSize (tmhHotBudgetBps cache)

/-! ## Batches -/

/-- The tensors of a step's metadata that the kernels read. -/
structure Batch where
  numSeqs : Nat
  seqLens : Nat → Int
  queryStartLoc : Nat → Int
  seqToRequestRow : Nat → Nat
  slotMapping : Nat → Int

/-- `find_seq_idx`, over raw query tokens. -/
def findSeqIdx (b : Batch) (target : Int) : Nat :=
  Search.upperBound b.queryStartLoc target b.numSeqs 0 b.numSeqs - 1

/-- A pool and a slot of it. -/
structure Target where
  raw : Bool
  slot : Int
  deriving DecidableEq

/-- The position of a token in sequence `seqIdx`. -/
def Batch.absPos (b : Batch) (seqIdx : Nat) (tok : Int) : Int :=
  let queryLen := b.queryStartLoc (seqIdx + 1) - b.queryStartLoc seqIdx
  (b.seqLens seqIdx - queryLen) + (tok - b.queryStartLoc seqIdx)

/-- `_tmh_reshape_and_cache_kernel`: where the token goes, if anywhere. -/
def mixedCacheWrite (cache : PhysicalKVCache) (b : Batch) (tok : Nat) : Option Target :=
  if b.slotMapping tok < 0 then none
  else
    let seqIdx := findSeqIdx b tok
    let pageIndex := b.absPos seqIdx tok / cache.spec.blockSize
    let physicalSlot := cache.requestSlotByRowPage (b.seqToRequestRow seqIdx) pageIndex.toNat
    if physicalSlot < 0 then none
    else
      some
        { raw := kernelRaw cache.toCacheLayout pageIndex (b.seqLens seqIdx)
          slot := physicalSlot }

/-- The body of the tile loop of `_tmh_mixed_attention_kernel`, where a tile is a page: from where
    the page is read, if it is present. -/
def mixedAttentionRead (cache : PhysicalKVCache) (b : Batch) (seqIdx page : Nat)
    (maxSeqPrefixLen : Int) : Option Target :=
  let physicalSlot :=
    if (page * cache.spec.blockSize : Int) < maxSeqPrefixLen then
      cache.requestSlotByRowPage (b.seqToRequestRow seqIdx) page
    else -1
  if physicalSlot ≥ 0 then
    some { raw := kernelRaw cache.toCacheLayout page (b.seqLens seqIdx), slot := physicalSlot }
  else none

/-- The query tokens are laid out sequence by sequence. -/
def Batch.WellFormed (b : Batch) : Prop :=
  ∀ i j, i ≤ j → j ≤ b.numSeqs → b.queryStartLoc i ≤ b.queryStartLoc j

/-- The token is one of sequence `seqIdx`. -/
def Batch.Owns (b : Batch) (seqIdx : Nat) (tok : Int) : Prop :=
  seqIdx < b.numSeqs ∧ b.queryStartLoc seqIdx ≤ tok ∧ tok < b.queryStartLoc (seqIdx + 1)

/-- The search finds the sequence of a token. -/
theorem findSeqIdx_eq {b : Batch} (hb : b.WellFormed) {i : Nat} {tok : Int} (h : b.Owns i tok) :
    findSeqIdx b tok = i := by
  obtain ⟨hi, hlo, hhi⟩ := h
  have hsearch : Search.upperBound b.queryStartLoc tok b.numSeqs 0 b.numSeqs = i + 1 :=
    Search.upperBound_eq hi (fun j hj => (hb j i hj (by omega)).trans hlo)
      fun j hij hj => lt_of_lt_of_le hhi (hb (i + 1) j (by omega) (by omega))
  rw [findSeqIdx, hsearch]
  rfl

/-- The target behind an entry of a row, for a sequence of the given length. -/
def rowTarget (cache : PhysicalKVCache) (row page : Nat) (seqLen : Int) : Option Target :=
  if cache.requestSlotByRowPage row page < 0 then none
  else
    some
      { raw := kernelRaw cache.toCacheLayout page seqLen
        slot := cache.requestSlotByRowPage row page }

theorem mixedCacheWrite_eq (cache : PhysicalKVCache) {b : Batch} (hb : b.WellFormed)
    {i tok page : Nat} (htok : b.Owns i tok) (hslot : 0 ≤ b.slotMapping tok)
    (hpage : b.absPos i tok / cache.spec.blockSize = page) :
    mixedCacheWrite cache b tok = rowTarget cache (b.seqToRequestRow i) page (b.seqLens i) := by
  unfold mixedCacheWrite rowTarget
  rw [if_neg (Int.not_lt.mpr hslot)]
  simp only [findSeqIdx_eq hb htok, hpage, Int.toNat_natCast]

theorem mixedAttentionRead_eq (cache : PhysicalKVCache) (b : Batch) (i : Nat) {page : Nat}
    {maxSeqPrefixLen : Int} (hvisit : (page * cache.spec.blockSize : Int) < maxSeqPrefixLen) :
    mixedAttentionRead cache b i page maxSeqPrefixLen =
      rowTarget cache (b.seqToRequestRow i) page (b.seqLens i) := by
  unfold mixedAttentionRead rowTarget
  simp only [if_pos hvisit]
  split
  · next h => rw [if_neg (Int.not_lt.mpr h)]
  · next h => rw [if_pos (Int.not_le.mp h)]

/-! ## Quiet requests -/

variable {Req Layer : Type} [DecidableEq Req] [DecidableEq Layer]

/-- Along a run in which `q` is not forgotten and none of its records changes a page, its row and
    the entries of the row stay as they are in `s₀`. -/
theorem quiet_rule (D : Deployment Layer) (s₀ : System Req Layer) (q : Req) (row : Nat) :
    StepRule D
      (fun rest (s : System Req Layer) => (rest ≠ [] → s.rows.values.Nodup) ∧
        .forgetRequest q ∉ rest ∧ Tracked s.ledger q ∧ s.rows.get? q = some row ∧
        ∀ l page, s.runtime.entry l row page = s₀.runtime.entry l row page)
      (fun s call => call.requestId = q → s.policy.queuedBy call = [])
      (fun s seg => StableRows s seg ∧ .forgetRequest q ∉ seg.calls) where
  enter s seg hS hI := by
    obtain ⟨-, -, hq, hrow, hentry⟩ := hI
    obtain ⟨l, i, d, hd⟩ := tracked_iff.mp hq
    refine ⟨fun _ => hS.1.1, hS.2, hq, ?_, hentry⟩
    exact (hS.1.2 (q, l, i) (Dict.mem_keys.mpr ⟨d, hd⟩) hS.2).trans hrow
  tick s call rest s' hC ht hI := by
    obtain ⟨hinj, hnf, hq, hrow, hentry⟩ := hI
    have hinj := hinj (List.cons_ne_nil _ _)
    have hown : ∀ event row rt, Recorded D s call s' event row rt → event.requestId ≠ q := by
      intro event row rt hr he
      have hnil := hC (hr.request.symm.trans he)
      rw [hr.queued] at hnil
      cases hnil
    have hq' : Tracked s'.ledger q := by
      cases ht.ticked with
      | silent _ _ hledger _ => rwa [hledger]
      | record hr => exact (tracked_of_other (hr.spec.other (Ne.symm (hown _ _ _ hr)))).mpr hq
      | forget hf =>
          refine (tracked_of_other (hf.spec.other ?_)).mpr hq
          rintro rfl
          exact hnf (hf.call ▸ List.mem_cons_self)
    refine ⟨fun _ => ht.rows ▸ hinj, fun hm => hnf (List.mem_cons_of_mem _ hm), hq',
      ht.rows ▸ hrow, fun l page => ?_⟩
    rcases ht.undisturbed hinj hq' with ⟨event, row, rt, hr, he⟩ | ⟨-, -, -, hun⟩
    · exact absurd he (hown event row rt hr)
    · rw [(hun row hrow).entry, hentry]
  drain _ hI := hI

/-- Sequence `i` of the batch is request `q` of the system, with its row and its length. -/
structure Batch.Serves (b : Batch) (s : System Req Layer) (q : Req) (i : Nat) : Prop where
  inside : i < b.numSeqs
  row : s.rows.get? q = some (b.seqToRequestRow i)
  length : s.lengths.get? q = some (b.seqLens i)

/-- **Read your writes.** In a run with stable injective rows, between a step that writes a token
    of page `page` of request `q` and a later step that reads the page: if the request is not
    forgotten, none of its records changes a page, and the geometry test gives the same at both
    lengths, then the page is read from the pool and slot to which the token was written. -/
theorem read_your_writes (D : Deployment Layer) (segs₁ segs₂ : List (Segment Req))
    {s₁ s₂ : System Req Layer} (hrun₁ : D.run segs₁ = .ok s₁)
    (hrun₂ : segs₂.foldlM System.step s₁ = .ok s₂)
    (hrows : ∀ x ∈ trace System.step s₁ segs₂, StableRows x.1 x.2) (q : Req)
    (hq : Tracked s₁.ledger q) (hkept : ∀ seg ∈ segs₂, .forgetRequest q ∉ seg.calls)
    (hquiet : ∀ x ∈ s₁.moments segs₂, x.2.requestId = q → x.1.policy.queuedBy x.2 = [])
    {l : Layer} {cache₁ cache₂ : PhysicalKVCache} (hc₁ : s₁.runtime.caches.get? l = some cache₁)
    (hc₂ : s₂.runtime.caches.get? l = some cache₂) {b₁ b₂ : Batch} (hb₁ : b₁.WellFormed)
    {i₁ i₂ : Nat} (hi₁ : b₁.Serves s₁ q i₁) (hi₂ : b₂.Serves s₂ q i₂) {tok page : Nat}
    (htok : b₁.Owns i₁ tok) (hslot : 0 ≤ b₁.slotMapping tok)
    (hpage : b₁.absPos i₁ tok / (D.specs l).blockSize = page) {maxSeqPrefixLen : Int}
    (hvisit : (page * (D.specs l).blockSize : Int) < maxSeqPrefixLen)
    (htest : kernelRaw (D.layout l) page (b₂.seqLens i₂) =
      kernelRaw (D.layout l) page (b₁.seqLens i₁)) :
    mixedAttentionRead cache₂ b₂ i₂ page maxSeqPrefixLen = mixedCacheWrite cache₁ b₁ tok := by
  have hbetween₁ := between_of_run hrun₁
  have hsegs : ∀ x ∈ trace System.step s₁ segs₂,
      StableRows x.1 x.2 ∧ .forgetRequest q ∉ x.2.calls :=
    fun x hx => ⟨hrows x hx, hkept x.2 (mem_of_mem_trace hx)⟩
  obtain ⟨hbetween₂, -, -, -, hrow, hentry⟩ :=
    (quiet_rule D s₁ q (b₁.seqToRequestRow i₁)).run_from
      ⟨hbetween₁, fun h => absurd rfl h, List.not_mem_nil, hq, hi₁.row, fun _ _ => rfl⟩
      hsegs hquiet hrun₂
  have hlayout₁ := (D.eq_of_layouts (hbetween₁.pool.layouts_of_cache hc₁)).2
  have hlayout₂ := (D.eq_of_layouts (hbetween₂.pool.layouts_of_cache hc₂)).2
  -- sequence `i₂` has the row that the write went through, and its entry is the same
  have hsame : b₂.seqToRequestRow i₂ = b₁.seqToRequestRow i₁ :=
    Option.some.inj (hi₂.row.symm.trans hrow)
  have hslots := hentry l page
  unfold entry at hslots
  rw [hc₁, hc₂] at hslots
  have hslots : cache₂.requestSlotByRowPage (b₁.seqToRequestRow i₁) page =
      cache₁.requestSlotByRowPage (b₁.seqToRequestRow i₁) page :=
    congrArg RowEntry.slot (Option.some.inj hslots)
  have hsize₁ : cache₁.spec = D.specs l := congrArg CacheLayout.spec hlayout₁
  have hsize₂ : cache₂.spec = D.specs l := congrArg CacheLayout.spec hlayout₂
  rw [mixedAttentionRead_eq cache₂ b₂ i₂ (hsize₂ ▸ hvisit),
    mixedCacheWrite_eq cache₁ hb₁ htok hslot (hsize₁ ▸ hpage), hsame]
  unfold rowTarget
  rw [hslots, hlayout₁, hlayout₂, htest]

/-- A step of one sequence: `queryLen` new tokens, `seqLen` with them. -/
def Batch.single (row : Nat) (seqLen queryLen : Int) : Batch where
  numSeqs := 1
  seqLens _ := seqLen
  queryStartLoc i := if i = 0 then 0 else queryLen
  seqToRequestRow _ := row
  slotMapping _ := 0

theorem Batch.single_wellFormed (row : Nat) (seqLen : Int) {queryLen : Int} (h : 0 ≤ queryLen) :
    (Batch.single row seqLen queryLen).WellFormed := by
  intro i j hij hj
  unfold Batch.single
  dsimp only
  split <;> split <;> omega

/-- Blocks of four tokens. -/
def fourTokens : Deployment Nat :=
  .ofEqualLayers 1 ⟨4, 50, true, 2, 4⟩ (fun _ => true) 4

/-- A request with three tokens. -/
def threeTokens : List (Segment Nat) :=
  [⟨[.recordBlockIds 0 3 [0] []], ownRows 2⟩]

/-- It gets a fourth token, and another request comes with two pages. -/
def fourthToken : List (Segment Nat) :=
  [⟨[.recordBlockIds 0 4 [0] [], .recordBlockIds 1 8 [1, 2] []], ownRows 2⟩]

theorem read_your_writes_fourthToken :
    ∃ s₁ s₂ cache₁ cache₂, fourTokens.run threeTokens = .ok s₁ ∧
      fourthToken.foldlM System.step s₁ = .ok s₂ ∧ s₁.runtime.caches.get? 0 = some cache₁ ∧
      s₂.runtime.caches.get? 0 = some cache₂ ∧
      mixedCacheWrite cache₁ (.single 0 3 3) 2 = some ⟨true, 0⟩ ∧
      mixedAttentionRead cache₂ (.single 0 4 1) 0 0 4 =
        mixedCacheWrite cache₁ (.single 0 3 3) 2 := by
  obtain ⟨s₁, s₂, hrun₁, hrun₂, hp⟩ := exists_ok_of_any₂ (x := fourTokens.run threeTokens)
    (y := fun s => fourthToken.foldlM System.step s)
    (p := fun s₁ s₂ =>
      (trace System.step s₁ fourthToken).all (fun x => decide (StableRows x.1 x.2)) &&
      decide (∀ x ∈ s₁.moments fourthToken, x.2.requestId = 0 → x.1.policy.queuedBy x.2 = []) &&
      decide (Tracked s₁.ledger 0 ∧ s₁.rows.get? 0 = some 0 ∧ s₁.lengths.get? 0 = some 3 ∧
        ∃ cache₁ ∈ s₁.runtime.caches.get? 0,
          mixedCacheWrite cache₁ (.single 0 3 3) 2 = some ⟨true, 0⟩) &&
      decide (s₂.rows.get? 0 = some 0 ∧ s₂.lengths.get? 0 = some 4 ∧
        (s₂.runtime.caches.get? 0).isSome)) (by decide +kernel)
  simp only [Bool.and_eq_true, List.all_eq_true, decide_eq_true_eq] at hp
  obtain ⟨⟨⟨hrows, hquiet⟩, hq, hrow₁, hlen₁, cache₁, hc₁, hwrite⟩, hrow₂, hlen₂, hc₂⟩ := hp
  obtain ⟨cache₂, hc₂⟩ := Option.isSome_iff_exists.mp hc₂
  have hserves₁ : (Batch.single 0 3 3).Serves s₁ 0 0 := ⟨by decide, hrow₁, hlen₁⟩
  have hserves₂ : (Batch.single 0 4 1).Serves s₂ 0 0 := ⟨by decide, hrow₂, hlen₂⟩
  have htok : (Batch.single 0 3 3).Owns 0 (2 : Nat) := ⟨by decide, by decide, by decide⟩
  refine ⟨s₁, s₂, cache₁, cache₂, hrun₁, hrun₂, hc₁, hc₂, hwrite, ?_⟩
  exact read_your_writes fourTokens threeTokens fourthToken hrun₁ hrun₂ hrows 0 hq (by decide)
    hquiet hc₁ hc₂ (Batch.single_wellFormed 0 3 (by decide)) hserves₁ hserves₂ htok (by decide)
    (by decide) (by decide) (by decide +kernel)

/-- A request of one page. -/
def firstPage : List (Segment Nat) := [⟨[allocate 0 [(0, false)]], ownRows 1⟩]

/-- It grows by a page. -/
def secondPage : List (Segment Nat) :=
  [⟨[allocate 0 [(0, false), (1, false)]], ownRows 1⟩]

/-- The event of the second page clears the row: page 0 was written to raw slot 0, and the next
    step reads it from nowhere. -/
theorem read_your_writes_fails :
    ∃ s₁ s₂ cache₁ cache₂, halfRaw.run firstPage = .ok s₁ ∧
      secondPage.foldlM System.step s₁ = .ok s₂ ∧
      (∀ x ∈ trace System.step s₁ secondPage, StableRows x.1 x.2) ∧ Tracked s₁.ledger 0 ∧
      (∀ seg ∈ secondPage, .forgetRequest 0 ∉ seg.calls) ∧
      s₁.runtime.caches.get? 0 = some cache₁ ∧ s₂.runtime.caches.get? 0 = some cache₂ ∧
      (Batch.single 0 1 1).Serves s₁ 0 0 ∧ (Batch.single 0 2 1).Serves s₂ 0 0 ∧
      mixedCacheWrite cache₁ (.single 0 1 1) 0 = some ⟨true, 0⟩ ∧
      mixedAttentionRead cache₂ (.single 0 2 1) 0 0 2 = none := by
  obtain ⟨s₁, s₂, hrun₁, hrun₂, hp⟩ := exists_ok_of_any₂ (x := halfRaw.run firstPage)
    (y := fun s => secondPage.foldlM System.step s)
    (p := fun s₁ s₂ =>
      (trace System.step s₁ secondPage).all (fun x => decide (StableRows x.1 x.2)) &&
      decide (Tracked s₁.ledger 0 ∧ s₁.rows.get? 0 = some 0 ∧ s₁.lengths.get? 0 = some 1 ∧
        ∃ cache₁ ∈ s₁.runtime.caches.get? 0,
          mixedCacheWrite cache₁ (.single 0 1 1) 0 = some ⟨true, 0⟩) &&
      decide (s₂.rows.get? 0 = some 0 ∧ s₂.lengths.get? 0 = some 2 ∧
        ∃ cache₂ ∈ s₂.runtime.caches.get? 0,
          mixedAttentionRead cache₂ (.single 0 2 1) 0 0 2 = none)) (by decide +kernel)
  simp only [Bool.and_eq_true, List.all_eq_true, decide_eq_true_eq] at hp
  obtain ⟨⟨hrows, hq, hrow₁, hlen₁, cache₁, hc₁, hwrite⟩, hrow₂, hlen₂, cache₂, hc₂, hread⟩ := hp
  exact ⟨s₁, s₂, cache₁, cache₂, hrun₁, hrun₂, hrows, hq, by decide, hc₁, hc₂,
    ⟨by decide, hrow₁, hlen₁⟩, ⟨by decide, hrow₂, hlen₂⟩, hwrite, hread⟩

end Sock.Tmh
