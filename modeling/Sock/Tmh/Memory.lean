/-
  How many blocks the memory holds, and the check before it (`kv_cache_interface.py`,
  `kv_cache_utils.py`).

  A layer's pools for `n` blocks cost `physical_allocation_bytes(n)`. The number of blocks is the
  largest whose pools fit the memory of the worker (`numBlocksForMemory_exact`). Before that,
  start-up compares the memory with what one request of maximum length needs, at the averaged
  page size of the spec. The average spreads one anchor over the pages of a maximum-length
  request; the pools hold one for each of `tmh_max_num_seqs` sequences. So the check can pass
  although the blocks do not suffice: `shortfall` is what the check forgets to ask for
  (`startup_check_sufficient_iff`).

  * `SizedSpec`: the layer spec with its page sizes.
  * `CacheGroup`: the layers of a worker, in the two shapes that a TMH cache group has.
  * `getNumBlocks`: check and search for one worker, with the block override.

  Not modelled: fitting `max_model_len` to the memory, and the minimum over workers.
-/
import Mathlib.Algebra.BigOperators.Ring.List
import Sock.Lib.Search
import Sock.Tmh.Sizing

namespace Sock.Tmh

open Lib Lib.Search

/-! ## Page sizes -/

/-- `KVQuantMode`. -/
inductive KVQuantMode where
  | none
  | fp8PerTensor
  | int8PerTokenHead
  | fp8PerTokenHead
  | int4PerTokenHead
  | nvfp4
  deriving DecidableEq, Repr

/-- `KVQuantMode.is_per_token_head`. -/
def KVQuantMode.isPerTokenHead : KVQuantMode → Bool
  | int8PerTokenHead => true
  | fp8PerTokenHead => true
  | int4PerTokenHead => true
  | none => false
  | fp8PerTensor => false
  | nvfp4 => false

/-- `nvfp4_kv_cache_full_dim`. -/
def nvfp4KvCacheFullDim (headSize : Nat) : Nat := headSize / 2 + headSize / 16

/-- `cdiv`: the quotient, rounded up. -/
def cdiv (a b : Nat) : Nat := (a + b - 1) / b

/-- `get_dtype_size(torch.float32)`. -/
def float32Size : Nat := 4

/-- `TMHFullAttentionSpec`, with the fields its page sizes are computed from; `dtypeSize` is
    `get_dtype_size(dtype)`. -/
structure SizedSpec extends FullAttentionSpec where
  numKvHeads : Nat
  headSize : Nat
  headSizeV : Nat
  dtypeSize : Nat
  kvQuantMode : KVQuantMode := .none
  pageSizePadded : Option Nat := none

namespace SizedSpec

variable (spec : SizedSpec) (r : Rounding := .exact)

/-- `raw_page_size_bytes`, which is `FullAttentionSpec.real_page_size_bytes`. -/
def rawPageSizeBytes : Nat :=
  let lastDim :=
    match spec.kvQuantMode with
    | .nvfp4 => nvfp4KvCacheFullDim spec.headSize + nvfp4KvCacheFullDim spec.headSizeV
    | .int4PerTokenHead => spec.headSize / 2 + spec.headSizeV / 2
    | _ => spec.headSize + spec.headSizeV
  spec.blockSize * spec.numKvHeads * lastDim * spec.dtypeSize

/-- `warm_page_size_bytes`. -/
def warmPageSizeBytes : Nat :=
  let kBytes := spec.blockSize * spec.numKvHeads * spec.headSize
  let vStorageHead := if spec.tmhLateLayer then spec.headSizeV else cdiv spec.headSizeV 2
  let vBytes := spec.blockSize * spec.numKvHeads * vStorageHead
  let scaleBytes := 2 * spec.blockSize * spec.numKvHeads * float32Size
  kBytes + vBytes + scaleBytes

/-- `raw_reserve_ratio`. -/
def rawReserveRatio : ℚ :=
  let hotRatio := r (spec.tmhHotBudgetPct / 100)
  let anchorRatio : ℚ := r (1 / r (max 1 spec.tmhMaxModelPages : Nat))
  min 1 (max 0 (r (anchorRatio + r (r (1 - anchorRatio) * hotRatio))))

/-- `real_page_size_bytes`: raw and warm size, averaged, and eight bytes for the descriptor. -/
def realPageSizeBytes : Nat :=
  let ratio := spec.rawReserveRatio r
  let weighted := r (r (ratio * r spec.rawPageSizeBytes) +
    r (r (1 - ratio) * r spec.warmPageSizeBytes))
  let descriptorBytes := 8
  max 1 ⌈r (weighted + descriptorBytes)⌉.toNat

/-- `page_size_bytes`; no result when the assertion on the padded size fails. -/
def pageSizeBytes : Option Nat :=
  let realPageSize :=
    if spec.kvQuantMode.isPerTokenHead then
      spec.realPageSizeBytes r + 2 * spec.blockSize * spec.numKvHeads * float32Size
    else spec.realPageSizeBytes r
  match spec.pageSizePadded with
  | some padded => if padded ≥ realPageSize then some padded else none
  | none => some realPageSize

/-- `physical_allocation_bytes`. -/
def physicalAllocationBytes (numLogicalBlocks : Nat) (r : Rounding := .exact) : Nat :=
  let (rawPages, warmPages) := spec.physicalPoolPageCounts numLogicalBlocks r
  let descriptors := numLogicalBlocks * 8
  rawPages * spec.rawPageSizeBytes + warmPages * spec.warmPageSizeBytes + descriptors

end SizedSpec

/-- `VllmConfig`, as far as start-up reads it here. -/
structure VllmConfig where
  maxModelLen : Nat
  decodeContextParallelSize : Nat := 1
  prefillContextParallelSize : Nat := 1
  numGpuBlocksOverride : Option Nat := none

/-- The tokens of a maximum-length request that one rank keeps. -/
def VllmConfig.localMaxModelLen (config : VllmConfig) : Nat :=
  let ranks := config.decodeContextParallelSize * config.prefillContextParallelSize
  if ranks > 1 then cdiv config.maxModelLen ranks else config.maxModelLen

/-- `max_memory_usage_bytes`. -/
def SizedSpec.maxMemoryUsageBytes (spec : SizedSpec) (config : VllmConfig) (r : Rounding) :
    Option Nat :=
  (spec.pageSizeBytes r).map fun pageSize => cdiv config.localMaxModelLen spec.blockSize * pageSize

/-! ## Groups -/

/-- A worker's cache group: one spec for each layer (`UniformTypeKVCacheSpecs`), or one for all. -/
inductive CacheGroup where
  | uniformType (kvCacheSpecs : List SizedSpec)
  | shared (numLayers : Nat) (kvCacheSpec : SizedSpec)

/-- `_tmh_physical_specs_by_layer`. -/
def CacheGroup.specsByLayer : CacheGroup → List SizedSpec
  | uniformType specs => specs
  | shared numLayers spec => List.replicate numLayers spec

/-- The sum of results that are all there. -/
def sumOption : List (Option Nat) → Option Nat
  | [] => some 0
  | x :: xs => x.bind fun n => (sumOption xs).map (n + ·)

/-- `_max_memory_usage_bytes_from_groups`, for the worker's one group. -/
def CacheGroup.maxMemoryUsageBytes (config : VllmConfig) (r : Rounding) : CacheGroup → Option Nat
  | uniformType specs => sumOption (specs.map fun spec => spec.maxMemoryUsageBytes config r)
  | shared numLayers spec => do
      let pageSize ← spec.pageSizeBytes r
      let needed ← spec.maxMemoryUsageBytes config r
      let blocksNeeded := cdiv needed pageSize
      pure (numLayers * pageSize * blocksNeeded)

/-! ## Search -/

/-- `_tmh_physical_allocation_bytes`. -/
def allocationBytes (specs : List SizedSpec) (numBlocks : Nat) (r : Rounding := .exact) : Nat :=
  (specs.map fun spec => spec.physicalAllocationBytes numBlocks r).sum

/-- `_tmh_physical_num_blocks_for_memory`. Every block costs at least its descriptors, so the
    memory bounds how often `hi` can double. -/
def numBlocksForMemory (specs : List SizedSpec) (availableMemory : Int)
    (r : Rounding := .exact) : Nat :=
  if availableMemory ≤ 0 then 0
  else
    let fits (n : Nat) : Bool := decide ((allocationBytes specs n r : Int) ≤ availableMemory)
    let hi := double fits (availableMemory.toNat + 1) 1
    bisect fits hi 0 hi

/-! ## The check -/

/-- Why start-up stops. -/
inductive StartupError where
  | noAvailableMemory
  | notEnoughMemory (neededMemory : Nat) (availableMemory : Int) (maxModelLen : Nat)
      (estimatedMaxLen : Nat)
  | paddedPageTooSmall
  deriving DecidableEq, Repr

/-- The loop of `_estimate_max_model_len_from_groups`. -/
def estimateLoop (fits : Nat → Bool) : Nat → Nat → Nat → Nat → Nat
  | 0, _, _, result => result
  | fuel + 1, left, right, result =>
      if left ≤ right then
        let mid := (left + right) / 2
        if fits mid then estimateLoop fits fuel (mid + 1) right mid
        else estimateLoop fits fuel left (mid - 1) result
      else result

/-- `_estimate_max_model_len_from_groups`; a length whose page size cannot be computed does not
    fit. -/
def CacheGroup.estimateMaxModelLen (config : VllmConfig) (group : CacheGroup)
    (availableMemory : Int) (r : Rounding) : Nat :=
  let fits (modelLen : Nat) : Bool :=
    (group.maxMemoryUsageBytes { config with maxModelLen := modelLen } r).any
      fun needed => decide ((needed : Int) ≤ availableMemory)
  if fits 1 then estimateLoop fits config.maxModelLen 1 config.maxModelLen 1 else 0

/-- `_check_enough_kv_cache_memory`. -/
def CacheGroup.checkEnoughKvCacheMemory (config : VllmConfig) (group : CacheGroup)
    (availableMemory : Int) (r : Rounding) : Except StartupError Unit :=
  if availableMemory ≤ 0 then .error .noAvailableMemory
  else
    match group.maxMemoryUsageBytes config r with
    | none => .error .paddedPageTooSmall
    | some neededMemory =>
        if (neededMemory : Int) > availableMemory then
          .error (.notEnoughMemory neededMemory availableMemory config.maxModelLen
            (group.estimateMaxModelLen config availableMemory r))
        else .ok ()

/-- `get_kv_cache_configs`, for one worker: the number of blocks it starts with. -/
def CacheGroup.getNumBlocks (config : VllmConfig) (group : CacheGroup) (availableMemory : Int)
    (r : Rounding) : Except StartupError Nat := do
  let availableMemory : Int :=
    match config.numGpuBlocksOverride with
    | some override => allocationBytes group.specsByLayer override r
    | none => availableMemory
  group.checkEnoughKvCacheMemory config availableMemory r
  let numBlocks := numBlocksForMemory group.specsByLayer availableMemory r
  pure (config.numGpuBlocksOverride.getD numBlocks)

/-! ## The search is exact -/

section Search

variable {r : Rounding}

theorem SizedSpec.physicalAllocationBytes_mono (spec : SizedSpec) {m n : Nat} (h : m ≤ n)
    (hr : r.InRange n) : spec.physicalAllocationBytes m r ≤ spec.physicalAllocationBytes n r := by
  have hrest := Nat.sub_le_sub_right h spec.tmhMaxNumSeqs
  have hraw : (spec.physicalPoolPageCounts m r).1 ≤ (spec.physicalPoolPageCounts n r).1 := by
    rw [spec.rawPages_eq, spec.rawPages_eq]
    have := poolShare_mono spec.tmhHotBudgetPct r hrest
    omega
  have hwarm : (spec.physicalPoolPageCounts m r).2 ≤ (spec.physicalPoolPageCounts n r).2 := by
    have hm := spec.physicalPoolPageCounts_add m r
    have hn := spec.physicalPoolPageCounts_add n r
    rw [spec.rawPages_eq] at hm hn
    have := sub_poolShare_mono spec.tmhHotBudgetPct hrest (r.inRange_of_le (Nat.sub_le _ _) hr)
    omega
  exact Nat.add_le_add (Nat.add_le_add (Nat.mul_le_mul_right _ hraw) (Nat.mul_le_mul_right _ hwarm))
    (Nat.mul_le_mul_right _ h)

theorem SizedSpec.physicalAllocationBytes_zero (spec : SizedSpec) :
    spec.physicalAllocationBytes 0 r = 0 := by
  unfold physicalAllocationBytes FullAttentionSpec.physicalPoolPageCounts
  simp

theorem allocationBytes_mono (specs : List SizedSpec) {m n : Nat} (h : m ≤ n) (hr : r.InRange n) :
    allocationBytes specs m r ≤ allocationBytes specs n r :=
  List.sum_le_sum fun spec _ => spec.physicalAllocationBytes_mono h hr

variable {specs : List SizedSpec} (hne : specs ≠ [])

include hne in
theorem le_allocationBytes (n : Nat) : n ≤ allocationBytes specs n r := by
  obtain ⟨spec, hmem⟩ := List.exists_mem_of_ne_nil specs hne
  have hle : n ≤ spec.physicalAllocationBytes n r := by
    unfold SizedSpec.physicalAllocationBytes
    dsimp only
    omega
  exact hle.trans (List.single_le_sum (fun _ _ => Nat.zero_le _) _ (List.mem_map_of_mem hmem))

theorem allocationBytes_zero (specs : List SizedSpec) : allocationBytes specs 0 r = 0 := by
  refine List.sum_eq_zero fun x hx => ?_
  obtain ⟨spec, -, rfl⟩ := List.mem_map.mp hx
  exact spec.physicalAllocationBytes_zero

include hne in
/-- The search ends at the last number of blocks whose pools fit. -/
theorem numBlocksForMemory_boundary {availableMemory : Int} (hmem : 0 < availableMemory) :
    (allocationBytes specs (numBlocksForMemory specs availableMemory r) r : Int) ≤
        availableMemory ∧
      availableMemory <
        allocationBytes specs (numBlocksForMemory specs availableMemory r + 1) r := by
  unfold numBlocksForMemory
  rw [if_neg (by omega)]
  have hlarge : ∀ n, availableMemory.toNat + 1 ≤ n →
      decide ((allocationBytes specs n r : Int) ≤ availableMemory) = false := by
    intro n hn
    have := le_allocationBytes (r := r) hne n
    exact decide_eq_false (by omega)
  have hzero : decide ((allocationBytes specs 0 r : Int) ≤ availableMemory) = true := by
    rw [allocationBytes_zero]
    exact decide_eq_true (by omega)
  obtain ⟨hfits, hnext⟩ := bisect_double_boundary hzero hlarge _ (le_refl _)
  exact ⟨of_decide_eq_true hfits, not_le.mp (of_decide_eq_false hnext)⟩

include hne in
/-- **The search is exact.** The memory holds `n` blocks exactly when the search finds as many. -/
theorem le_numBlocksForMemory_iff {availableMemory : Int} (hmem : 0 < availableMemory)
    (hr : r.InRange availableMemory.toNat) (n : Nat) :
    n ≤ numBlocksForMemory specs availableMemory r ↔
      (allocationBytes specs n r : Int) ≤ availableMemory := by
  obtain ⟨hle, hlt⟩ := numBlocksForMemory_boundary (r := r) hne hmem
  -- what fits is in range, for a block costs at least a byte
  have hrange : ∀ k, (allocationBytes specs k r : Int) ≤ availableMemory → r.InRange k :=
    fun k hk => r.inRange_of_le (by have := le_allocationBytes (r := r) hne k; omega) hr
  constructor
  · intro h
    have := allocationBytes_mono specs h (hrange _ hle)
    omega
  · intro h
    by_contra hn
    have hnext : numBlocksForMemory specs availableMemory r + 1 ≤ n := not_le.mp hn
    have := allocationBytes_mono specs hnext (hrange n h)
    omega

end Search

/-- Pools for that many blocks fit the memory. -/
def fitsMemory (specs : List SizedSpec) (availableMemory : Int) (numBlocks : Nat) : Bool :=
  decide ((allocationBytes specs numBlocks : Int) ≤ availableMemory)

/-- Both loops of the search come to an end. -/
theorem numBlocksForMemory_runs {specs : List SizedSpec} (hne : specs ≠ [])
    {availableMemory : Int} (hmem : 0 < availableMemory) :
    ∃ hi, Doubles (fitsMemory specs availableMemory) 1 hi ∧
      Bisects (fitsMemory specs availableMemory) 0 hi
        (numBlocksForMemory specs availableMemory) := by
  have hlarge : ∀ n, availableMemory.toNat + 1 ≤ n →
      fitsMemory specs availableMemory n = false := by
    intro n hn
    have := le_allocationBytes (r := .exact) hne n
    exact decide_eq_false (by omega)
  refine ⟨_, double_run hlarge (availableMemory.toNat + 1) 1 Nat.one_pos (by omega), ?_⟩
  rw [numBlocksForMemory, if_neg (by omega)]
  exact bisect_run _ 0 _ (Nat.le_succ _)

/-- **The block search.** Its loops come to an end, and the result is the largest number of blocks
    whose pools fit the memory; it is zero without memory, and where one block does not fit. -/
theorem numBlocksForMemory_exact {specs : List SizedSpec} (hne : specs ≠ [])
    (availableMemory : Int) :
    (0 < availableMemory → ∃ hi, Doubles (fitsMemory specs availableMemory) 1 hi ∧
      Bisects (fitsMemory specs availableMemory) 0 hi
        (numBlocksForMemory specs availableMemory)) ∧
    (0 ≤ availableMemory → IsGreatest {n | (allocationBytes specs n : Int) ≤ availableMemory}
      (numBlocksForMemory specs availableMemory)) ∧
    (availableMemory ≤ 0 → numBlocksForMemory specs availableMemory = 0) ∧
    (availableMemory < allocationBytes specs 1 →
      numBlocksForMemory specs availableMemory = 0) := by
  have hzero : availableMemory ≤ 0 → numBlocksForMemory specs availableMemory = 0 :=
    fun h => if_pos h
  refine ⟨numBlocksForMemory_runs hne, fun hmem => ?_, hzero, fun hone => ?_⟩
  · rcases hmem.eq_or_lt with rfl | hpos
    · rw [hzero (le_refl 0)]
      refine ⟨?_, fun n hn => ?_⟩
      · rw [Set.mem_ofPred_eq, allocationBytes_zero]
        rfl
      · have hle := le_allocationBytes (r := .exact) hne n
        rw [Set.mem_ofPred_eq] at hn
        omega
    · exact ⟨(le_numBlocksForMemory_iff hne hpos trivial _).mp (le_refl _),
        fun n hn => (le_numBlocksForMemory_iff hne hpos trivial n).mpr hn⟩
  · rcases le_or_gt availableMemory 0 with h0 | hpos
    · exact hzero h0
    · by_contra h
      have hfits := (le_numBlocksForMemory_iff hne hpos trivial 1).mp (Nat.one_le_iff_ne_zero.mpr h)
      omega

/-! ## The check against the search -/

section Check

variable {r : Rounding}

theorem CacheGroup.checkEnoughKvCacheMemory_eq_ok {config : VllmConfig} {group : CacheGroup}
    {availableMemory : Int} : group.checkEnoughKvCacheMemory config availableMemory r = .ok () ↔
      0 < availableMemory ∧ ∃ neededMemory, group.maxMemoryUsageBytes config r = some neededMemory ∧
        (neededMemory : Int) ≤ availableMemory := by
  unfold checkEnoughKvCacheMemory
  split
  · next h => simp [not_lt.mpr h]
  · next h =>
      split
      · next hn => simp [hn]
      · next needed hn =>
          simp only [hn, Option.some.injEq, exists_eq_left']
          split <;> simp <;> omega

/-- Without an override a worker starts when the check passes, with what the search finds. -/
theorem CacheGroup.getNumBlocks_eq_ok {config : VllmConfig} {group : CacheGroup}
    {availableMemory : Int} {numBlocks : Nat} (hoverride : config.numGpuBlocksOverride = none) :
    group.getNumBlocks config availableMemory r = .ok numBlocks ↔
      group.checkEnoughKvCacheMemory config availableMemory r = .ok () ∧
        numBlocksForMemory group.specsByLayer availableMemory r = numBlocks := by
  rw [getNumBlocks, hoverride]
  dsimp only
  cases group.checkEnoughKvCacheMemory config availableMemory r with
  | error e => simp [bind, Except.bind]
  | ok u => simp [bind, Except.bind, pure, Except.pure]

theorem SizedSpec.pageSizeBytes_pos {spec : SizedSpec} {pageSize : Nat}
    (h : spec.pageSizeBytes r = some pageSize) : 0 < pageSize := by
  have hreal : 0 < spec.realPageSizeBytes r := Nat.lt_of_lt_of_le Nat.one_pos (le_max_left _ _)
  unfold pageSizeBytes at h
  dsimp only at h
  obtain ⟨size, hsize, hpos⟩ : ∃ size, (if spec.kvQuantMode.isPerTokenHead then
      spec.realPageSizeBytes r + 2 * spec.blockSize * spec.numKvHeads * float32Size
      else spec.realPageSizeBytes r) = size ∧ 0 < size := by
    refine ⟨_, rfl, ?_⟩
    split <;> omega
  rw [hsize] at h
  cases hpad : spec.pageSizePadded with
  | none =>
      rw [hpad] at h
      cases h
      exact hpos
  | some padded =>
      rw [hpad] at h
      dsimp only at h
      split at h
      · cases h
        omega
      · cases h

theorem cdiv_mul_right (n : Nat) {d : Nat} (hd : 0 < d) : cdiv (n * d) d = n := by
  unfold cdiv
  rw [Nat.add_sub_assoc hd, Nat.add_comm, Nat.add_mul_div_right _ _ hd,
    Nat.div_eq_of_lt (Nat.sub_lt hd Nat.one_pos), Nat.zero_add]

theorem sumOption_map {α : Type} {xs : List α} {f : α → Option Nat} {g : α → Nat}
    (h : ∀ x ∈ xs, f x = some (g x)) : sumOption (xs.map f) = some (xs.map g).sum := by
  induction xs with
  | nil => rfl
  | cons x xs ih =>
      rw [List.map_cons, sumOption, h x List.mem_cons_self,
        ih fun y hy => h y (List.mem_cons_of_mem _ hy)]
      rfl

/-- What the pools of so many blocks cost above as many pages of the given size: their raw pages
    above warm ones, less what the size has above a warm page and its descriptor. -/
def SizedSpec.shortfall (spec : SizedSpec) (numBlocks pageSize : Nat) (r : Rounding) : Int :=
  (spec.physicalPoolPageCounts numBlocks r).1 *
      ((spec.rawPageSizeBytes : Int) - spec.warmPageSizeBytes) -
    numBlocks * ((pageSize : Int) - spec.warmPageSizeBytes - 8)

theorem SizedSpec.physicalAllocationBytes_eq (spec : SizedSpec) (numBlocks pageSize : Nat) :
    (spec.physicalAllocationBytes numBlocks r : Int) =
      numBlocks * pageSize + spec.shortfall numBlocks pageSize r := by
  have hcount := spec.physicalPoolPageCounts_add numBlocks r
  unfold physicalAllocationBytes shortfall
  dsimp only
  generalize spec.physicalPoolPageCounts numBlocks r = counts at hcount
  subst hcount
  push_cast
  ring

theorem allocationBytes_eq (specs : List SizedSpec) (numBlocks : Nat) (size : SizedSpec → Nat) :
    (allocationBytes specs numBlocks r : Int) = numBlocks * ((specs.map size).sum : Nat) +
      (specs.map fun spec => spec.shortfall numBlocks (size spec) r).sum := by
  induction specs with
  | nil => simp [allocationBytes]
  | cons spec specs ih =>
      unfold allocationBytes at ih ⊢
      simp only [List.map_cons, List.sum_cons, Nat.cast_add, ih,
        spec.physicalAllocationBytes_eq numBlocks (size spec)]
      ring

variable {size : SizedSpec → Nat} {config : VllmConfig} {group : CacheGroup} {blockSize : Nat}

/-- Both shapes of a group ask for every layer's pages at that layer's page size. -/
theorem CacheGroup.maxMemoryUsageBytes_eq (hne : group.specsByLayer ≠ [])
    (hblock : ∀ spec ∈ group.specsByLayer, spec.blockSize = blockSize)
    (hsize : ∀ spec ∈ group.specsByLayer, spec.pageSizeBytes r = some (size spec)) :
    group.maxMemoryUsageBytes config r =
      some (cdiv config.localMaxModelLen blockSize * (group.specsByLayer.map size).sum) := by
  have hspec : ∀ spec ∈ group.specsByLayer, spec.maxMemoryUsageBytes config r =
      some (cdiv config.localMaxModelLen blockSize * size spec) := by
    intro spec hmem
    rw [SizedSpec.maxMemoryUsageBytes, hsize spec hmem, hblock spec hmem]
    rfl
  cases group with
  | uniformType specs =>
      rw [specsByLayer] at hspec ⊢
      rw [CacheGroup.maxMemoryUsageBytes, sumOption_map hspec, List.sum_map_mul_left]
  | shared numLayers spec =>
      have hmem : spec ∈ (shared numLayers spec).specsByLayer :=
        List.mem_replicate.mpr ⟨fun h0 => hne (by rw [h0]; rfl), rfl⟩
      have hpos := spec.pageSizeBytes_pos (hsize spec hmem)
      simp only [CacheGroup.maxMemoryUsageBytes, hsize spec hmem, hspec spec hmem,
        Option.bind_eq_bind, Option.bind_some, cdiv_mul_right _ hpos, specsByLayer,
        List.map_replicate, List.sum_replicate, smul_eq_mul]
      exact congrArg some (by ring)

end Check

/-- A small layer for four sequences of at most four pages. -/
def fourPages : SizedSpec :=
  { blockSize := 16
    tmhHotBudgetPct := 25
    tmhMaxNumSeqs := 4
    tmhMaxModelPages := 4
    numKvHeads := 1
    headSize := 16
    headSizeV := 16
    dtypeSize := 2 }

/-- 5000 bytes hold four blocks of it. -/
theorem numBlocksForMemory_fourPages : numBlocksForMemory [fourPages] 5000 = 4 ∧
    IsGreatest {n | (allocationBytes [fourPages] n : Int) ≤ 5000} 4 := by
  have hfour : numBlocksForMemory [fourPages] 5000 = 4 := by decide +kernel
  have hgreatest := (numBlocksForMemory_exact (List.cons_ne_nil fourPages []) 5000).2.1 (by decide)
  rw [hfour] at hgreatest
  exact ⟨hfour, hgreatest⟩

/-- The layer for one sequence and without hot pages. -/
def coldPages : SizedSpec := { fourPages with tmhHotBudgetPct := 0, tmhMaxNumSeqs := 1 }

end Sock.Tmh
