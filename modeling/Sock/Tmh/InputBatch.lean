/-
  The worker's persistent batch (`gpu_input_batch.py`, `logits_processor/state.py`,
  `attention/backends/utils.py`).

  A request keeps its index in the batch from step to step. A removed request leaves a gap; added
  requests fill the gaps from the lowest index on; `condense` moves the last requests into the
  gaps that are left; an attention backend may then swap requests, so that decodes come first.

  * `InputBatch.Inv`: index map and request list agree, and `removed` lists the gaps.
  * `Inv.removeRequest`, `Inv.addRequest`: kept, and no other request moves.
  * `Inv.condense`: a request at an index below the number of requests stays there.
  * `Inv.reorder`: a request at an index of its own region stays there.

  Not modelled: what else the batch keeps for each index (tokens, block table, sampling
  parameters); it moves with the request.
-/
import Mathlib.Data.List.Perm.Subperm
import Mathlib.Data.List.Sort
import Sock.Lib.Dict
import Sock.Lib.Fallible

namespace Sock.Tmh

open Lib Lib.Dict

variable {Req : Type} [DecidableEq Req]

/-- `InputBatch`: the requests by index (a gap is `none`), their indices, and the indices in
    `batch_update_builder`'s list of removed requests. -/
structure InputBatch (Req : Type) where
  reqIds : List (Option Req) := []
  reqIdToIndex : Dict Req Nat := .empty
  removed : List Nat := []

/-- What a change of the batch can raise. -/
inductive BatchError (Req : Type) where
  | batchFull (index maxNumReqs : Nat)
  | emptyRow (index : Nat)
  | unknownRequest (requestId : Req)
  | resumedInBatch (requestId : Req)
  deriving DecidableEq

namespace InputBatch

/-- `num_reqs`. -/
def numReqs (b : InputBatch Req) : Nat := b.reqIdToIndex.length

/-- `remove_request`. -/
def removeRequest (b : InputBatch Req) (reqId : Req) : InputBatch Req :=
  match b.reqIdToIndex.get? reqId with
  | none => b
  | some reqIndex =>
      { reqIds := b.reqIds.set reqIndex none
        reqIdToIndex := b.reqIdToIndex.erase reqId
        removed := b.removed ++ [reqIndex] }

/-- `_register_add_request`: the lowest removed index (`pop_removed`), or the end. -/
def registerAddRequest (b : InputBatch Req) : Nat × List Nat :=
  match b.removed.min? with
  | some index => (index, b.removed.erase index)
  | none => (b.numReqs, b.removed)

/-- `add_request`. -/
def addRequest (maxNumReqs : Nat) (b : InputBatch Req) (reqId : Req) :
    Except (BatchError Req) (InputBatch Req) :=
  let (reqIndex, removed) := b.registerAddRequest
  if reqIndex < maxNumReqs then
    .ok { reqIds :=
            if reqIndex = b.reqIds.length then b.reqIds ++ [some reqId]
            else b.reqIds.set reqIndex (some reqId)
          reqIdToIndex := b.reqIdToIndex.set reqId reqIndex
          removed }
  else .error (.batchFull reqIndex maxNumReqs)

/-- The inner loop of `condense`: the largest index at most `last` that is not removed. -/
def lastOccupied (removed : List Nat) : Nat → Nat
  | 0 => 0
  | last + 1 => if last + 1 ∈ removed then lastOccupied removed last else last + 1

/-- The outer loop of `condense`; every round takes one index from `removed`. -/
def condenseLoop : Nat → InputBatch Req → Nat → Except (BatchError Req) (InputBatch Req)
  | 0, b, _ => .ok b
  | fuel + 1, b, lastReqIndex =>
      match b.removed.min? with
      | none => .ok b
      | some emptyIndex =>
          let lastReqIndex := lastOccupied b.removed lastReqIndex
          if emptyIndex ≥ lastReqIndex then .ok b
          else
            match b.reqIds[lastReqIndex]? with
            | some (some reqId) =>
                condenseLoop fuel
                  { reqIds := (b.reqIds.set emptyIndex (some reqId)).set lastReqIndex none
                    reqIdToIndex := b.reqIdToIndex.set reqId emptyIndex
                    removed := b.removed.erase emptyIndex }
                  (lastReqIndex - 1)
            | _ => .error (.emptyRow lastReqIndex)

/-- `condense`. -/
def condense (b : InputBatch Req) : Except (BatchError Req) (InputBatch Req) :=
  if b.removed = [] then .ok b
  else if b.numReqs = 0 then .ok { b with reqIds := [] }
  else (condenseLoop b.removed.length b (b.numReqs + b.removed.length - 1)).map fun b' =>
    { b' with reqIds := b'.reqIds.take b.numReqs }

/-- `swap_states`. -/
def swapStates (b : InputBatch Req) (i₁ i₂ : Nat) : Except (BatchError Req) (InputBatch Req) :=
  match b.reqIds[i₁]?, b.reqIds[i₂]? with
  | some (some id₁), some (some id₂) =>
      match b.reqIdToIndex.get? id₁, b.reqIdToIndex.get? id₂ with
      | some index₁, some index₂ =>
          .ok { b with
            reqIds := (b.reqIds.set i₁ (some id₂)).set i₂ (some id₁)
            reqIdToIndex := (b.reqIdToIndex.set id₁ index₂).set id₂ index₁ }
      | none, _ => .error (.unknownRequest id₁)
      | some _, none => .error (.unknownRequest id₂)
  | some (some _), _ => .error (.emptyRow i₂)
  | _, _ => .error (.emptyRow i₁)

/-- `refresh_metadata`, as far as it resets the list of removed requests. -/
def refreshMetadata (b : InputBatch Req) : InputBatch Req := { b with removed := [] }

end InputBatch

/-! ## Reordering -/

/-- The regions of a reordered batch, in order. -/
inductive Region where
  | decode
  | shortExtend
  | longExtend
  | prefill
  deriving DecidableEq, Repr

/-- The number of a region in `req_regions`. -/
def Region.toNat : Region → Nat
  | decode => 0
  | shortExtend => 1
  | longExtend => 2
  | prefill => 3

/-- The region of a request, from the tokens scheduled, computed and in the prompt. -/
def regionOf (decodeThreshold numScheduledTokens numComputedTokens numPromptTokens : Nat) :
    Region :=
  if ¬ numComputedTokens > 0 then .prefill
  else if ¬ numScheduledTokens ≤ decodeThreshold then .longExtend
  else if ¬ numComputedTokens ≥ numPromptTokens then .shortExtend
  else .decode

/-- `target_regions`: every region as often as it occurs, in order. -/
def targetRegions (regions : List Region) : List Region :=
  [Region.decode, .shortExtend, .longExtend, .prefill].flatMap fun region =>
    List.replicate (regions.count region) region

/-- `orig_indices`: where a request is not in a place of its region. -/
def needsSwap (regions : List Region) : List Nat :=
  (List.range regions.length).filter fun i => regions[i]? ≠ (targetRegions regions)[i]?

/-- `src_indices`: these indices by region; the sort is stable. -/
def srcIndices (regions : List Region) : List Nat :=
  (needsSwap regions).insertionSort fun i j =>
    ((regions[i]?.map Region.toNat).getD 0) ≤ ((regions[j]?.map Region.toNat).getD 0)

/-- The swaps of one cycle of `src_dest_map`, and the map after it. Every round closes an entry,
    so the number of entries bounds the rounds. -/
def cycleSwaps : Nat → Nat → Nat → Dict Nat Nat → List (Nat × Nat) × Dict Nat Nat
  | 0, _, _, srcDestMap => ([], srcDestMap)
  | fuel + 1, src, dst, srcDestMap =>
      if src = dst then ([], srcDestMap)
      else
        let nextDst := (srcDestMap.get? dst).getD dst
        let (swaps, srcDestMap) := cycleSwaps fuel src nextDst (srcDestMap.set dst dst)
        ((src, dst) :: swaps, srcDestMap)

/-- The swaps of the loop over `src_dest_map`. -/
def cyclesSwaps : List Nat → Dict Nat Nat → List (Nat × Nat)
  | [], _ => []
  | src :: srcs, srcDestMap =>
      let (swaps, srcDestMap') :=
        cycleSwaps srcDestMap.length src ((srcDestMap.get? src).getD src) srcDestMap
      swaps ++ cyclesSwaps srcs srcDestMap'

/-- The swaps that bring every request into its region. -/
def reorderSwaps (regions : List Region) : List (Nat × Nat) :=
  cyclesSwaps (srcIndices regions) (.ofEntries ((srcIndices regions).zip (needsSwap regions)))

/-- `req_regions`: the regions in batch order; `region` raises for a request that the step does
    not schedule. -/
def InputBatch.reqRegions (region : Req → Except (BatchError Req) Region) (b : InputBatch Req) :
    Except (BatchError Req) (List Region) :=
  b.reqIds.zipIdx.mapM fun entry =>
    match entry.1 with
    | some reqId => region reqId
    | none => .error (.emptyRow entry.2)

/-- `reorder_batch_to_split_decodes_and_prefills`. -/
def InputBatch.reorder (region : Req → Except (BatchError Req) Region) (b : InputBatch Req) :
    Except (BatchError Req) (InputBatch Req) := do
  let regions ← b.reqRegions region
  (reorderSwaps regions).foldlM (fun b swap => b.swapStates swap.1 swap.2) b

/-! ## The invariant -/

namespace InputBatch

/-- The index map says where each request is in the list. -/
def Agrees (b : InputBatch Req) : Prop :=
  ∀ q i, b.reqIdToIndex.get? q = some i ↔ b.reqIds[i]? = some (some q)

/-- Index map and list agree, `removed` lists the gaps, and the counts fit. -/
structure Inv (b : InputBatch Req) : Prop where
  agrees : b.Agrees
  gaps : ∀ i, i ∈ b.removed ↔ b.reqIds[i]? = some none
  nodup : b.removed.Nodup
  length : b.reqIds.length = b.numReqs + b.removed.length

variable {b b' : InputBatch Req}

theorem inv_empty : Inv ({} : InputBatch Req) where
  agrees q i := by simp
  gaps i := by simp
  nodup := List.nodup_nil
  length := rfl

theorem Agrees.injective (h : b.Agrees) {q q' : Req} {i : Nat}
    (hq : b.reqIdToIndex.get? q = some i) (hq' : b.reqIdToIndex.get? q' = some i) : q = q' := by
  have heq := ((h q i).mp hq).symm.trans ((h q' i).mp hq')
  exact Option.some.inj (Option.some.inj heq)

theorem Agrees.values_nodup (h : b.Agrees) : b.reqIdToIndex.values.Nodup :=
  Dict.values_nodup fun _ _ _ hq hq' => h.injective hq hq'

theorem Agrees.lt_length (h : b.Agrees) {q : Req} {i : Nat}
    (hq : b.reqIdToIndex.get? q = some i) : i < b.reqIds.length :=
  (List.getElem?_eq_some_iff.mp ((h q i).mp hq)).1

/-! ## Removing and adding -/

theorem removeRequest_of_none {q : Req} (hq : b.reqIdToIndex.get? q = none) :
    b.removeRequest q = b := by
  unfold removeRequest
  rw [hq]

theorem removeRequest_of_some {q : Req} {i : Nat} (hq : b.reqIdToIndex.get? q = some i) :
    b.removeRequest q =
      ⟨b.reqIds.set i none, b.reqIdToIndex.erase q, b.removed ++ [i]⟩ := by
  unfold removeRequest
  rw [hq]

/-- Removing a request changes no other index. -/
theorem removeRequest_get? (b : InputBatch Req) (q q' : Req) :
    (b.removeRequest q).reqIdToIndex.get? q' =
      if q' = q then none else b.reqIdToIndex.get? q' := by
  cases hq : b.reqIdToIndex.get? q with
  | none =>
      rw [removeRequest_of_none hq]
      by_cases h : q' = q
      · rw [if_pos h, h, hq]
      · rw [if_neg h]
  | some i =>
      rw [removeRequest_of_some hq]
      exact get?_erase _ _ _

theorem Inv.removeRequest (h : b.Inv) (q : Req) : (b.removeRequest q).Inv := by
  cases hq : b.reqIdToIndex.get? q with
  | none => rwa [removeRequest_of_none hq]
  | some i =>
      rw [removeRequest_of_some hq]
      have hi := h.agrees.lt_length hq
      have hat := (h.agrees q i).mp hq
      refine ⟨fun q' j => ?_, fun j => ?_, ?_, ?_⟩
      · have hag := h.agrees q' j
        rw [get?_erase, List.getElem?_set]
        grind
      · have hgap := h.gaps j
        rw [List.mem_append, List.mem_singleton, List.getElem?_set]
        grind
      · have hgap := h.gaps i
        refine List.nodup_append.mpr ⟨h.nodup, List.nodup_singleton _, ?_⟩
        grind
      · have hlen := h.length
        have herase := length_erase hq
        simp only [numReqs, List.length_set, List.length_append, List.length_singleton] at *
        omega

/-- The index an added request gets: the lowest gap, or the end of the list. -/
theorem Inv.registerAddRequest (h : b.Inv) :
    (b.registerAddRequest.1 ∈ b.removed ∧
        b.registerAddRequest.2 = b.removed.erase b.registerAddRequest.1) ∨
      b.removed = [] ∧ b.registerAddRequest = (b.reqIds.length, []) := by
  unfold InputBatch.registerAddRequest
  cases hm : b.removed.min? with
  | some i => exact .inl ⟨List.min?_mem hm, rfl⟩
  | none =>
      have hnil := List.min?_eq_none_iff.mp hm
      have hlen := h.length
      rw [hnil, List.length_nil, Nat.add_zero] at hlen
      exact .inr ⟨hnil, by rw [hnil, hlen]⟩

theorem addRequest_eq_ok {maxNumReqs : Nat} {q : Req} (h : b.addRequest maxNumReqs q = .ok b') :
    b'.reqIdToIndex = b.reqIdToIndex.set q b.registerAddRequest.1 ∧
      b'.removed = b.registerAddRequest.2 ∧ b'.reqIds =
        if b.registerAddRequest.1 = b.reqIds.length then b.reqIds ++ [some q]
        else b.reqIds.set b.registerAddRequest.1 (some q) := by
  unfold addRequest at h
  dsimp only at h
  split at h
  · cases h
    exact ⟨rfl, rfl, rfl⟩
  · cases h

/-- Adding a request keeps the invariant, and changes no other index. -/
theorem Inv.addRequest {maxNumReqs : Nat} {q : Req} (h : b.Inv)
    (hq : b.reqIdToIndex.get? q = none) (hadd : b.addRequest maxNumReqs q = .ok b') : b'.Inv := by
  obtain ⟨hindex, hremoved, hreqIds⟩ := addRequest_eq_ok hadd
  have hlen := h.length
  have hset := length_set_of_none hq b.registerAddRequest.1
  rcases h.registerAddRequest with ⟨hmem, herase⟩ | ⟨hnil, hend⟩
  · have hgap := (h.gaps _).mp hmem
    have hlt := (List.getElem?_eq_some_iff.mp hgap).1
    rw [if_neg (by omega)] at hreqIds
    refine ⟨fun q' j => ?_, fun j => ?_, ?_, ?_⟩
    · have hag := h.agrees q' j
      have hagq := h.agrees q j
      rw [hindex, hreqIds, get?_set, List.getElem?_set]
      grind
    · have hgj := h.gaps j
      rw [hremoved, herase, h.nodup.mem_erase_iff, hreqIds, List.getElem?_set]
      grind
    · rw [hremoved, herase]
      exact h.nodup.erase _
    · have := List.length_erase_of_mem hmem
      have := List.length_pos_of_mem hmem
      simp only [numReqs, hindex, hremoved, herase, hreqIds, List.length_set] at *
      omega
  · rw [hend] at hindex hremoved hreqIds
    rw [if_pos rfl] at hreqIds
    refine ⟨fun q' j => ?_, fun j => ?_, ?_, ?_⟩
    · have hag := h.agrees q' j
      have hagq := h.agrees q j
      rw [hindex, hreqIds, get?_set]
      grind
    · have hgj := h.gaps j
      rw [hremoved, hreqIds]
      grind
    · rw [hremoved]
      exact List.nodup_nil
    · rw [hend] at hset
      simp only [numReqs, hindex, hremoved, hreqIds, hnil, List.length_append,
        List.length_singleton, List.length_nil] at *
      omega

/-! ## Condensing -/

/-- Below a request, the inner loop stops at the last request. -/
theorem lastOccupied_spec (removed : List Nat) (last : Nat)
    (h : ∃ i ≤ last, i ∉ removed) : lastOccupied removed last ≤ last ∧
      lastOccupied removed last ∉ removed ∧
      ∀ i, lastOccupied removed last < i → i ≤ last → i ∈ removed := by
  induction last with
  | zero =>
      obtain ⟨i, hi, hnot⟩ := h
      have h0 : i = 0 := by omega
      rw [h0] at hnot
      exact ⟨Nat.le_refl _, hnot, fun i h₁ h₂ => by simp [lastOccupied] at h₁; omega⟩
  | succ last ih =>
      unfold lastOccupied
      split
      · next hmem =>
          obtain ⟨i, hi, hnot⟩ := h
          have hne : i ≠ last + 1 := by
            rintro rfl
            exact hnot hmem
          obtain ⟨hle, hout, hbetween⟩ := ih ⟨i, by omega, hnot⟩
          refine ⟨by omega, hout, fun j h₁ h₂ => ?_⟩
          rcases Nat.lt_or_ge last j with hj | hj
          · have : j = last + 1 := by omega
            rwa [this]
          · exact hbetween j h₁ hj
      · next hnot => exact ⟨Nat.le_refl _, hnot, fun j h₁ h₂ => by omega⟩

/-- The state of the outer loop: no request above `last`, and `removed` lists the gaps up to
    it. A request below `n` has not moved. -/
structure Condensing (n : Nat) (b₀ b : InputBatch Req) (last : Nat) : Prop where
  agrees : b.Agrees
  nodup : b.removed.Nodup
  gaps : ∀ i ≤ last, i ∈ b.removed ↔ b.reqIds[i]? = some none
  above : ∀ i q, b.reqIds[i]? = some (some q) → i ≤ last
  inside : last < b.reqIds.length
  count : b.numReqs = n
  kept : ∀ q i, b₀.reqIdToIndex.get? q = some i → i < n → b.reqIdToIndex.get? q = some i
  same : ∀ q, (b.reqIdToIndex.get? q).isSome = (b₀.reqIdToIndex.get? q).isSome

/-- The state after the loop: the requests have the indices below `n`. -/
structure Condensed (n : Nat) (b₀ b : InputBatch Req) : Prop where
  agrees : b.Agrees
  dense : ∀ i, (∃ q, b.reqIds[i]? = some (some q)) ↔ i < n
  count : b.numReqs = n
  kept : ∀ q i, b₀.reqIdToIndex.get? q = some i → i < n → b.reqIdToIndex.get? q = some i
  same : ∀ q, (b.reqIdToIndex.get? q).isSome = (b₀.reqIdToIndex.get? q).isSome

section Condense

variable {n last : Nat} {b₀ : InputBatch Req}

/-- The indices of the requests. -/
theorem Agrees.mem_values (h : b.Agrees) {i : Nat} :
    i ∈ b.reqIdToIndex.values ↔ ∃ q, b.reqIds[i]? = some (some q) := by
  rw [Dict.mem_values]
  exact exists_congr fun q => h q i

/-- Without a gap up to the last request, the requests have the indices below `n`. -/
theorem Condensing.condensed (h : Condensing n b₀ b last) (hfull : ∀ i ≤ last, i ∉ b.removed) :
    Condensed n b₀ b := by
  have hiff : ∀ i, i ∈ b.reqIdToIndex.values ↔ i < last + 1 := by
    intro i
    rw [h.agrees.mem_values]
    refine ⟨fun ⟨q, hq⟩ => Nat.lt_succ_of_le (h.above i q hq), fun hi => ?_⟩
    have hlt : i < b.reqIds.length := by
      have := h.inside
      omega
    have hnone := (h.gaps i (by omega)).not.mp (hfull i (by omega))
    rw [List.getElem?_eq_getElem hlt] at hnone ⊢
    exact ⟨_, congrArg some (Option.some_get (Option.isSome_iff_ne_none.mpr
      fun h => hnone (congrArg some h))).symm⟩
  have hperm : b.reqIdToIndex.values.Perm (List.range (last + 1)) :=
    (List.perm_ext_iff_of_nodup h.agrees.values_nodup List.nodup_range).mpr fun i => by
      rw [hiff, List.mem_range]
  have hn : last + 1 = n := by
    have hlen := hperm.length_eq
    rw [List.length_range, Dict.values, List.length_map] at hlen
    exact hlen.symm.trans h.count
  exact ⟨h.agrees, fun i => by rw [← h.agrees.mem_values, hiff, hn], h.count, h.kept, h.same⟩

/-- A request above a gap is at `n` or beyond. -/
theorem Condensing.le_last (h : Condensing n b₀ b last) {gap : Nat} (hgap : gap ∈ b.removed)
    (hlt : gap ≤ last) : n ≤ last := by
  have hsub : b.reqIdToIndex.values.Subperm ((List.range (last + 1)).erase gap) := by
    refine List.Nodup.subperm h.agrees.values_nodup fun i hi => ?_
    obtain ⟨q, hq⟩ := h.agrees.mem_values.mp hi
    have hne : i ≠ gap := by
      rintro rfl
      rw [(h.gaps i hlt).mp hgap] at hq
      cases hq
    rw [List.nodup_range.mem_erase_iff, List.mem_range]
    exact ⟨hne, Nat.lt_succ_of_le (h.above i q hq)⟩
  have hlen := hsub.length_le
  rw [List.length_erase_of_mem (List.mem_range.mpr (by omega)), List.length_range, Dict.values,
    List.length_map] at hlen
  rw [← h.count]
  exact hlen

/-- One round moves the last request into the lowest gap. -/
theorem Condensing.move (h : Condensing n b₀ b last) {gap : Nat} {q : Req} (hgap : gap ∈ b.removed)
    (hlt : gap < last) (hq : b.reqIds[last]? = some (some q)) :
    Condensing n b₀ ⟨(b.reqIds.set gap (some q)).set last none, b.reqIdToIndex.set q gap,
      b.removed.erase gap⟩ (last - 1) := by
  have hn := h.le_last hgap (by omega)
  have hindex := (h.agrees q last).mpr hq
  have hinside := h.inside
  have hgap' := (h.gaps gap (by omega)).mp hgap
  refine ⟨fun q' i => ?_, h.nodup.erase _, fun i hi => ?_, fun i q' hi => ?_, ?_, ?_, ?_, ?_⟩
  · have hag := h.agrees q' i
    have hagq := h.agrees q i
    rw [get?_set, List.getElem?_set, List.getElem?_set, List.length_set]
    grind
  · have hg := h.gaps i (by omega)
    rw [h.nodup.mem_erase_iff, List.getElem?_set, List.getElem?_set, List.length_set]
    grind
  · have hab := h.above i q'
    rw [List.getElem?_set, List.getElem?_set, List.length_set] at hi
    grind
  · simp only [List.length_set]
    omega
  · rw [numReqs, length_set_of_some hindex]
    exact h.count
  · intro q' i hq' hi
    have hk := h.kept q' i hq' hi
    rw [get?_set, if_neg, hk]
    rintro rfl
    rw [hk] at hindex
    cases hindex
    omega
  · intro q'
    rw [← h.same q', get?_set]
    split
    · next heq => rw [heq, hindex]; rfl
    · rfl

/-- The inner loop lowers `last` to the last request. -/
theorem Condensing.lower (h : Condensing n b₀ b last) (hn : 0 < n) :
    Condensing n b₀ b (lastOccupied b.removed last) ∧
      ∃ q, b.reqIds[lastOccupied b.removed last]? = some (some q) := by
  have hinside := h.inside
  have hex : ∃ i ≤ last, i ∉ b.removed := by
    have hpos : 0 < b.reqIdToIndex.values.length := by
      rw [Dict.values, List.length_map]
      have := h.count
      unfold numReqs Dict.length at this
      omega
    obtain ⟨i, hi⟩ := List.exists_mem_of_length_pos hpos
    obtain ⟨q, hq⟩ := h.agrees.mem_values.mp hi
    have hle := h.above i q hq
    refine ⟨i, hle, fun hmem => ?_⟩
    rw [(h.gaps i hle).mp hmem] at hq
    cases hq
  obtain ⟨hle, hout, hbetween⟩ := lastOccupied_spec b.removed last hex
  constructor
  · refine ⟨h.agrees, h.nodup, fun i hi => h.gaps i (by omega), fun i q hq => ?_, by omega,
      h.count, h.kept, h.same⟩
    by_contra hlt
    have hi := h.above i q hq
    rw [(h.gaps i hi).mp (hbetween i (by omega) hi)] at hq
    cases hq
  · have hnone := (h.gaps _ hle).not.mp hout
    have hlt : lastOccupied b.removed last < b.reqIds.length := by omega
    rw [List.getElem?_eq_getElem hlt] at hnone ⊢
    exact ⟨_, congrArg some (Option.some_get (Option.isSome_iff_ne_none.mpr
      fun h => hnone (congrArg some h))).symm⟩

theorem condenseLoop_spec (fuel : Nat) (b : InputBatch Req) (last : Nat)
    (h : Condensing n b₀ b last) (hn : 0 < n) (hfuel : b.removed.length ≤ fuel)
    (hrun : condenseLoop fuel b last = .ok b') : Condensed n b₀ b' := by
  induction fuel generalizing b last with
  | zero =>
      rw [← Except.ok.inj hrun]
      have hnil := List.eq_nil_of_length_eq_zero (Nat.le_zero.mp hfuel)
      exact h.condensed fun i _ => by simp [hnil]
  | succ fuel ih =>
      rw [condenseLoop] at hrun
      obtain ⟨hlower, q, hq⟩ := h.lower hn
      split at hrun
      · next hmin =>
          rw [← Except.ok.inj hrun]
          exact h.condensed fun i _ => by simp [List.min?_eq_none_iff.mp hmin]
      · next gap hmin =>
          have hgap := List.min?_mem hmin
          dsimp only at hrun
          split at hrun
          · next hge =>
              rw [← Except.ok.inj hrun]
              refine hlower.condensed fun i hi hmem => ?_
              have hle : gap ≤ i := (List.min?_eq_some_iff.mp hmin).2 i hmem
              have heq : i = lastOccupied b.removed last := by omega
              rw [heq] at hmem
              rw [(hlower.gaps _ (Nat.le_refl _)).mp hmem] at hq
              cases hq
          · next hlt =>
              rw [hq] at hrun
              refine ih _ _ (hlower.move hgap (by omega) hq) ?_ hrun
              have := List.length_erase_of_mem hgap
              dsimp only
              omega

/-- After the loop the list is cut to the requests. -/
theorem Condensed.inv_take (h : Condensed n b₀ b) :
    Inv (⟨b.reqIds.take n, b.reqIdToIndex, []⟩ : InputBatch Req) := by
  refine ⟨fun q i => ?_, fun i => ?_, List.nodup_nil, ?_⟩
  · have hag := h.agrees q i
    have hdense := h.dense i
    rw [List.getElem?_take]
    grind
  · have hdense := h.dense i
    rw [List.getElem?_take]
    grind
  · have hle : n ≤ b.reqIds.length := by
      by_contra hlt
      obtain ⟨q, hq⟩ := (h.dense b.reqIds.length).mpr (by omega)
      simp at hq
    rw [List.length_take, Nat.min_eq_left hle, List.length_nil]
    exact h.count.symm

theorem Inv.condensing (h : b.Inv) (hne : b.removed ≠ []) :
    Condensing b.numReqs b b (b.numReqs + b.removed.length - 1) := by
  have hlength := h.length
  have hpos := List.length_pos_of_ne_nil hne
  refine ⟨h.agrees, h.nodup, fun i _ => h.gaps i, fun i q hq => ?_, by omega, rfl,
    fun _ _ hq _ => hq, fun _ => rfl⟩
  have := (List.getElem?_eq_some_iff.mp hq).1
  omega

/-- **Condensing.** Afterwards the requests have the indices below their number, and a request
    that had one of these keeps it. -/
theorem Inv.condense (h : b.Inv) (hrun : b.condense = .ok b') :
    b'.refreshMetadata.Inv ∧
      (∀ q, (b'.reqIdToIndex.get? q).isSome = (b.reqIdToIndex.get? q).isSome) ∧
      ∀ q i, b.reqIdToIndex.get? q = some i → i < b.numReqs →
        b'.reqIdToIndex.get? q = some i := by
  unfold InputBatch.condense at hrun
  split at hrun
  · next hnil =>
      have hinv : b.refreshMetadata = b := by
        rw [refreshMetadata, ← hnil]
      rw [← Except.ok.inj hrun, hinv]
      exact ⟨h, fun _ => rfl, fun _ _ hq _ => hq⟩
  · next hne =>
      split at hrun
      · next h0 =>
          have hempty : ∀ q, b.reqIdToIndex.get? q = none := fun q => by
            rw [get?_eq_none, Dict.keys, List.eq_nil_of_length_eq_zero h0]
            exact List.not_mem_nil
          rw [← Except.ok.inj hrun]
          exact ⟨⟨fun q i => by simp [refreshMetadata, hempty], fun i => by simp [refreshMetadata],
            List.nodup_nil, h0.symm⟩, fun _ => rfl, fun _ _ hq _ => hq⟩
      · next h0 =>
          cases hloop : condenseLoop b.removed.length b (b.numReqs + b.removed.length - 1) with
          | error e =>
              rw [hloop] at hrun
              cases hrun
          | ok b₁ =>
              rw [hloop] at hrun
              cases hrun
              have hdone := condenseLoop_spec _ _ _ (h.condensing hne) (Nat.pos_of_ne_zero h0)
                (Nat.le_refl _) hloop
              exact ⟨hdone.inv_take, hdone.same, hdone.kept⟩

end Condense

/-! ## Swapping and reordering -/

/-- A swap exchanges the requests of two indices. -/
theorem swapStates_eq_ok {i₁ i₂ : Nat} (h : b.Agrees) (hrun : b.swapStates i₁ i₂ = .ok b') :
    ∃ id₁ id₂, b.reqIds[i₁]? = some (some id₁) ∧ b.reqIds[i₂]? = some (some id₂) ∧
      b' = { b with
        reqIds := (b.reqIds.set i₁ (some id₂)).set i₂ (some id₁)
        reqIdToIndex := (b.reqIdToIndex.set id₁ i₂).set id₂ i₁ } := by
  unfold swapStates at hrun
  split at hrun
  · next id₁ id₂ h₁ h₂ =>
      rw [(h id₁ i₁).mpr h₁, (h id₂ i₂).mpr h₂] at hrun
      exact ⟨id₁, id₂, h₁, h₂, (Except.ok.inj hrun).symm⟩
  · cases hrun
  · cases hrun

/-- A swap keeps the invariant, and the index of every other request. -/
theorem Inv.swapStates {i₁ i₂ : Nat} (h : b.Inv) (hrun : b.swapStates i₁ i₂ = .ok b') :
    b'.Inv ∧ b'.reqIds.length = b.reqIds.length ∧ b'.removed = b.removed ∧
      (∀ q, (b'.reqIdToIndex.get? q).isSome = (b.reqIdToIndex.get? q).isSome) ∧
      ∀ q i, b.reqIdToIndex.get? q = some i → i ≠ i₁ → i ≠ i₂ →
        b'.reqIdToIndex.get? q = some i := by
  obtain ⟨id₁, id₂, h₁, h₂, rfl⟩ := swapStates_eq_ok h.agrees hrun
  have hindex₁ := (h.agrees id₁ i₁).mpr h₁
  have hindex₂ := (h.agrees id₂ i₂).mpr h₂
  have hlen : ((b.reqIdToIndex.set id₁ i₂).set id₂ i₁).length = b.reqIdToIndex.length := by
    by_cases heq : id₂ = id₁
    · rw [length_set_of_some (w := i₂) (by rw [heq, get?_set, if_pos rfl]),
        length_set_of_some hindex₁]
    · rw [length_set_of_some (w := i₂) (by rw [get?_set, if_neg heq, hindex₂]),
        length_set_of_some hindex₁]
  refine ⟨⟨fun q i => ?_, fun i => ?_, h.nodup, ?_⟩, ?_, rfl, fun q => ?_,
    fun q i hq hne₁ hne₂ => ?_⟩
  · have hag := h.agrees q i
    have hag₁ := h.agrees id₁ i
    have hag₂ := h.agrees id₂ i
    rw [get?_set, get?_set, List.getElem?_set, List.getElem?_set, List.length_set]
    grind
  · have hgap := h.gaps i
    rw [List.getElem?_set, List.getElem?_set, List.length_set]
    grind
  · have := h.length
    simp only [numReqs, List.length_set, hlen] at *
    exact this
  · rw [List.length_set, List.length_set]
  · rw [get?_set, get?_set]
    grind
  · rw [get?_set, get?_set]
    grind

end InputBatch

section Reorder

variable {S : List Nat}

/-- All swaps of a cycle are between indices of `S`, when the map leads from `S` to `S`. -/
theorem cycleSwaps_subset (fuel src dst : Nat) (srcDestMap : Dict Nat Nat) (hsrc : src ∈ S)
    (hdst : dst ∈ S) (hmap : ∀ v ∈ srcDestMap.values, v ∈ S) :
    (∀ swap ∈ (cycleSwaps fuel src dst srcDestMap).1, swap.1 ∈ S ∧ swap.2 ∈ S) ∧
      ∀ v ∈ (cycleSwaps fuel src dst srcDestMap).2.values, v ∈ S := by
  induction fuel generalizing dst srcDestMap with
  | zero => exact ⟨fun _ h => absurd h List.not_mem_nil, hmap⟩
  | succ fuel ih =>
      rw [cycleSwaps]
      split
      · exact ⟨fun _ h => absurd h List.not_mem_nil, hmap⟩
      · have hnext : (srcDestMap.get? dst).getD dst ∈ S := by
          cases hget : srcDestMap.get? dst with
          | none => exact hdst
          | some v => exact hmap v (mem_values.mpr ⟨dst, hget⟩)
        have hmap' : ∀ v ∈ (srcDestMap.set dst dst).values, v ∈ S := by
          intro v hv
          obtain ⟨k, hk⟩ := mem_values.mp hv
          rw [get?_set] at hk
          split at hk
          · cases hk
            exact hdst
          · exact hmap v (mem_values.mpr ⟨k, hk⟩)
        obtain ⟨hswaps, hvalues⟩ := ih _ _ hnext hmap'
        refine ⟨fun swap hswap => ?_, hvalues⟩
        rcases List.mem_cons.mp hswap with rfl | hswap
        · exact ⟨hsrc, hdst⟩
        · exact hswaps swap hswap

theorem cyclesSwaps_subset (srcs : List Nat) (srcDestMap : Dict Nat Nat)
    (hsrcs : ∀ src ∈ srcs, src ∈ S) (hmap : ∀ v ∈ srcDestMap.values, v ∈ S) :
    ∀ swap ∈ cyclesSwaps srcs srcDestMap, swap.1 ∈ S ∧ swap.2 ∈ S := by
  induction srcs generalizing srcDestMap with
  | nil => exact fun _ h => absurd h List.not_mem_nil
  | cons src srcs ih =>
      have hsrc := hsrcs src List.mem_cons_self
      have hdst : (srcDestMap.get? src).getD src ∈ S := by
        cases hget : srcDestMap.get? src with
        | none => exact hsrc
        | some v => exact hmap v (mem_values.mpr ⟨src, hget⟩)
      obtain ⟨hswaps, hvalues⟩ :=
        cycleSwaps_subset srcDestMap.length src _ srcDestMap hsrc hdst hmap
      intro swap hswap
      rw [cyclesSwaps] at hswap
      rcases List.mem_append.mp hswap with hswap | hswap
      · exact hswaps swap hswap
      · exact ih _ (fun src h => hsrcs src (List.mem_cons_of_mem _ h)) hvalues swap hswap

/-- Only indices whose request is in another region are swapped. -/
theorem reorderSwaps_subset (regions : List Region) :
    ∀ swap ∈ reorderSwaps regions,
      swap.1 ∈ needsSwap regions ∧ swap.2 ∈ needsSwap regions := by
  refine cyclesSwaps_subset _ _ (fun src hsrc => ?_) (fun v hv => ?_)
  · exact (List.perm_insertionSort _ _).mem_iff.mp hsrc
  · obtain ⟨k, hk⟩ := mem_values.mp hv
    exact (List.of_mem_zip (mem_of_get?_ofEntries hk)).2

namespace InputBatch

variable {b b' : InputBatch Req}

/-- What a reordering of the batch keeps: the requests, and the index of every request that is
    not swapped. -/
structure Reordered (moved : List Nat) (b b' : InputBatch Req) : Prop where
  inv : b'.Inv
  removed : b'.removed = b.removed
  same : ∀ q, (b'.reqIdToIndex.get? q).isSome = (b.reqIdToIndex.get? q).isSome
  kept : ∀ q i, b.reqIdToIndex.get? q = some i → i ∉ moved → b'.reqIdToIndex.get? q = some i

theorem Inv.swaps {moved : List Nat} {swaps : List (Nat × Nat)} (h : b.Inv)
    (hswaps : ∀ swap ∈ swaps, swap.1 ∈ moved ∧ swap.2 ∈ moved)
    (hrun : swaps.foldlM (fun b swap => b.swapStates swap.1 swap.2) b = .ok b') :
    Reordered moved b b' := by
  induction swaps generalizing b with
  | nil =>
      cases hrun
      exact ⟨h, rfl, fun _ => rfl, fun _ _ hq _ => hq⟩
  | cons swap swaps ih =>
      obtain ⟨b₁, h₁, hrest⟩ := Fallible.foldlM_cons_ok.mp hrun
      obtain ⟨hinv, -, hremoved, hsame, hkept⟩ := h.swapStates h₁
      obtain ⟨hm₁, hm₂⟩ := hswaps swap List.mem_cons_self
      have hrec := ih hinv (fun swap hs => hswaps swap (List.mem_cons_of_mem _ hs)) hrest
      refine ⟨hrec.inv, hrec.removed.trans hremoved, fun q => (hrec.same q).trans (hsame q),
        fun q i hq hi => hrec.kept q i (hkept q i hq ?_ ?_) hi⟩
      · rintro rfl
        exact hi hm₁
      · rintro rfl
        exact hi hm₂

/-- Swaps do not look at the list of removed requests. -/
theorem refreshMetadata_swaps {swaps : List (Nat × Nat)}
    (hrun : swaps.foldlM (fun b swap => b.swapStates swap.1 swap.2) b = .ok b') :
    swaps.foldlM (fun b swap => b.swapStates swap.1 swap.2) b.refreshMetadata =
      .ok b'.refreshMetadata := by
  induction swaps generalizing b with
  | nil =>
      cases hrun
      rfl
  | cons swap swaps ih =>
      obtain ⟨b₁, h₁, hrest⟩ := Fallible.foldlM_cons_ok.mp hrun
      refine Fallible.foldlM_cons_ok.mpr ⟨b₁.refreshMetadata, ?_, ih hrest⟩
      unfold swapStates at h₁
      split at h₁
      · next id₁ id₂ hid₁ hid₂ =>
          split at h₁
          · next hindex₁ hindex₂ =>
              cases h₁
              simp only [swapStates, refreshMetadata, hid₁, hid₂, hindex₁, hindex₂]
          · cases h₁
          · cases h₁
      · cases h₁
      · cases h₁

theorem refreshMetadata_reorder {region : Req → Except (BatchError Req) Region}
    (hrun : b.reorder region = .ok b') :
    b.refreshMetadata.reorder region = .ok b'.refreshMetadata := by
  obtain ⟨regions, hregions, hrun⟩ := Fallible.bind_eq_ok.mp hrun
  exact Fallible.bind_eq_ok.mpr ⟨regions, hregions, refreshMetadata_swaps hrun⟩

/-- The regions of the requests, in batch order. -/
theorem reqRegions_eq_ok {region : Req → Except (BatchError Req) Region} {r : Req → Region}
    {regions : List Region} (hregion : ∀ q, (b.reqIdToIndex.get? q).isSome → region q = .ok (r q))
    (h : b.Agrees) (hrun : b.reqRegions region = .ok regions) :
    ∃ ids : List Req, b.reqIds = ids.map some ∧ regions = ids.map r := by
  have hmem : ∀ x ∈ b.reqIds.zipIdx, ∀ q, x.1 = some q → region q = .ok (r q) := by
    intro x hx q hq
    have hget := List.mem_zipIdx_iff_getElem?.mp hx
    rw [hq] at hget
    exact hregion q (by rw [(h q x.2).mpr hget]; rfl)
  have hlist : ∃ ids : List Req, b.reqIds.zipIdx.map Prod.fst = ids.map some ∧
      regions = ids.map r := by
    unfold reqRegions at hrun
    generalize b.reqIds.zipIdx = xs at hrun hmem
    induction xs generalizing regions with
    | nil =>
        cases hrun
        exact ⟨[], rfl, rfl⟩
    | cons x xs ih =>
        obtain ⟨y, ys, hy, hys, rfl⟩ := Fallible.mapM_cons_ok.mp hrun
        obtain ⟨ids, hids, hregions⟩ :=
          ih hys fun z hz => hmem z (List.mem_cons_of_mem _ hz)
        obtain ⟨entry, index⟩ := x
        cases entry with
        | none => cases hy
        | some q =>
            have heq := (hmem _ List.mem_cons_self q rfl).symm.trans hy
            cases heq
            exact ⟨q :: ids, by rw [List.map_cons, hids, List.map_cons],
              by rw [List.map_cons, hregions]⟩
  rwa [List.zipIdx_map_fst] at hlist

/-- Without gaps, the index map has the requests of the list. -/
theorem Agrees.keys_perm (h : b.Agrees) {ids : List Req} (hids : b.reqIds = ids.map some) :
    b.reqIdToIndex.keys.Perm ids := by
  have hat : ∀ q i, b.reqIdToIndex.get? q = some i ↔ ids[i]? = some q := by
    intro q i
    rw [h q i, hids, List.getElem?_map]
    simp
  have hnodup : ids.Nodup := by
    refine List.nodup_iff_getElem?_ne_getElem?.mpr fun i j hij hj heq => ?_
    rw [List.getElem?_eq_getElem hj] at heq
    have hi := (hat _ i).mpr heq
    rw [(hat _ j).mpr (List.getElem?_eq_getElem hj)] at hi
    have := Option.some.inj hi
    omega
  refine (List.perm_ext_iff_of_nodup b.reqIdToIndex.nodup hnodup).mpr fun q => ?_
  refine Iff.trans (b := ∃ i, b.reqIdToIndex.get? q = some i) mem_keys ?_
  rw [List.mem_iff_getElem?]
  exact exists_congr fun i => hat q i

/-- The target regions depend on the number of requests in each region only. -/
theorem targetRegions_perm {regions regions' : List Region} (h : regions.Perm regions') :
    targetRegions regions = targetRegions regions' := by
  simp only [targetRegions, h.count_eq]

/-- **Reordering.** A request at an index of its own region keeps the index. -/
theorem Inv.reorder {region : Req → Except (BatchError Req) Region} {r : Req → Region}
    (h : b.Inv) (hregion : ∀ q, (b.reqIdToIndex.get? q).isSome → region q = .ok (r q))
    (hrun : b.reorder region = .ok b') :
    ∃ moved, Reordered moved b b' ∧ ∀ q i, b.reqIdToIndex.get? q = some i →
      (targetRegions (b.reqIdToIndex.keys.map r))[i]? = some (r q) → i ∉ moved := by
  obtain ⟨regions, hregions, hrun⟩ := Fallible.bind_eq_ok.mp hrun
  obtain ⟨ids, hids, rfl⟩ := reqRegions_eq_ok hregion h.agrees hregions
  refine ⟨needsSwap (ids.map r), h.swaps (reorderSwaps_subset _) hrun, fun q i hq ht hm => ?_⟩
  rw [targetRegions_perm ((h.agrees.keys_perm hids).map r)] at ht
  have hat := (h.agrees q i).mp hq
  rw [hids] at hat
  simp only [needsSwap, List.mem_filter, decide_eq_true_eq] at hm
  refine hm.2 ?_
  rw [ht]
  grind

end InputBatch

end Reorder

end Sock.Tmh
