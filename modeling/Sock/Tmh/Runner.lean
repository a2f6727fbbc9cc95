/-
  The model runner of a worker (`gpu_model_runner.py`): batch indices and slot rows.

  A step brings the batch up to date (`updateStates`) and then applies the step's events with
  the new map from requests to indices (`Runner.step`). The kernels read the slot row at a
  request's index. Rows are written by events only: a request that moves to another index
  without an event finds the row of the request before it (`rows_follow_fails`).

  * `updateStates_spec`: the batch after a step holds the scheduled requests, and a request that
    stays in the batch, below the number of requests and in its region, keeps its index.
  * `rowsFollow_rule`: rows follow requests as long as every request that moves has an event.
  * `rows_follow`: the same for runs of the runner.

  Not modelled: the tokens and block tables of the batch, speculative decoding, and pooling
  models. `finished_req_ids` is a list here; the order of removals does not matter, since gaps
  are filled from the lowest.
-/
import Sock.Tmh.InputBatch
import Sock.Tmh.Rows

namespace Sock.Tmh

open Lib Lib.Dict Lib.Fallible

variable {Req Layer : Type} [DecidableEq Req]

/-! ## Scheduler output -/

/-- `CachedRequestState`, as far as the order of the batch depends on it. -/
structure CachedRequestState where
  numPromptTokens : Nat
  numComputedTokens : Nat
  deriving DecidableEq

/-- `NewRequestData`: one of `scheduled_new_reqs`. -/
structure NewRequestData (Req : Type) where
  reqId : Req
  numPromptTokens : Nat
  numComputedTokens : Nat

/-- One request of `scheduled_cached_reqs`. -/
structure CachedRequestData (Req : Type) where
  reqId : Req
  numComputedTokens : Nat

/-- `SchedulerOutput`, with the calls on the policy that the step's events come from. The
    scheduler gives tokens to exactly the new and the cached requests, which are distinct. -/
structure SchedulerOutput (Req : Type) where
  finishedReqIds : List Req := []
  scheduledNewReqs : List (NewRequestData Req) := []
  scheduledCachedReqs : List (CachedRequestData Req) := []
  resumedReqIds : List Req := []
  numScheduledTokens : Dict Req Nat
  calls : List (Call Req)
  scheduled : numScheduledTokens.keys.Perm
    (scheduledNewReqs.map NewRequestData.reqId ++ scheduledCachedReqs.map CachedRequestData.reqId)

namespace SchedulerOutput

/-- The new requests. -/
def newReqIds (out : SchedulerOutput Req) : List Req :=
  out.scheduledNewReqs.map NewRequestData.reqId

/-- The running and resumed requests. -/
def cachedReqIds (out : SchedulerOutput Req) : List Req :=
  out.scheduledCachedReqs.map CachedRequestData.reqId

/-- `unscheduled_req_ids`. -/
def unscheduledReqIds (out : SchedulerOutput Req) (batch : InputBatch Req) : List Req :=
  batch.reqIdToIndex.keys.filter fun q =>
    ¬ (q ∈ out.numScheduledTokens.keys ∧ q ∉ out.resumedReqIds)

end SchedulerOutput

/-! ## The runner -/

/-- Batch size and `reorder_batch_threshold`. -/
structure RunnerConfig where
  maxNumReqs : Nat
  reorderBatchThreshold : Option Nat

/-- The runner, with the policy whose events it applies. -/
structure Runner (Req Layer : Type) where
  requests : Dict Req CachedRequestState
  batch : InputBatch Req
  system : System Req Layer

/-- What a step of the runner raises. -/
inductive RunnerError (Req Layer : Type) where
  | batch (e : BatchError Req)
  | runtime (e : RuntimeError Req Layer)
  deriving DecidableEq

/-- A new request; one that the runner knows is a streaming session, and leaves the batch first
    (`_update_streaming_request`). -/
def addNewRequest (acc : Dict Req CachedRequestState × InputBatch Req) (data : NewRequestData Req) :
    Dict Req CachedRequestState × InputBatch Req :=
  (acc.1.set data.reqId ⟨data.numPromptTokens, data.numComputedTokens⟩,
    if (acc.1.get? data.reqId).isSome then acc.2.removeRequest data.reqId else acc.2)

/-- A running or resumed request. -/
def updateCachedRequest (batch : InputBatch Req) (resumedReqIds : List Req)
    (requests : Dict Req CachedRequestState) (data : CachedRequestData Req) :
    Except (BatchError Req) (Dict Req CachedRequestState) :=
  match requests.get? data.reqId with
  | none => .error (.unknownRequest data.reqId)
  | some state =>
      if data.reqId ∈ resumedReqIds ∧ (batch.reqIdToIndex.get? data.reqId).isSome then
        .error (.resumedInBatch data.reqId)
      else .ok (requests.set data.reqId { state with numComputedTokens := data.numComputedTokens })

/-- The region of a request of the batch. -/
def SchedulerOutput.region (out : SchedulerOutput Req) (requests : Dict Req CachedRequestState)
    (threshold : Nat) (reqId : Req) : Except (BatchError Req) Region :=
  match out.numScheduledTokens.get? reqId, requests.get? reqId with
  | some numScheduledTokens, some state =>
      .ok (regionOf threshold numScheduledTokens state.numComputedTokens state.numPromptTokens)
  | _, _ => .error (.unknownRequest reqId)

/-- `_may_reorder_batch`. -/
def mayReorderBatch (c : RunnerConfig) (out : SchedulerOutput Req)
    (requests : Dict Req CachedRequestState) (batch : InputBatch Req) :
    Except (BatchError Req) (InputBatch Req) :=
  match c.reorderBatchThreshold with
  | none => .ok batch
  | some threshold => batch.reorder (out.region requests threshold)

/-- The requests that leave the batch: `finished_req_ids`, and then the unscheduled ones. -/
def SchedulerOutput.removeRequests (out : SchedulerOutput Req) (batch : InputBatch Req) :
    InputBatch Req :=
  let batch := out.finishedReqIds.foldl InputBatch.removeRequest batch
  (out.unscheduledReqIds batch).foldl InputBatch.removeRequest batch

/-- `_update_states`, up to the events. -/
def updateStates (c : RunnerConfig) (out : SchedulerOutput Req)
    (requests : Dict Req CachedRequestState) (batch : InputBatch Req) :
    Except (BatchError Req) (Dict Req CachedRequestState × InputBatch Req) := do
  let (requests, batch) := out.scheduledNewReqs.foldl addNewRequest
    (out.finishedReqIds.foldl Dict.erase requests, out.removeRequests batch)
  let requests ← out.scheduledCachedReqs.foldlM
    (updateCachedRequest batch out.resumedReqIds) requests
  let reqsToAdd := out.newReqIds ++
    out.cachedReqIds.filter fun q => (batch.reqIdToIndex.get? q).isNone
  let batch ← reqsToAdd.foldlM (InputBatch.addRequest c.maxNumReqs) batch
  let batch ← batch.condense
  let batch ← mayReorderBatch c out requests batch
  .ok (requests, batch.refreshMetadata)

/-- The scheduled requests with their regions, from what is known before the step. -/
def SchedulerOutput.regions (out : SchedulerOutput Req) (requests : Dict Req CachedRequestState)
    (threshold : Nat) : List (Req × Region) :=
  let tokens (q : Req) : Nat := (out.numScheduledTokens.get? q).getD 0
  let prompt (q : Req) : Nat := ((requests.get? q).map CachedRequestState.numPromptTokens).getD 0
  (out.scheduledNewReqs.map fun data => (data.reqId,
    regionOf threshold (tokens data.reqId) data.numComputedTokens data.numPromptTokens)) ++
  (out.scheduledCachedReqs.map fun data => (data.reqId,
    regionOf threshold (tokens data.reqId) data.numComputedTokens (prompt data.reqId)))

/-- The request runs on in the batch, at an index below the number of scheduled requests and, if
    the batch is reordered, in a place of its own region. -/
def SchedulerOutput.Stays (c : RunnerConfig) (requests : Dict Req CachedRequestState)
    (batch : InputBatch Req) (out : SchedulerOutput Req) (q : Req) : Prop :=
  q ∈ out.cachedReqIds ∧ q ∉ out.resumedReqIds ∧
    ∃ i ∈ batch.reqIdToIndex.get? q, i < out.numScheduledTokens.length ∧
      ∀ threshold ∈ c.reorderBatchThreshold, ∃ entry ∈ out.regions requests threshold,
        entry.1 = q ∧ (targetRegions ((out.regions requests threshold).map Prod.snd))[i]? =
          some entry.2

instance (c : RunnerConfig) (requests : Dict Req CachedRequestState) (batch : InputBatch Req)
    (out : SchedulerOutput Req) (q : Req) :
    Decidable (SchedulerOutput.Stays c requests batch out q) :=
  inferInstanceAs (Decidable (_ ∧ _ ∧ ∃ i ∈ _, _ ∧ _))

variable [DecidableEq Layer]

namespace Runner

/-- A step: the batch is brought up to date, and the events are applied with its indices. -/
def step (c : RunnerConfig) (r : Runner Req Layer) (out : SchedulerOutput Req) :
    Except (RunnerError Req Layer) (Runner Req Layer) :=
  match updateStates c out r.requests r.batch with
  | .error e => .error (.batch e)
  | .ok (requests, batch) =>
      match r.system.step ⟨out.calls, batch.reqIdToIndex⟩ with
      | .error e => .error (.runtime e)
      | .ok system => .ok { requests, batch, system }

/-- The slot row at the request's index shows the request's own pages: every page has an entry,
    and it is the slot the runtime holds for the page. -/
def RowShows (r : Runner Req Layer) (q : Req) : Prop :=
  ∃ row, r.batch.reqIdToIndex.get? q = some row ∧
    ∀ l i d, r.system.ledger.get? (q, l, i) = some d → ∃ page slot : Nat, ∃ e,
      i = page ∧ r.system.runtime.entry l row page = some e ∧ e.slot = slot ∧
        ((∃ k, r.system.runtime.canonicalSlots.get? (l, d.logicalBlockId, k) = some slot) ∨
          r.system.runtime.overlaySlots.get? (l, q, i) = some slot)

end Runner

/-- A new runner, with a new policy and runtime. -/
def Deployment.newRunner (D : Deployment Layer) : Runner Req Layer where
  requests := .empty
  batch := {}
  system := D.start

/-! ## The batch after a step -/

section Batch

variable {b b' : InputBatch Req} {requests requests' : Dict Req CachedRequestState}
  {c : RunnerConfig} {out : SchedulerOutput Req}

/-- Removing requests keeps the invariant and the index of every other request. -/
theorem InputBatch.Inv.removeAll (h : b.Inv) (qs : List Req) :
    (qs.foldl InputBatch.removeRequest b).Inv ∧
      ∀ q, (qs.foldl InputBatch.removeRequest b).reqIdToIndex.get? q =
        if q ∈ qs then none else b.reqIdToIndex.get? q := by
  induction qs generalizing b with
  | nil => exact ⟨h, fun q => by simp⟩
  | cons q' qs ih =>
      obtain ⟨hinv, hget⟩ := ih (h.removeRequest q')
      refine ⟨hinv, fun q => ?_⟩
      rw [List.foldl_cons, hget, InputBatch.removeRequest_get?]
      by_cases hq : q = q' <;> by_cases hm : q ∈ qs <;> simp [hq, hm]

variable (out) in
theorem SchedulerOutput.removeRequests_spec (h : b.Inv) :
    (out.removeRequests b).Inv ∧ ∀ q, (out.removeRequests b).reqIdToIndex.get? q =
      if q ∉ out.finishedReqIds ∧ q ∈ out.numScheduledTokens.keys ∧ q ∉ out.resumedReqIds then
        b.reqIdToIndex.get? q else none := by
  obtain ⟨hinv, hget⟩ := h.removeAll out.finishedReqIds
  obtain ⟨hinv', hget'⟩ := hinv.removeAll (out.unscheduledReqIds _)
  refine ⟨hinv', fun q => (hget' q).trans ?_⟩
  have hmem : q ∈ out.unscheduledReqIds (out.finishedReqIds.foldl InputBatch.removeRequest b) ↔
      (if q ∈ out.finishedReqIds then none else b.reqIdToIndex.get? q).isSome ∧
        ¬ (q ∈ out.numScheduledTokens.keys ∧ q ∉ out.resumedReqIds) := by
    rw [← hget, Option.isSome_iff_exists]
    simp [SchedulerOutput.unscheduledReqIds, List.mem_filter, mem_keys]
  rw [hget]
  generalize b.reqIdToIndex.get? q = i at hmem
  cases i <;> grind

/-- After the new requests: none of them is in the batch, and all are known. -/
theorem addNewRequests_spec (datas : List (NewRequestData Req)) (h : b.Inv)
    (hknown : ∀ q, (b.reqIdToIndex.get? q).isSome → (requests.get? q).isSome) :
    (datas.foldl addNewRequest (requests, b)).2.Inv ∧
      (∀ q, (datas.foldl addNewRequest (requests, b)).2.reqIdToIndex.get? q =
        if q ∈ datas.map NewRequestData.reqId then none else b.reqIdToIndex.get? q) ∧
      (∀ q, q ∉ datas.map NewRequestData.reqId →
        (datas.foldl addNewRequest (requests, b)).1.get? q = requests.get? q) ∧
      ((datas.map NewRequestData.reqId).Nodup → ∀ data ∈ datas,
        (datas.foldl addNewRequest (requests, b)).1.get? data.reqId =
          some ⟨data.numPromptTokens, data.numComputedTokens⟩) := by
  induction datas generalizing requests b with
  | nil => exact ⟨h, fun q => by simp, fun _ _ => rfl, fun _ _ h => absurd h List.not_mem_nil⟩
  | cons data datas ih =>
      have hinv : (addNewRequest (requests, b) data).2.Inv := by
        unfold addNewRequest
        dsimp only
        split
        · exact h.removeRequest _
        · exact h
      have hget : ∀ q, (addNewRequest (requests, b) data).2.reqIdToIndex.get? q =
          if q = data.reqId then none else b.reqIdToIndex.get? q := by
        intro q
        have hk := hknown q
        unfold addNewRequest
        dsimp only
        split
        · exact InputBatch.removeRequest_get? b _ _
        · next hnone =>
            split
            · next heq =>
                rw [heq] at hk ⊢
                exact Option.not_isSome_iff_eq_none.mp fun h => hnone (hk h)
            · rfl
      have hset : ∀ q, (addNewRequest (requests, b) data).1.get? q =
          if q = data.reqId then some ⟨data.numPromptTokens, data.numComputedTokens⟩
          else requests.get? q := fun q => get?_set _ _ _ _
      have hknown' : ∀ q, ((addNewRequest (requests, b) data).2.reqIdToIndex.get? q).isSome →
          ((addNewRequest (requests, b) data).1.get? q).isSome := by
        intro q hq
        have hk := hknown q
        rw [hget] at hq
        rw [hset]
        grind
      obtain ⟨hI, hbatch, hkeep, hnew⟩ := ih hinv hknown'
      rw [List.foldl_cons, List.map_cons]
      refine ⟨hI, fun q => ?_, fun q hq => ?_, fun hnodup data' hdata => ?_⟩
      · rw [hbatch, hget]
        grind
      · rw [List.mem_cons, not_or] at hq
        rw [hkeep q hq.2, hset, if_neg hq.1]
      · rw [List.nodup_cons] at hnodup
        rcases List.mem_cons.mp hdata with rfl | hdata
        · rw [hkeep _ hnodup.1, hset, if_pos rfl]
        · exact hnew hnodup.2 data' hdata

/-- After the cached requests: all of them were known, and have their new token count. -/
theorem updateCachedRequests_spec {resumedReqIds : List Req}
    (datas : List (CachedRequestData Req)) (hnodup : (datas.map CachedRequestData.reqId).Nodup)
    (hrun : datas.foldlM (updateCachedRequest b resumedReqIds) requests = .ok requests') :
    (∀ q, q ∉ datas.map CachedRequestData.reqId → requests'.get? q = requests.get? q) ∧
      ∀ data ∈ datas, ∃ state, requests.get? data.reqId = some state ∧
        requests'.get? data.reqId =
          some { state with numComputedTokens := data.numComputedTokens } := by
  induction datas generalizing requests with
  | nil =>
      cases hrun
      exact ⟨fun _ _ => rfl, fun _ h => absurd h List.not_mem_nil⟩
  | cons data datas ih =>
      obtain ⟨requests₁, h₁, hrest⟩ := foldlM_cons_ok.mp hrun
      rw [List.map_cons, List.nodup_cons] at hnodup
      obtain ⟨hkeep, hset⟩ := ih hnodup.2 hrest
      unfold updateCachedRequest at h₁
      split at h₁
      · cases h₁
      · next state hstate =>
          split at h₁
          · cases h₁
          · cases h₁
            refine ⟨fun q hq => ?_, fun data' hdata => ?_⟩
            · rw [List.map_cons, List.mem_cons, not_or] at hq
              rw [hkeep q hq.2, get?_set, if_neg hq.1]
            · rcases List.mem_cons.mp hdata with rfl | hdata
              · refine ⟨state, hstate, ?_⟩
                rw [hkeep _ hnodup.1, get?_set, if_pos rfl]
              · obtain ⟨state', hstate', hset'⟩ := hset data' hdata
                have hne : data'.reqId ≠ data.reqId := fun heq =>
                  hnodup.1 (heq ▸ List.mem_map.mpr ⟨data', hdata, rfl⟩)
                rw [get?_set, if_neg hne] at hstate'
                exact ⟨state', hstate', hset'⟩

/-- Adding requests keeps the index of every request that is there. -/
theorem InputBatch.Inv.addAll {maxNumReqs : Nat} {qs : List Req} (h : b.Inv) (hnodup : qs.Nodup)
    (hnew : ∀ q ∈ qs, b.reqIdToIndex.get? q = none)
    (hrun : qs.foldlM (InputBatch.addRequest maxNumReqs) b = .ok b') :
    b'.Inv ∧ (∀ q, (b'.reqIdToIndex.get? q).isSome ↔ (b.reqIdToIndex.get? q).isSome ∨ q ∈ qs) ∧
      ∀ q i, b.reqIdToIndex.get? q = some i → b'.reqIdToIndex.get? q = some i := by
  induction qs generalizing b with
  | nil =>
      cases hrun
      exact ⟨h, fun q => by simp, fun _ _ hq => hq⟩
  | cons q' qs ih =>
      obtain ⟨b₁, h₁, hrest⟩ := foldlM_cons_ok.mp hrun
      rw [List.nodup_cons] at hnodup
      have hq' := hnew q' List.mem_cons_self
      have hget : ∀ q, b₁.reqIdToIndex.get? q =
          if q = q' then some b.registerAddRequest.1 else b.reqIdToIndex.get? q := by
        intro q
        rw [(InputBatch.addRequest_eq_ok h₁).1, get?_set]
      obtain ⟨hinv, hiff, hkept⟩ := ih (h.addRequest hq' h₁) hnodup.2
        (fun q hq => by
          have := hnew q (List.mem_cons_of_mem _ hq)
          rw [hget]
          grind) hrest
      refine ⟨hinv, fun q => ?_, fun q i hq => hkept q i ?_⟩
      · rw [hiff, hget, List.mem_cons]
        grind
      · rw [hget]
        grind

/-- The batch and the known requests after a step. -/
structure Updated (c : RunnerConfig) (out : SchedulerOutput Req)
    (requests : Dict Req CachedRequestState) (b : InputBatch Req)
    (requests' : Dict Req CachedRequestState) (b' : InputBatch Req) : Prop where
  inv : b'.Inv
  scheduled : ∀ q, (b'.reqIdToIndex.get? q).isSome ↔ q ∈ out.numScheduledTokens.keys
  known : ∀ q, (b'.reqIdToIndex.get? q).isSome → (requests'.get? q).isSome
  kept : ∀ q, SchedulerOutput.Stays c requests b out q →
    b'.reqIdToIndex.get? q = b.reqIdToIndex.get? q

omit [DecidableEq Req] in
theorem SchedulerOutput.mem_scheduled {q : Req} :
    q ∈ out.numScheduledTokens.keys ↔ q ∈ out.newReqIds ∨ q ∈ out.cachedReqIds := by
  rw [out.scheduled.mem_iff, List.mem_append]
  rfl

omit [DecidableEq Req] in
theorem SchedulerOutput.nodup :
    out.newReqIds.Nodup ∧ out.cachedReqIds.Nodup ∧ ∀ q ∈ out.newReqIds, q ∉ out.cachedReqIds := by
  have hn := out.scheduled.nodup_iff.mp out.numScheduledTokens.nodup
  obtain ⟨hnew, hcached, hdisj⟩ := List.nodup_append.mp hn
  exact ⟨hnew, hcached, fun q hq hq' => hdisj q hq q hq' rfl⟩

/-- The phases of a step that returns. -/
theorem updateStates_eq_ok (hrun : updateStates c out requests b = .ok (requests', b')) :
    ∃ b₁ b₂ b₃ b₄, b₁ = (out.scheduledNewReqs.foldl addNewRequest
        (out.finishedReqIds.foldl Dict.erase requests, out.removeRequests b)).2 ∧
      out.scheduledCachedReqs.foldlM (updateCachedRequest b₁ out.resumedReqIds)
        (out.scheduledNewReqs.foldl addNewRequest
          (out.finishedReqIds.foldl Dict.erase requests, out.removeRequests b)).1 = .ok requests' ∧
      (out.newReqIds ++ out.cachedReqIds.filter fun q =>
        (b₁.reqIdToIndex.get? q).isNone).foldlM (InputBatch.addRequest c.maxNumReqs) b₁ = .ok b₂ ∧
      b₂.condense = .ok b₃ ∧ mayReorderBatch c out requests' b₃ = .ok b₄ ∧
      b' = b₄.refreshMetadata := by
  obtain ⟨requests₂, hcached, hrun⟩ := bind_eq_ok.mp hrun
  obtain ⟨b₂, hadd, hrun⟩ := bind_eq_ok.mp hrun
  obtain ⟨b₃, hcondense, hrun⟩ := bind_eq_ok.mp hrun
  obtain ⟨b₄, hreorder, hrun⟩ := bind_eq_ok.mp hrun
  cases hrun
  exact ⟨_, b₂, b₃, b₄, rfl, hcached, hadd, hcondense, hreorder, rfl⟩

/-- The batch before the new requests come in, and the requests that are known then. -/
theorem updateStates_removed (h : b.Inv)
    (hknown : ∀ q, (b.reqIdToIndex.get? q).isSome → (requests.get? q).isSome) (q : Req) :
    ((out.removeRequests b).reqIdToIndex.get? q).isSome →
      ((out.finishedReqIds.foldl Dict.erase requests).get? q).isSome := by
  rw [(out.removeRequests_spec h).2, get?_foldl_erase]
  have hk := hknown q
  split
  · next hq => rwa [if_neg hq.1]
  · exact fun h => (by cases h)

/-- The known requests after the step, by how they are scheduled. -/
structure Known (out : SchedulerOutput Req) (requests requests' : Dict Req CachedRequestState) :
    Prop where
  new : ∀ data ∈ out.scheduledNewReqs,
    requests'.get? data.reqId = some ⟨data.numPromptTokens, data.numComputedTokens⟩
  cached : ∀ data ∈ out.scheduledCachedReqs, data.reqId ∉ out.finishedReqIds ∧
    ∃ state, requests.get? data.reqId = some state ∧
      requests'.get? data.reqId = some ⟨state.numPromptTokens, data.numComputedTokens⟩

theorem Known.isSome (h : Known out requests requests') {q : Req}
    (hq : q ∈ out.numScheduledTokens.keys) : (requests'.get? q).isSome := by
  rcases SchedulerOutput.mem_scheduled.mp hq with hq | hq
  · obtain ⟨data, hdata, rfl⟩ := List.mem_map.mp hq
    rw [h.new data hdata]
    rfl
  · obtain ⟨data, hdata, rfl⟩ := List.mem_map.mp hq
    obtain ⟨-, state, -, hstate⟩ := h.cached data hdata
    rw [hstate]
    rfl

/-- The region of a scheduled request, total. -/
def regionAfter (out : SchedulerOutput Req) (requests : Dict Req CachedRequestState)
    (threshold : Nat) (q : Req) : Region :=
  regionOf threshold ((out.numScheduledTokens.get? q).getD 0)
    (((requests.get? q).map CachedRequestState.numComputedTokens).getD 0)
    (((requests.get? q).map CachedRequestState.numPromptTokens).getD 0)

theorem Known.region (h : Known out requests requests') (threshold : Nat) {q : Req}
    (hq : q ∈ out.numScheduledTokens.keys) :
    out.region requests' threshold q = .ok (regionAfter out requests' threshold q) := by
  obtain ⟨tokens, htokens⟩ := mem_keys.mp hq
  obtain ⟨state, hstate⟩ := Option.isSome_iff_exists.mp (h.isSome hq)
  simp [SchedulerOutput.region, regionAfter, htokens, hstate]

/-- The regions can be told before the step. -/
theorem Known.regions (h : Known out requests requests') (threshold : Nat) :
    out.regions requests threshold = (out.newReqIds ++ out.cachedReqIds).map fun q =>
      (q, regionAfter out requests' threshold q) := by
  unfold SchedulerOutput.regions SchedulerOutput.newReqIds SchedulerOutput.cachedReqIds
  rw [List.map_append, List.map_map, List.map_map]
  refine congrArg₂ (· ++ ·) ?_ ?_
  · refine List.map_congr_left fun data hdata => ?_
    simp [regionAfter, h.new data hdata]
  · refine List.map_congr_left fun data hdata => ?_
    obtain ⟨-, state, hold, hstate⟩ := h.cached data hdata
    simp [regionAfter, hold, hstate]

theorem mayReorderBatch_spec (h : b.Inv) (hknown : Known out requests requests')
    (hscheduled : ∀ q, (b.reqIdToIndex.get? q).isSome ↔ q ∈ out.numScheduledTokens.keys)
    (hrun : mayReorderBatch c out requests' b = .ok b') :
    ∃ moved, InputBatch.Reordered moved b b' ∧ ∀ q i, b.reqIdToIndex.get? q = some i →
      (∀ threshold ∈ c.reorderBatchThreshold, ∃ entry ∈ out.regions requests threshold,
        entry.1 = q ∧ (targetRegions ((out.regions requests threshold).map Prod.snd))[i]? =
          some entry.2) → i ∉ moved := by
  unfold mayReorderBatch at hrun
  split at hrun
  · cases hrun
    exact ⟨[], ⟨h, rfl, fun _ => rfl, fun _ _ hq _ => hq⟩, fun _ _ _ _ => List.not_mem_nil⟩
  · next threshold hthreshold =>
      obtain ⟨moved, hmoved, hstay⟩ := h.reorder (r := regionAfter out requests' threshold)
        (fun q hq => hknown.region threshold ((hscheduled q).mp hq)) hrun
      refine ⟨moved, hmoved, fun q i hq hregion => hstay q i hq ?_⟩
      obtain ⟨entry, hentry, rfl, htarget⟩ := hregion threshold hthreshold
      rw [hknown.regions] at hentry htarget
      obtain ⟨q, -, rfl⟩ := List.mem_map.mp hentry
      rw [List.map_map] at htarget
      have hperm : b.reqIdToIndex.keys.Perm (out.newReqIds ++ out.cachedReqIds) :=
        (keys_perm fun q => by
          rw [← hscheduled, mem_keys, Option.isSome_iff_exists]).trans out.scheduled
      rw [InputBatch.targetRegions_perm (hperm.map _)]
      exact htarget

theorem refreshMetadata_mayReorderBatch (hrun : mayReorderBatch c out requests b = .ok b') :
    mayReorderBatch c out requests b.refreshMetadata = .ok b'.refreshMetadata := by
  unfold mayReorderBatch at hrun ⊢
  split at hrun
  · cases hrun
    rfl
  · exact InputBatch.refreshMetadata_reorder hrun

/-- **The batch after a step.** -/
theorem updateStates_spec (h : b.Inv)
    (hknown : ∀ q, (b.reqIdToIndex.get? q).isSome → (requests.get? q).isSome)
    (hrun : updateStates c out requests b = .ok (requests', b')) :
    Updated c out requests b requests' b' := by
  obtain ⟨b₁, b₂, b₃, b₄, hb₁, hcached, hadd, hcondense, hreorder, rfl⟩ := updateStates_eq_ok hrun
  obtain ⟨hnewNodup, hcachedNodup, hdisj⟩ := out.nodup
  obtain ⟨hinv₀, hget₀⟩ := out.removeRequests_spec h
  obtain ⟨hinv₁, hget₁, hkeep₁, hnew₁⟩ :=
    addNewRequests_spec out.scheduledNewReqs hinv₀ (updateStates_removed h hknown)
  rw [← hb₁] at hinv₁ hget₁
  obtain ⟨hkeep₂, hset₂⟩ := updateCachedRequests_spec _ hcachedNodup hcached
  have hK : Known out requests requests' := by
    refine ⟨fun data hdata => ?_, fun data hdata => ?_⟩
    · rw [hkeep₂ _ (hdisj _ (List.mem_map.mpr ⟨data, hdata, rfl⟩)), hnew₁ hnewNodup data hdata]
    · obtain ⟨state, hstate, hset⟩ := hset₂ data hdata
      have hnot : data.reqId ∉ out.newReqIds := fun hm =>
        hdisj _ hm (List.mem_map.mpr ⟨data, hdata, rfl⟩)
      rw [hkeep₁ _ hnot, get?_foldl_erase] at hstate
      split at hstate
      · cases hstate
      · next hf => exact ⟨hf, state, hstate, hset⟩
  obtain ⟨hinv₂, hiff₂, hkept₂⟩ := hinv₁.addAll
    (List.nodup_append.mpr ⟨hnewNodup, hcachedNodup.filter _, fun q hq q' hq' heq =>
      hdisj q hq (heq ▸ (List.mem_filter.mp hq').1)⟩)
    (fun q hq => by
      rcases List.mem_append.mp hq with hq | hq
      · exact (hget₁ q).trans (if_pos hq)
      · exact Option.isNone_iff_eq_none.mp (List.mem_filter.mp hq).2) hadd
  have hfrom : ∀ q i, b₁.reqIdToIndex.get? q = some i → q ∈ out.numScheduledTokens.keys := by
    intro q i hq
    rw [hget₁, hget₀] at hq
    grind
  have hscheduled₂ : ∀ q, (b₂.reqIdToIndex.get? q).isSome ↔ q ∈ out.numScheduledTokens.keys := by
    intro q
    have hq := hfrom q
    have hmem := out.mem_scheduled (q := q)
    rw [hiff₂, List.mem_append, List.mem_filter]
    cases hb : b₁.reqIdToIndex.get? q with
    | none => simp [hmem]
    | some i => simp [hq i hb]
  obtain ⟨hinv₃, hsame₃, hkept₃⟩ := hinv₂.condense hcondense
  obtain ⟨moved, hmoved, hstay⟩ := mayReorderBatch_spec hinv₃ hK
    (fun q => by
      rw [← hscheduled₂ q, ← hsame₃ q]
      rfl) (refreshMetadata_mayReorderBatch hreorder)
  have hscheduled : ∀ q, (b₄.reqIdToIndex.get? q).isSome ↔ q ∈ out.numScheduledTokens.keys := by
    intro q
    rw [← hscheduled₂ q, ← hsame₃ q]
    exact iff_of_eq (congrArg (· = true) (hmoved.same q))
  refine ⟨hmoved.inv, hscheduled, fun q hq => hK.isSome ((hscheduled q).mp hq), fun q hq => ?_⟩
  obtain ⟨hq, hresumed, i, hi, hlt, hregion⟩ := hq
  have hcount : b₂.numReqs = out.numScheduledTokens.length := by
    rw [InputBatch.numReqs, ← length_keys, ← length_keys]
    refine (keys_perm fun q => ?_).length_eq
    rw [← hscheduled₂, mem_keys, Option.isSome_iff_exists]
  have h₁ : b₁.reqIdToIndex.get? q = some i := by
    obtain ⟨data, hdata, hid⟩ := List.mem_map.mp hq
    have hnot : q ∉ out.scheduledNewReqs.map NewRequestData.reqId := fun hm => hdisj q hm hq
    rw [hget₁, if_neg hnot, hget₀, if_pos]
    · exact hi
    · exact ⟨hid ▸ (hK.cached data hdata).1, out.mem_scheduled.mpr (.inr hq), hresumed⟩
  have h₃ := hkept₃ q i (hkept₂ q i h₁) (hcount ▸ hlt)
  rw [Option.mem_def.mp hi]
  exact hmoved.kept q i h₃ (hstay q i h₃ hregion)

end Batch

/-! ## Rows and events -/

section Rows

variable {D : Deployment Layer}

/-- An event that a call queues is for the call's request. -/
theorem SystemInv.request_of_queuedBy {s : System Req Layer} {call : Call Req}
    (h : SystemInv D s) {event : PhysicalEvent Req Layer}
    (hevent : event ∈ s.policy.queuedBy call) :
    event.requestId = call.requestId := by
  have hspec := h.callSpec call
  generalize (s.policy.call call).physicalDescriptors = ledger' at hspec
  generalize s.policy.queuedBy call = events at hevent hspec
  cases hspec with
  | silent => cases hevent
  | record _ hq =>
      rw [List.mem_singleton] at hevent
      rw [hevent, hq]
  | forget hcall =>
      rw [List.mem_singleton] at hevent
      rw [hevent, hcall]
      rfl

/-- Within a step: every tracked request with a row still has an event to come, or its row shows
    its pages. -/
def RowsFollow (rest : List (Call Req)) (s : System Req Layer) : Prop :=
  s.rows.values.Nodup ∧ ∀ q row, s.rows.get? q = some row → Tracked s.ledger q →
    (∃ event ∈ s.policy.queued rest, event.requestId = q) ∨
      PagesHeld s.ledger (s.lengths.get? q) s.runtime q row

/-- A request with a row in the step has an event in it, or had this row before. -/
def EventOrRow (s : System Req Layer) (seg : Segment Req) : Prop :=
  seg.reqIdToIndex.values.Nodup ∧ ∀ q row, seg.reqIdToIndex.get? q = some row →
    Tracked s.ledger q →
      (∃ event ∈ s.policy.queued seg.calls, event.requestId = q) ∨ s.rows.get? q = some row

/-- **Rows follow events.** -/
theorem rowsFollow_rule (D : Deployment Layer) :
    StepRule D RowsFollow (fun (s : System Req Layer) call =>
      KeyAgreement s.ledger ∧ RecordsAllOrNothing D.policy s.ledger call) EventOrRow where
  enter s seg hS hI := by
    refine ⟨hS.1, fun q row hrow hq => ?_⟩
    rcases hS.2 q row hrow hq with hevent | hold
    · exact .inl hevent
    · rcases hI.2 q row hold hq with ⟨event, hevent, -⟩ | hP
      · cases hevent
      · exact .inr hP
  tick s call rest s' hC ht hI := by
    refine ⟨ht.rows ▸ hI.1, fun q row hrow hq => ?_⟩
    rw [ht.rows] at hrow
    rcases ht.undisturbed hI.1 hq with ⟨event, row', rt, hr, rfl⟩ | ⟨hold, -, hown, hun⟩
    · rw [hr.hasRow] at hrow
      cases hrow
      exact .inr (hr.pagesHeld ht hC.2)
    · rcases hI.2 q row hrow hold with ⟨event, hevent, hq'⟩ | hP
      · rw [RuntimePolicy.queued, ← ht.policy] at hevent
        rcases List.mem_append.mp hevent with hevent | hevent
        · have hcall := (ht.before.request_of_queuedBy hevent).symm.trans hq'
          rw [hown hcall] at hevent
          cases hevent
        · exact .inl ⟨event, hevent, hq'⟩
      · exact .inr ((hun row hrow).pagesHeld hC.1 hP)
  drain _ hI := hI

/-! ## Runs -/

/-- The calls of a step, each with the policy before it. -/
def RuntimePolicy.moments (s : RuntimePolicy Req Layer) :
    List (Call Req) → List (RuntimePolicy Req Layer × Call Req)
  | [] => []
  | call :: calls => (s, call) :: (s.call call).moments calls

theorem tick_policy {s s' : System Req Layer} {call : Call Req} (h : s.tick call = .ok s') :
    s'.policy = s.policy.call call := by
  unfold System.tick at h
  split at h
  · cases h
    rfl
  · cases h

/-- The policy goes through the calls of a step whatever the worker does. -/
theorem moments_of_trace (calls : List (Call Req)) (s : System Req Layer) :
    ∀ x ∈ trace System.tick s calls, (x.1.policy, x.2) ∈ s.policy.moments calls := by
  induction calls generalizing s with
  | nil => exact fun _ h => absurd h List.not_mem_nil
  | cons call calls ih =>
      intro x hx
      rw [trace] at hx
      rcases List.mem_cons.mp hx with rfl | hx
      · exact List.mem_cons_self
      · cases hs : s.tick call with
        | ok s' =>
            rw [hs] at hx
            have hmem := ih s' x hx
            rw [tick_policy hs] at hmem
            exact List.mem_cons_of_mem _ hmem
        | error e =>
            rw [hs] at hx
            cases hx

/-- What keeps the rows right in a step: a scheduled request that is tracked has an event, or
    stays at its index; and every record changes no page of its request or all of them, with the
    tracked descriptors of a block agreeing on its canonical key. -/
def Runner.EventOrStays (D : Deployment Layer) (c : RunnerConfig) (r : Runner Req Layer)
    (out : SchedulerOutput Req) : Prop :=
  (∀ q ∈ out.numScheduledTokens.keys, Tracked r.system.ledger q →
    (∃ event ∈ r.system.policy.queued out.calls, event.requestId = q) ∨
      SchedulerOutput.Stays c r.requests r.batch out q) ∧
  ∀ x ∈ r.system.policy.moments out.calls, KeyAgreement x.1.physicalDescriptors ∧
    RecordsAllOrNothing D.policy x.1.physicalDescriptors x.2

instance (D : Deployment Layer) (c : RunnerConfig) (r : Runner Req Layer)
    (out : SchedulerOutput Req) : Decidable (r.EventOrStays D c out) :=
  inferInstanceAs (Decidable (_ ∧ _))

/-- What holds between the steps of the runner. -/
structure RunnerInv (D : Deployment Layer) (r : Runner Req Layer) : Prop where
  batch : r.batch.Inv
  known : ∀ q, (r.batch.reqIdToIndex.get? q).isSome → (r.requests.get? q).isSome
  rows : r.system.rows = r.batch.reqIdToIndex
  between : Between D r.system
  follow : RowsFollow [] r.system

theorem runnerInv_new (D : Deployment Layer) : RunnerInv D (D.newRunner : Runner Req Layer) where
  batch := InputBatch.inv_empty
  known _ h := by cases h
  rows := rfl
  between := between_start D
  follow := ⟨List.nodup_nil, fun _ _ h => by cases h⟩

theorem Runner.step_eq_ok {c : RunnerConfig} {r r' : Runner Req Layer} {out : SchedulerOutput Req}
    (h : r.step c out = .ok r') :
    updateStates c out r.requests r.batch = .ok (r'.requests, r'.batch) ∧
      r.system.step ⟨out.calls, r'.batch.reqIdToIndex⟩ = .ok r'.system := by
  unfold Runner.step at h
  split at h
  · cases h
  · next hupdate =>
      split at h
      · cases h
      · next hsystem =>
          cases h
          exact ⟨hupdate, hsystem⟩

theorem system_step_rows {s s' : System Req Layer} {seg : Segment Req} (h : s.step seg = .ok s') :
    s'.rows = seg.reqIdToIndex := by
  unfold System.step at h
  dsimp only at h
  split at h
  · cases h
    rfl
  · cases h

/-- A step keeps the invariant, and leaves exactly the scheduled requests in the batch. -/
theorem RunnerInv.step {c : RunnerConfig} {r r' : Runner Req Layer} {out : SchedulerOutput Req}
    (h : RunnerInv D r) (hcover : r.EventOrStays D c out) (hstep : r.step c out = .ok r') :
    RunnerInv D r' ∧
      ∀ q, (r'.batch.reqIdToIndex.get? q).isSome ↔ q ∈ out.numScheduledTokens.keys := by
  obtain ⟨hupdate, hsystem⟩ := Runner.step_eq_ok hstep
  have hup := updateStates_spec h.batch h.known hupdate
  have hS : EventOrRow r.system ⟨out.calls, r'.batch.reqIdToIndex⟩ := by
    refine ⟨hup.inv.agrees.values_nodup, fun q row hrow hq => ?_⟩
    have hsched := (hup.scheduled q).mp (by rw [hrow]; rfl)
    rcases hcover.1 q hsched hq with hevent | hstays
    · exact .inl hevent
    · right
      rw [h.rows, ← hup.kept q hstays, hrow]
  obtain ⟨hbetween, hfollow⟩ := (rowsFollow_rule D).step hS
    (fun x hx => hcover.2 _ (moments_of_trace out.calls (r.system.enter _) x hx))
    ⟨h.between, h.follow⟩ hsystem
  exact ⟨⟨hup.inv, hup.known, system_step_rows hsystem, hbetween, hfollow⟩, hup.scheduled⟩

theorem RunnerInv.rowShows {r : Runner Req Layer} (h : RunnerInv D r) {q : Req}
    (hq : (r.batch.reqIdToIndex.get? q).isSome) : r.RowShows q := by
  obtain ⟨row, hrow⟩ := Option.isSome_iff_exists.mp hq
  refine ⟨row, hrow, fun l i d hd => ?_⟩
  have hrow' : r.system.rows.get? q = some row := by rw [h.rows, hrow]
  rcases h.follow.2 q row hrow' (tracked_iff.mpr ⟨l, i, d, hd⟩) with ⟨event, hevent, -⟩ | hP
  · cases hevent
  · exact hP.entry h.between.toSystemInv hd

/-- **Rows follow requests.** In every run of the runner in which each scheduled request that is
    tracked has an event in the step or stays at its index, and every record is all or nothing:
    at the forward pass of each step, the slot row at the index of every scheduled request shows
    the request's own pages. -/
theorem rows_follow (D : Deployment Layer) (c : RunnerConfig) (outs : List (SchedulerOutput Req))
    (hsteps : ∀ x ∈ trace (Runner.step c) D.newRunner outs, x.1.EventOrStays D c x.2) :
    ∀ x ∈ trace (Runner.step c) D.newRunner outs, ∀ r', x.1.step c x.2 = .ok r' →
      ∀ q ∈ x.2.numScheduledTokens.keys, r'.RowShows q := by
  intro x hx r' hstep q hq
  have hinv := trace_invariant (I := RunnerInv D) (C := fun r out => r.EventOrStays D c out)
    (fun _ _ _ hC hI hs => (hI.step hC hs).1) hsteps (runnerInv_new D) x hx
  obtain ⟨hinv', hscheduled⟩ := hinv.step (hsteps x hx) hstep
  exact hinv'.rowShows ((hscheduled q).mpr hq)

end Rows

/-- A batch of up to four requests, decodes first. -/
def decodesFirst : RunnerConfig := ⟨4, some 1⟩

/-- Request 0 with two pages and request 1 with one. -/
def bothStart : SchedulerOutput Nat where
  scheduledNewReqs := [⟨0, 2, 0⟩, ⟨1, 1, 0⟩]
  numScheduledTokens := ⟨[(0, 2), (1, 1)], by decide⟩
  calls := [allocate 0 [(0, false), (1, false)], allocate 1 [(2, false)]]
  scheduled := by decide

/-- The first request finishes; the second runs on in its page. -/
def firstFinishes : SchedulerOutput Nat where
  finishedReqIds := [0]
  scheduledCachedReqs := [⟨1, 1⟩]
  numScheduledTokens := ⟨[(1, 1)], by decide⟩
  calls := [.forgetRequest 0, allocate 1 [(2, false)]]
  scheduled := by decide

/-- The second request finishes; the first runs on in its pages. -/
def secondFinishes : SchedulerOutput Nat where
  finishedReqIds := [1]
  scheduledCachedReqs := [⟨0, 2⟩]
  numScheduledTokens := ⟨[(0, 1)], by decide⟩
  calls := [.forgetRequest 1, allocate 0 [(0, false), (1, false)]]
  scheduled := by decide

theorem rows_follow_secondFinishes :
    ∃ r r', [bothStart].foldlM (Runner.step decodesFirst) halfRaw.newRunner = .ok r ∧
      r.step decodesFirst secondFinishes = .ok r' ∧ Tracked r'.system.ledger 0 ∧
      r'.RowShows 0 := by
  obtain ⟨r, r', hrun, hstep, hp⟩ := exists_ok_of_any₂
    (x := [bothStart].foldlM (Runner.step decodesFirst) halfRaw.newRunner)
    (y := fun r => r.step decodesFirst secondFinishes)
    (p := fun _ r' => decide (Tracked r'.system.ledger 0)) (by decide +kernel)
  rw [decide_eq_true_eq] at hp
  obtain ⟨r₁, h₁, hnil⟩ := foldlM_cons_ok.mp hrun
  cases hnil
  refine ⟨r, r', hrun, hstep, hp, rows_follow halfRaw decodesFirst [bothStart, secondFinishes]
    (by decide +kernel) (r, secondFinishes) ?_ r' hstep 0
    (show 0 ∈ secondFinishes.numScheduledTokens.keys by decide)⟩
  rw [trace_cons_ok h₁]
  exact List.mem_cons_of_mem _ List.mem_cons_self

/-- When the first request finishes, the second moves to index 0. Nothing changed for it, so it
    has no event, and row 0 still shows the slot of the finished request. -/
theorem rows_follow_fails :
    ∃ r, [bothStart, firstFinishes].foldlM (Runner.step decodesFirst) halfRaw.newRunner = .ok r ∧
      Tracked r.system.ledger 1 ∧ ¬ r.RowShows 1 := by
  obtain ⟨r, hrun, hp⟩ := exists_ok_of_any
    (x := [bothStart, firstFinishes].foldlM (Runner.step decodesFirst) halfRaw.newRunner)
    (p := fun r => decide (r.batch.reqIdToIndex.get? 1 = some 0 ∧
      (r.system.ledger.get? (1, 0, 0)).isSome ∧
      r.system.runtime.entry 0 0 0 = some (.of 0 .pinnedRaw) ∧
      0 ∉ r.system.runtime.canonicalSlots.values ∧ 0 ∉ r.system.runtime.overlaySlots.values))
    (by decide +kernel)
  rw [decide_eq_true_eq] at hp
  obtain ⟨hrow, hd, he, hcanonical, hoverlay⟩ := hp
  obtain ⟨d, hd⟩ := Option.isSome_iff_exists.mp hd
  refine ⟨r, hrun, tracked_iff.mpr ⟨0, 0, d, hd⟩, fun hshows => ?_⟩
  obtain ⟨row, hrow', hpages⟩ := hshows
  obtain ⟨page, slot, e, hpage, hentry, hslot, hheld⟩ := hpages 0 0 d hd
  have hr : row = 0 := Option.some.inj (hrow'.symm.trans hrow)
  have hp : page = 0 := by omega
  rw [hr, hp, he] at hentry
  cases hentry
  have h0 : slot = 0 := by
    simp only [RowEntry.of] at hslot
    omega
  rw [h0] at hheld
  rcases hheld with ⟨k, hk⟩ | ho
  · exact hcanonical (mem_values.mpr ⟨_, hk⟩)
  · exact hoverlay (mem_values.mpr ⟨_, ho⟩)

end Sock.Tmh
