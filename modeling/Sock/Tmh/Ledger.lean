/-
  The policy without its counters.

  What a policy tracks is a ledger: one descriptor for each (request, layer, page). A call
  changes the ledger by a list of puts and drops (`ledgerUpdates`) and queues at most one
  event (`ledgerEvents`). A descriptor is released when its removal or replacement takes the
  number of canonical descriptors with its key from one to zero; the ledger machine counts
  them in the ledger itself.

  * `call_refines`: the policy with counters does what the ledger machine does.
  * `refcounts_exact`: after every call the counters are exact and the released descriptors
    are the ones the ledger machine releases.
-/
import Sock.Tmh.Policy

namespace Sock.Tmh

open Lib Lib.RefCount RuntimePolicy

section Types

variable (Req Layer : Type)

/-- The tracked page descriptors. -/
abbrev Ledger := Dict (Req × Layer × Int) (PhysicalPageDescriptor Req Layer)

/-- An update of the ledger. -/
abbrev LedgerOp := Op (Req × Layer × Int) (PhysicalPageDescriptor Req Layer)

end Types

variable {Req Layer : Type}

/-- The request a call is about. -/
def Call.requestId : Call Req → Req
  | .recordAllocation requestId _ _ _ => requestId
  | .recordBlockIds requestId _ _ _ => requestId
  | .forgetRequest requestId => requestId

/-- The page count and the logical pages a call records, if it records any. -/
def Call.recorded (c : PolicyConfig Layer) : Call Req → Option (Int × List (Int × Bool))
  | .recordAllocation _ totalTokens _ blocksByGroup =>
      if c.enabled ∧ c.layers ≠ [] ∧ c.physical then
        blocksByGroup.head?.map fun blocks =>
          (c.totalPages (max 1 totalTokens), logicalPagesOfBlocks blocks)
      else none
  | .recordBlockIds _ totalTokens logicalBlockIds prefixCachedPageIndices =>
      if c.physical ∧ logicalBlockIds ≠ [] then
        let totalPages := c.totalPages (max 1 totalTokens)
        some (totalPages, logicalPagesOfBlockIds totalPages logicalBlockIds
          prefixCachedPageIndices)
      else none
  | .forgetRequest _ => none

variable [DecidableEq Req] [DecidableEq Layer]

/-! ## The ledger machine -/

/-- Store a descriptor under its own key. -/
def putDescriptor (d : PhysicalPageDescriptor Req Layer) : LedgerOp Req Layer := .put d.key d

/-- The descriptors among `ds`, met one after the other, that differ from what is tracked. -/
def changedDescriptors (ledger : Ledger Req Layer) :
    List (PhysicalPageDescriptor Req Layer) → List (PhysicalPageDescriptor Req Layer)
  | [] => []
  | d :: ds =>
      if ledger.get? d.key = some d then changedDescriptors ledger ds
      else d :: changedDescriptors (ledger.set d.key d) ds

/-- The descriptors a record changes. -/
def recordChanges (c : PolicyConfig Layer) (ledger : Ledger Req Layer) (requestId : Req)
    (totalPages : Int) (logicalPages : List (Int × Bool)) :
    List (PhysicalPageDescriptor Req Layer) :=
  changedDescriptors ledger
    (pageDescriptors c requestId totalPages (c.recentStartPage totalPages) logicalPages)

/-- The keys tracked for a request. -/
def requestKeys (ledger : Ledger Req Layer) (requestId : Req) : List (Req × Layer × Int) :=
  ledger.keys.filter fun key => decide (key.1 = requestId)

/-- The replacements and removals a call makes. -/
def ledgerUpdates (c : PolicyConfig Layer) (ledger : Ledger Req Layer) :
    Call Req → List (LedgerOp Req Layer)
  | .forgetRequest requestId => (requestKeys ledger requestId).map .drop
  | call =>
      match call.recorded c with
      | none => []
      | some (totalPages, logicalPages) =>
          (recordChanges c ledger call.requestId totalPages logicalPages).map putDescriptor

/-- The descriptors whose removal or replacement takes the number of canonical descriptors
    with their key from one to zero, in order. -/
def ledgerReleases (c : PolicyConfig Layer) (ledger : Ledger Req Layer) (call : Call Req) :
    List (PhysicalPageDescriptor Req Layer) :=
  releases canonicalDescriptorKey ledger (ledgerUpdates c ledger call)

/-- The events a call queues. -/
def ledgerEvents (c : PolicyConfig Layer) (ledger : Ledger Req Layer) (call : Call Req) :
    List (PhysicalEvent Req Layer) :=
  match call with
  | .forgetRequest requestId =>
      if c.physical ∧ requestKeys ledger requestId ≠ [] then
        [{ requestId
           descriptors := []
           totalPages := 0
           recentStartPage := 0
           hotPages := 0
           releasedRequestIds := [requestId]
           releasedDescriptors := ledgerReleases c ledger call }]
      else []
  | call =>
      match call.recorded c with
      | none => []
      | some (totalPages, logicalPages) =>
          let changed := recordChanges c ledger call.requestId totalPages logicalPages
          if changed = [] then []
          else
            [{ requestId := call.requestId
               descriptors := changed
               totalPages
               recentStartPage := c.recentStartPage totalPages
               hotPages := c.hotPages totalPages
               releasedDescriptors := ledgerReleases c ledger call }]

/-- The ledger after a call. -/
def ledgerCall (c : PolicyConfig Layer) (ledger : Ledger Req Layer) (call : Call Req) :
    Ledger Req Layer := effects ledger (ledgerUpdates c ledger call)

/-! ## The loops of the policy -/

omit [DecidableEq Req] in
theorem trackCanonicalDescriptor_eq (refcounts : Dict (Layer × Int × PageRole) Nat)
    (d : PhysicalPageDescriptor Req Layer) :
    trackCanonicalDescriptor refcounts d = track canonicalDescriptorKey refcounts d := by
  unfold trackCanonicalDescriptor track
  cases canonicalDescriptorKey d <;> rfl

omit [DecidableEq Req] in
theorem untrackCanonicalDescriptor_eq (refcounts : Dict (Layer × Int × PageRole) Nat)
    (d : PhysicalPageDescriptor Req Layer) :
    untrackCanonicalDescriptor refcounts d = untrack canonicalDescriptorKey refcounts d := by
  unfold untrackCanonicalDescriptor untrack
  cases canonicalDescriptorKey d <;> rfl

/-- The index a loop works on. -/
def RecordLoop.index (s : RecordLoop Req Layer) :
    Index (Req × Layer × Int) (PhysicalPageDescriptor Req Layer) (Layer × Int × PageRole) :=
  ⟨s.physicalDescriptors, s.refcounts⟩

/-- One round of the record loop is one put, unless the descriptor is tracked already. -/
theorem recordDescriptor_eq (s : RecordLoop Req Layer) (d : PhysicalPageDescriptor Req Layer)
    (h : s.physicalDescriptors.get? d.key ≠ some d) :
    let r := step canonicalDescriptorKey s.index (putDescriptor d)
    recordDescriptor s d = ⟨r.1.items, r.1.counts, s.descriptors ++ [d],
      s.releasedDescriptors ++ r.2⟩ := by
  unfold recordDescriptor RecordLoop.index putDescriptor step
  dsimp only
  rw [if_neg h]
  cases ho : s.physicalDescriptors.get? d.key with
  | none => simp [trackCanonicalDescriptor_eq]
  | some old =>
      by_cases hk : canonicalDescriptorKey old = canonicalDescriptorKey d
      · simp [hk]
      · simp only [hk, ne_eq, not_false_eq_true, if_true, if_false,
          trackCanonicalDescriptor_eq, untrackCanonicalDescriptor_eq]
        cases (untrack canonicalDescriptorKey s.refcounts old).1 <;> simp

/-- The record loop is the run of the puts of the changed descriptors. -/
theorem foldl_recordDescriptor (ds : List (PhysicalPageDescriptor Req Layer))
    (s : RecordLoop Req Layer) :
    let changed := changedDescriptors s.physicalDescriptors ds
    let r := run canonicalDescriptorKey s.index (changed.map putDescriptor)
    ds.foldl recordDescriptor s = ⟨r.1.items, r.1.counts, s.descriptors ++ changed,
      s.releasedDescriptors ++ r.2⟩ := by
  induction ds generalizing s with
  | nil => simp [changedDescriptors, run, RecordLoop.index]
  | cons d ds ih =>
      by_cases h : s.physicalDescriptors.get? d.key = some d
      · have hs : recordDescriptor s d = s := by simp [recordDescriptor, h]
        simp only [List.foldl_cons, hs, changedDescriptors, if_pos h]
        exact ih s
      · have hs := recordDescriptor_eq s d h
        have hidx : (recordDescriptor s d).index =
            (step canonicalDescriptorKey s.index (putDescriptor d)).1 := by rw [hs]; rfl
        have hput : (recordDescriptor s d).physicalDescriptors =
            s.physicalDescriptors.set d.key d :=
          (congrArg Index.items hidx).trans (step_items canonicalDescriptorKey s.index _)
        have hdesc : (recordDescriptor s d).descriptors = s.descriptors ++ [d] := by rw [hs]
        have hrel : (recordDescriptor s d).releasedDescriptors = s.releasedDescriptors ++
            (step canonicalDescriptorKey s.index (putDescriptor d)).2 := by rw [hs]
        simp only [List.foldl_cons, changedDescriptors, if_neg h, List.map_cons, run]
        rw [ih, hidx, hput, hdesc, hrel]
        simp only [List.append_assoc, List.singleton_append]

/-- One round of the forget loop drops the entry, if it is the request's. -/
theorem forgetDescriptor_eq (requestId : Req) (s : ForgetLoop Req Layer)
    (key : Req × Layer × Int) (d : PhysicalPageDescriptor Req Layer)
    (h : s.physicalDescriptors.get? key = some d) (hk : key.1 = requestId) :
    let r := step canonicalDescriptorKey ⟨s.physicalDescriptors, s.refcounts⟩ (.drop key)
    forgetDescriptor requestId s (key, d) = ⟨r.1.items, r.1.counts, s.removedDescriptors ++ [d],
      s.releasedDescriptors ++ r.2⟩ := by
  unfold forgetDescriptor step
  dsimp only
  rw [if_neg (by simpa using hk), h, untrackCanonicalDescriptor_eq]
  dsimp only
  cases (untrack canonicalDescriptorKey s.refcounts d).1 <;> simp

/-- The forget loop, over entries that are tracked under distinct keys, is the run of the drops
    of the request's keys. -/
theorem foldl_forgetDescriptor (requestId : Req)
    (es : List ((Req × Layer × Int) × PhysicalPageDescriptor Req Layer))
    (hn : (es.map Prod.fst).Nodup) (s : ForgetLoop Req Layer)
    (hes : ∀ e ∈ es, s.physicalDescriptors.get? e.1 = some e.2) :
    let mine := es.filter fun e => decide (e.1.1 = requestId)
    let r := run canonicalDescriptorKey ⟨s.physicalDescriptors, s.refcounts⟩
      (mine.map fun e => .drop e.1)
    es.foldl (forgetDescriptor requestId) s = ⟨r.1.items, r.1.counts,
      s.removedDescriptors ++ mine.map Prod.snd, s.releasedDescriptors ++ r.2⟩ := by
  induction es generalizing s with
  | nil => simp [run]
  | cons e es ih =>
      obtain ⟨key, d⟩ := e
      rw [List.map_cons, List.nodup_cons] at hn
      have hkey := hes _ List.mem_cons_self
      by_cases h : key.1 = requestId
      · have hs := forgetDescriptor_eq requestId s key d hkey h
        set r := step canonicalDescriptorKey ⟨s.physicalDescriptors, s.refcounts⟩
          (.drop key : LedgerOp Req Layer) with hr
        have hrest : ∀ e ∈ es, r.1.items.get? e.1 = some e.2 := by
          intro e he
          have hne : e.1 ≠ key := by
            intro heq
            exact hn.1 (List.mem_map.mpr ⟨e, he, heq⟩)
          rw [hr, step_items, effect_get?_ne _ _ hne]
          exact hes e (List.mem_cons_of_mem _ he)
        have hfilter : ((key, d) :: es).filter (fun e => decide (e.1.1 = requestId)) =
            (key, d) :: es.filter fun e => decide (e.1.1 = requestId) := by simp [h]
        rw [List.foldl_cons, hs, ih hn.2 _ hrest, hfilter]
        simp only [List.map_cons, run, ← hr, List.append_assoc, List.singleton_append]
      · have hs : forgetDescriptor requestId s (key, d) = s := by simp [forgetDescriptor, h]
        have hfilter : ((key, d) :: es).filter (fun e => decide (e.1.1 = requestId)) =
            es.filter fun e => decide (e.1.1 = requestId) := by simp [h]
        rw [List.foldl_cons, hs, hfilter]
        exact ih hn.2 s fun e he => hes e (List.mem_cons_of_mem _ he)

/-! ## The policy refines the ledger machine -/

/-- The tracked descriptors with their counters. -/
def RuntimePolicy.index (s : RuntimePolicy Req Layer) :
    Index (Req × Layer × Int) (PhysicalPageDescriptor Req Layer) (Layer × Int × PageRole) :=
  ⟨s.physicalDescriptors, s.canonicalDescriptorRefcounts⟩

/-- What a call does: the same configuration, the ledger machine's ledger under exact
    counters, and the ledger machine's events at the end of the queue. -/
structure Refines (s : RuntimePolicy Req Layer) (call : Call Req) (s' : RuntimePolicy Req Layer) :
    Prop where
  config : s'.config = s.config
  ledger : s'.physicalDescriptors = ledgerCall s.config s.physicalDescriptors call
  exact : Exact canonicalDescriptorKey s'.index
  events : s'.pendingPhysicalEvents =
    s.pendingPhysicalEvents ++ ledgerEvents s.config s.physicalDescriptors call

section Refinement

variable (s : RuntimePolicy Req Layer)

omit [DecidableEq Layer] in
theorem requestKeys_drop (ledger : Ledger Req Layer) (requestId : Req) :
    ((ledger.entries.filter fun e => decide (e.1.1 = requestId)).map
      fun e => (.drop e.1 : LedgerOp Req Layer)) = (requestKeys ledger requestId).map .drop := by
  simp [requestKeys, Dict.keys, List.filter_map, Function.comp_def]

omit [DecidableEq Layer] in
theorem requestKeys_eq_nil (ledger : Ledger Req Layer) (requestId : Req) :
    (ledger.entries.filter fun e => decide (e.1.1 = requestId)).map Prod.snd = [] ↔
      requestKeys ledger requestId = [] := by
  simp [requestKeys, Dict.keys, List.filter_map, Function.comp_def]

theorem forgetRequest_refines (h : Exact canonicalDescriptorKey s.index) (requestId : Req) :
    Refines s (.forgetRequest requestId) (s.forgetRequest requestId) := by
  have hloop := foldl_forgetDescriptor requestId s.physicalDescriptors.entries
    s.physicalDescriptors.nodup ⟨s.physicalDescriptors, s.canonicalDescriptorRefcounts, [], []⟩
    fun e he => Dict.get?_eq_some.mpr he
  simp only [List.nil_append, requestKeys_drop] at hloop
  obtain ⟨hex, hit, hrel⟩ := run_exact canonicalDescriptorKey
    ((requestKeys s.physicalDescriptors requestId).map .drop) s.index h
  simp only [index] at hex hit hrel
  refine ⟨rfl, ?_, ?_, ?_⟩
  · simp only [forgetRequest, hloop]
    exact hit
  · simp only [index, forgetRequest, hloop]
    exact hex
  · simp only [forgetRequest, hloop, ledgerEvents, ledgerReleases, ledgerUpdates,
      ne_eq, requestKeys_eq_nil]
    rw [← hrel]
    split
    · rfl
    · rw [List.append_nil]

theorem ledgerUpdates_recorded {c : PolicyConfig Layer} {call : Call Req} {totalPages : Int}
    {logicalPages : List (Int × Bool)} (h : call.recorded c = some (totalPages, logicalPages))
    (ledger : Ledger Req Layer) : ledgerUpdates c ledger call =
      (recordChanges c ledger call.requestId totalPages logicalPages).map putDescriptor := by
  cases call with
  | forgetRequest q => cases h
  | recordAllocation => simp only [ledgerUpdates, h]
  | recordBlockIds => simp only [ledgerUpdates, h]

theorem ledgerEvents_recorded {c : PolicyConfig Layer} {call : Call Req} {totalPages : Int}
    {logicalPages : List (Int × Bool)} (h : call.recorded c = some (totalPages, logicalPages))
    (ledger : Ledger Req Layer) : ledgerEvents c ledger call =
      let changed := recordChanges c ledger call.requestId totalPages logicalPages
      if changed = [] then []
      else
        [{ requestId := call.requestId
           descriptors := changed
           totalPages
           recentStartPage := c.recentStartPage totalPages
           hotPages := c.hotPages totalPages
           releasedDescriptors := ledgerReleases c ledger call }] := by
  cases call with
  | forgetRequest q => cases h
  | recordAllocation => simp only [ledgerEvents, h]
  | recordBlockIds => simp only [ledgerEvents, h]

theorem recordPhysicalDescriptorsForPages_refines (h : Exact canonicalDescriptorKey s.index)
    {call : Call Req} {totalPages : Int} {logicalPages : List (Int × Bool)}
    (hcall : call.recorded s.config = some (totalPages, logicalPages)) :
    Refines s call (s.recordPhysicalDescriptorsForPages call.requestId totalPages
      (s.config.recentStartPage totalPages) (s.config.hotPages totalPages) logicalPages) := by
  have hloop := foldl_recordDescriptor
    (pageDescriptors s.config call.requestId totalPages (s.config.recentStartPage totalPages)
      logicalPages)
    (⟨s.physicalDescriptors, s.canonicalDescriptorRefcounts, [], []⟩ : RecordLoop Req Layer)
  simp only [List.nil_append, RecordLoop.index] at hloop
  rw [← recordChanges] at hloop
  have hops := ledgerUpdates_recorded hcall s.physicalDescriptors
  obtain ⟨hex, hit, hrel⟩ := run_exact canonicalDescriptorKey
    ((recordChanges s.config s.physicalDescriptors call.requestId totalPages
        logicalPages).map putDescriptor) s.index h
  simp only [index] at hex hit hrel
  refine ⟨rfl, ?_, ?_, ?_⟩
  · simp only [recordPhysicalDescriptorsForPages, hloop, hit, ledgerCall, hops]
  · simp only [index, recordPhysicalDescriptorsForPages, hloop]
    exact hex
  · rw [ledgerEvents_recorded hcall, ledgerReleases, hops, ← hrel]
    simp only [recordPhysicalDescriptorsForPages, hloop]
    by_cases hnil : recordChanges s.config s.physicalDescriptors call.requestId totalPages
        logicalPages = []
    · simp [hnil, run]
    · simp [hnil]

/-- A record that records nothing, and leaves what is tracked alone. -/
theorem refines_of_recorded_none (h : Exact canonicalDescriptorKey s.index)
    {s' : RuntimePolicy Req Layer} (hc : s'.config = s.config) (hi : s'.index = s.index)
    (hp : s'.pendingPhysicalEvents = s.pendingPhysicalEvents) {call : Call Req}
    (hu : ledgerUpdates s.config s.physicalDescriptors call = [])
    (he : ledgerEvents s.config s.physicalDescriptors call = []) : Refines s call s' where
  config := hc
  ledger := by
    rw [ledgerCall, hu]
    exact congrArg Index.items hi
  exact := hi ▸ h
  events := by rw [hp, he, List.append_nil]

theorem recordBlockIds_refines (h : Exact canonicalDescriptorKey s.index) (requestId : Req)
    (totalTokens : Int) (logicalBlockIds prefixCachedPageIndices : List Int) :
    Refines s (.recordBlockIds requestId totalTokens logicalBlockIds prefixCachedPageIndices)
      (s.recordPhysicalDescriptorsFromBlockIds requestId totalTokens logicalBlockIds
        prefixCachedPageIndices) := by
  unfold recordPhysicalDescriptorsFromBlockIds
  split
  · next hno =>
      have hrec : (Call.recordBlockIds requestId totalTokens logicalBlockIds
          prefixCachedPageIndices).recorded s.config = none := by
        refine if_neg fun hyes => ?_
        rcases hno with hno | hno
        · exact hno hyes.1
        · exact hyes.2 hno
      exact refines_of_recorded_none s h rfl rfl rfl (by simp only [ledgerUpdates, hrec])
        (by simp only [ledgerEvents, hrec])
  · next hyes =>
      rw [not_or, not_not] at hyes
      have hrec : (Call.recordBlockIds requestId totalTokens logicalBlockIds
          prefixCachedPageIndices).recorded s.config = some (_, _) := if_pos hyes
      exact recordPhysicalDescriptorsForPages_refines s h hrec

omit [DecidableEq Layer] in
theorem regularLiveBytes_config (requestId : Req) (blocksByGroup : List (List KVCacheBlock)) :
    (s.regularLiveBytes requestId blocksByGroup).2.config = s.config ∧
      (s.regularLiveBytes requestId blocksByGroup).2.index = s.index ∧
      (s.regularLiveBytes requestId blocksByGroup).2.pendingPhysicalEvents =
        s.pendingPhysicalEvents := by
  unfold regularLiveBytes
  dsimp only
  split
  · split <;> exact ⟨rfl, rfl, rfl⟩
  · exact ⟨rfl, rfl, rfl⟩

/-- What a call does depends on the configuration, the ledger and the queue only. -/
theorem Refines.of_same {s₀ s' : RuntimePolicy Req Layer} {call : Call Req}
    (h : Refines s call s') (hc : s.config = s₀.config)
    (hl : s.physicalDescriptors = s₀.physicalDescriptors)
    (hp : s.pendingPhysicalEvents = s₀.pendingPhysicalEvents) : Refines s₀ call s' where
  config := h.config.trans hc
  ledger := by rw [h.ledger, hc, hl]
  exact := h.exact
  events := by rw [h.events, hc, hl, hp]

/-- `record_allocation`, from any state that agrees with `s` on what is tracked. -/
theorem recordPhysicalDescriptors_refines (h : Exact canonicalDescriptorKey s.index)
    {s₁ : RuntimePolicy Req Layer} (hc : s₁.config = s.config) (hi : s₁.index = s.index)
    (hp : s₁.pendingPhysicalEvents = s.pendingPhysicalEvents) (requestId : Req)
    (totalTokens promptTokens : Int) (blocksByGroup : List (List KVCacheBlock))
    (hyes : s.config.enabled ∧ s.config.layers ≠ [] ∧ s.config.physical) :
    Refines s (.recordAllocation requestId totalTokens promptTokens blocksByGroup)
      (s₁.recordPhysicalDescriptors requestId (s₁.config.totalPages (max 1 totalTokens))
        (s₁.config.recentStartPage (s₁.config.totalPages (max 1 totalTokens)))
        (s₁.config.hotPages (s₁.config.totalPages (max 1 totalTokens))) blocksByGroup) := by
  cases blocksByGroup with
  | nil =>
      have hrec : (Call.recordAllocation requestId totalTokens promptTokens []).recorded s.config =
          none := if_pos hyes
      exact refines_of_recorded_none s h hc hi hp (by simp only [ledgerUpdates, hrec])
        (by simp only [ledgerEvents, hrec])
  | cons blocks rest =>
      have hrec : (Call.recordAllocation requestId totalTokens promptTokens
          (blocks :: rest)).recorded s₁.config = some (s₁.config.totalPages (max 1 totalTokens),
            logicalPagesOfBlocks blocks) := by
        rw [hc]
        exact if_pos hyes
      exact (recordPhysicalDescriptorsForPages_refines s₁ (hi ▸ h) hrec).of_same s₁ hc
        (congrArg Index.items hi) hp

theorem recordAllocation_refines (h : Exact canonicalDescriptorKey s.index) (requestId : Req)
    (totalTokens promptTokens : Int) (blocksByGroup : List (List KVCacheBlock)) :
    Refines s (.recordAllocation requestId totalTokens promptTokens blocksByGroup)
      (s.recordAllocation requestId totalTokens promptTokens blocksByGroup).2 := by
  have hskip : ∀ s' : RuntimePolicy Req Layer, s'.config = s.config → s'.index = s.index →
      s'.pendingPhysicalEvents = s.pendingPhysicalEvents →
      ¬ (s.config.enabled ∧ s.config.layers ≠ [] ∧ s.config.physical) →
      Refines s (.recordAllocation requestId totalTokens promptTokens blocksByGroup) s' := by
    intro s' hc hi hp hno
    have hrec : (Call.recordAllocation requestId totalTokens promptTokens
        blocksByGroup).recorded s.config = none := if_neg hno
    exact refines_of_recorded_none s h hc hi hp (by simp only [ledgerUpdates, hrec])
      (by simp only [ledgerEvents, hrec])
  obtain ⟨hc, hi, hp⟩ := regularLiveBytes_config s requestId blocksByGroup
  unfold recordAllocation
  split
  · next hno =>
      refine hskip s rfl rfl rfl fun hyes => ?_
      rcases hno with hno | hno
      · exact hno hyes.1
      · exact hyes.2.1 hno
  · next hyes =>
      rw [not_or, not_not] at hyes
      dsimp only
      split
      · next hphys =>
          refine recordPhysicalDescriptors_refines s h ?_ ?_ ?_ requestId totalTokens promptTokens
            blocksByGroup ⟨hyes.1, hyes.2, hc ▸ hphys⟩
          · exact hc
          · exact hi
          · exact hp
      · next hphys => exact hskip _ hc hi hp fun hall => hphys (hc.symm ▸ hall.2.2)

/-- A call on a policy with exact counters does what the ledger machine does. -/
theorem call_refines (h : Exact canonicalDescriptorKey s.index) (call : Call Req) :
    Refines s call (s.call call) := by
  cases call with
  | recordAllocation q t p bs => exact recordAllocation_refines s h q t p bs
  | recordBlockIds q t ids ps => exact recordBlockIds_refines s h q t ids ps
  | forgetRequest q => exact forgetRequest_refines s h q

/-- The events that a call queues. -/
def RuntimePolicy.queuedBy (s : RuntimePolicy Req Layer) (call : Call Req) :
    List (PhysicalEvent Req Layer) :=
  (s.call call).pendingPhysicalEvents.drop s.pendingPhysicalEvents.length

theorem queuedBy_eq (h : Exact canonicalDescriptorKey s.index) (call : Call Req) :
    s.queuedBy call = ledgerEvents s.config s.physicalDescriptors call := by
  rw [queuedBy, (call_refines s h call).events, List.drop_left]

/-- The policy after a list of calls. -/
def RuntimePolicy.calls (s : RuntimePolicy Req Layer) (calls : List (Call Req)) :
    RuntimePolicy Req Layer := calls.foldl RuntimePolicy.call s

theorem calls_exact (calls : List (Call Req)) (h : Exact canonicalDescriptorKey s.index) :
    Exact canonicalDescriptorKey (s.calls calls).index := by
  induction calls generalizing s with
  | nil => exact h
  | cons call calls ih => exact ih (s.call call) (call_refines s h call).exact

theorem calls_config (calls : List (Call Req)) (h : Exact canonicalDescriptorKey s.index) :
    (s.calls calls).config = s.config := by
  induction calls generalizing s with
  | nil => rfl
  | cons call calls ih =>
      have hr := call_refines s h call
      exact (ih (s.call call) hr.exact).trans hr.config

end Refinement

/-! ## The counters -/

omit [DecidableEq Req] in
theorem exact_new (c : PolicyConfig Layer) :
    Exact canonicalDescriptorKey ({ config := c } : RuntimePolicy Req Layer).index :=
  exact_empty canonicalDescriptorKey

/-- What the events of a call release is what the ledger machine releases. -/
theorem ledgerEvents_releasedDescriptors {c : PolicyConfig Layer} (hc : c.policy = .physical)
    (ledger : Ledger Req Layer) (call : Call Req) :
    (ledgerEvents c ledger call).flatMap PhysicalEvent.releasedDescriptors =
      ledgerReleases c ledger call := by
  have hphys : c.physical = true := by simp [PolicyConfig.physical, hc]
  -- without updates nothing is released, and no event is queued
  have hnil : ledgerUpdates c ledger call = [] → ledgerReleases c ledger call = [] := by
    intro h
    rw [ledgerReleases, h]
    rfl
  cases hrec : call.recorded c with
  | some r =>
      obtain ⟨totalPages, logicalPages⟩ := r
      rw [ledgerEvents_recorded hrec]
      dsimp only
      split
      · next h =>
          have hu := ledgerUpdates_recorded hrec ledger
          rw [h] at hu
          exact (hnil hu).symm
      · simp
  | none =>
      cases call with
      | forgetRequest q =>
          simp only [ledgerEvents, hphys, true_and]
          split
          · simp
          · next h =>
              rw [not_not] at h
              refine (hnil ?_).symm
              simp [ledgerUpdates, h]
      | recordAllocation =>
          simp only [ledgerEvents, hrec]
          exact (hnil (by simp only [ledgerUpdates, hrec])).symm
      | recordBlockIds =>
          simp only [ledgerEvents, hrec]
          exact (hnil (by simp only [ledgerUpdates, hrec])).symm

/-- How many tracked descriptors are kept canonically under a (layer, block, role). -/
def canonicalDescriptorCount (ledger : Ledger Req Layer) (key : Layer × Int × PageRole) : Nat :=
  ledger.count fun _ d => decide (canonicalDescriptorKey d = some key)

/-- The descriptors that a call put into `released_descriptors`. -/
def releasedBy (s : RuntimePolicy Req Layer) (call : Call Req) :
    List (PhysicalPageDescriptor Req Layer) :=
  (s.queuedBy call).flatMap PhysicalEvent.releasedDescriptors

/-- **Reference counts are exact.** After any calls on a new physical policy, and one more
    call: the count stored for a key is the number of tracked canonical descriptors with that
    key, and no zero is stored; the descriptors the call released are those whose removal or
    replacement took the number of descriptors with their key from one to zero. -/
theorem refcounts_exact (c : PolicyConfig Layer) (hc : c.policy = .physical)
    (calls : List (Call Req)) (call : Call Req) :
    let s := ({ config := c } : RuntimePolicy Req Layer).calls calls
    (∀ key, (s.call call).canonicalDescriptorRefcounts.get? key =
        if canonicalDescriptorCount (s.call call).physicalDescriptors key = 0 then none
        else some (canonicalDescriptorCount (s.call call).physicalDescriptors key)) ∧
      releasedBy s call =
        releases canonicalDescriptorKey s.physicalDescriptors
          (ledgerUpdates c s.physicalDescriptors call) := by
  intro s
  have hs : Exact canonicalDescriptorKey s.index := calls_exact _ calls (exact_new c)
  have hcfg : s.config = c := calls_config _ calls (exact_new c)
  have hr := call_refines s hs call
  refine ⟨hr.exact, ?_⟩
  rw [releasedBy, queuedBy_eq s hs, hcfg]
  exact ledgerEvents_releasedDescriptors hc s.physicalDescriptors call

/-- A physical policy for one layer, with pages of one token. -/
def onePhysicalLayer : PolicyConfig Nat where
  policy := .physical
  hotBudgetPct := 25
  pageTokens := 1
  layers := [⟨0, 0, 1, 1, 1, 2⟩]
  pageTokens_pos := Nat.one_pos

/-- Two requests share block 7; forgetting the first releases its other block only. -/
theorem refcounts_exact_sharedBlock :
    let s := ({ config := onePhysicalLayer } : RuntimePolicy Nat Nat).calls
      [.recordBlockIds 0 2 [7, 8] [], .recordBlockIds 1 2 [7, 9] []]
    (releasedBy s (.forgetRequest 0)).map PhysicalPageDescriptor.logicalBlockId = [8] ∧
      (s.call (.forgetRequest 0)).canonicalDescriptorRefcounts.get? (0, 7, .pinnedRaw) =
        (if canonicalDescriptorCount (s.call (.forgetRequest 0)).physicalDescriptors
            (0, 7, .pinnedRaw) = 0 then none
          else some (canonicalDescriptorCount (s.call (.forgetRequest 0)).physicalDescriptors
            (0, 7, .pinnedRaw))) ∧
      releasedBy s (.forgetRequest 0) = releases canonicalDescriptorKey s.physicalDescriptors
        (ledgerUpdates onePhysicalLayer s.physicalDescriptors (.forgetRequest 0)) := by
  intro s
  have hexact := refcounts_exact onePhysicalLayer rfl
    [.recordBlockIds 0 2 [7, 8] [], .recordBlockIds 1 2 [7, 9] []] (.forgetRequest 0)
  exact ⟨by decide +kernel, hexact.1 (0, 7, .pinnedRaw), hexact.2⟩

end Sock.Tmh
