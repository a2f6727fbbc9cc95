/-
  The system: a physical policy at the scheduler, a runtime at the worker.

  In a scheduling step the policy takes calls; then its queue is drained and the worker applies
  the events with the step's map from requests to rows (`System.step`). A run is a list of such
  segments. The worker can as well apply the events of each call at once (`System.tick`): the
  end state is the same (`step_eq_ticks`), so results about runs are proved call by call.

  * `tick_ticked`: what a call with its events does to ledger, slots and rows.
  * `RunRule.run`, `RunRule.error`: an invariant that every tick keeps holds after every run; a
    run that raises does so in a state that satisfies it. `RunRule.moments`: it holds before every
    call of a run.

  Not modelled: the transport of the events between scheduler and worker (they arrive in order,
  each once), and what a worker does after a raise.
-/
import Sock.Tmh.Events

namespace Sock.Tmh

open Lib Lib.Fallible Lib.RefCount PhysicalRuntime

/-! ## Deployments -/

/-- A physical policy, and at the worker one cache for each of its layers. -/
structure Deployment (Layer : Type) where
  policy : PolicyConfig Layer
  physical : policy.policy = .physical
  nodup : policy.layerNames.Nodup
  specs : Layer → FullAttentionSpec
  numLogicalBlocks : Nat

/-- The layout of a layer's cache. -/
def Deployment.layout {Layer : Type} (D : Deployment Layer) (l : Layer) : CacheLayout :=
  (D.specs l).layout D.numLogicalBlocks

/-- The layouts of the registered caches. -/
def Deployment.layouts {Layer : Type} (D : Deployment Layer) : Dict Layer CacheLayout where
  entries := D.policy.layerNames.map fun l => (l, D.layout l)
  nodup := by
    rw [List.map_map]
    exact (List.map_id _).symm ▸ D.nodup

/-- What the policy is called with in one scheduling step, and the rows of that step. -/
structure Segment (Req : Type) where
  calls : List (Call Req)
  reqIdToIndex : Dict Req Nat

/-- Policy, length of each recorded request, rows of the last step, and runtime. -/
structure System (Req Layer : Type) where
  policy : RuntimePolicy Req Layer
  lengths : Dict Req Int
  rows : Dict Req Nat
  runtime : PhysicalRuntime Req Layer

variable {Req Layer : Type} [DecidableEq Layer]

theorem Deployment.layouts_get? (D : Deployment Layer) {l : Layer} (hl : l ∈ D.policy.layerNames) :
    D.layouts.get? l = some (D.layout l) :=
  Dict.get?_eq_some.mpr (List.mem_map.mpr ⟨l, hl, rfl⟩)

theorem Deployment.eq_of_layouts (D : Deployment Layer) {l : Layer} {cache : CacheLayout}
    (h : D.layouts.get? l = some cache) : l ∈ D.policy.layerNames ∧ cache = D.layout l := by
  obtain ⟨l', hl', he⟩ := List.mem_map.mp (Dict.get?_eq_some.mp h)
  cases he
  exact ⟨hl', rfl⟩

theorem Deployment.registered (D : Deployment Layer) : Registered D.layouts.get? D.policy :=
  fun _ => ⟨fun ⟨_, h⟩ => (D.eq_of_layouts h).1, fun h => ⟨_, D.layouts_get? h⟩⟩

variable [DecidableEq Req]

/-- A new policy, and a runtime with new caches. -/
def Deployment.start (D : Deployment Layer) : System Req Layer where
  policy := { config := D.policy }
  lengths := .empty
  rows := .empty
  runtime := registerCaches (D.layouts.mapValues .fresh)

omit [DecidableEq Req] in
@[simp] theorem Deployment.start_canonicalSlots (D : Deployment Layer) :
    (D.start : System Req Layer).runtime.canonicalSlots = .empty := registerCaches_canonicalSlots _

omit [DecidableEq Req] in
@[simp] theorem Deployment.start_overlaySlots (D : Deployment Layer) :
    (D.start : System Req Layer).runtime.overlaySlots = .empty := registerCaches_overlaySlots _

omit [DecidableEq Req] in
theorem Deployment.start_entry (D : Deployment Layer) {l : Layer} {row page : Nat} {e : RowEntry}
    (h : (D.start : System Req Layer).runtime.entry l row page = some e) : e = .blank := by
  obtain ⟨cache, hc, rfl⟩ := Option.map_eq_some_iff.mp h
  rw [Deployment.start, registerCaches_caches, Dict.get?_mapValues] at hc
  obtain ⟨layout, -, rfl⟩ := Option.map_eq_some_iff.mp hc
  rfl

/-- The length of a request is what its last record says. -/
def noteLength (lengths : Dict Req Int) : Call Req → Dict Req Int
  | .recordAllocation requestId totalTokens _ _ => lengths.set requestId totalTokens
  | .recordBlockIds requestId totalTokens _ _ => lengths.set requestId totalTokens
  | .forgetRequest requestId => lengths.erase requestId

namespace System

/-- The tracked descriptors. -/
abbrev ledger (s : System Req Layer) : Ledger Req Layer := s.policy.physicalDescriptors

/-- A scheduling step: the calls, then the drained events with the step's rows. -/
def step (s : System Req Layer) (seg : Segment Req) :
    Except (RuntimeError Req Layer) (System Req Layer) :=
  let (events, policy) := (s.policy.calls seg.calls).takePhysicalEvents
  match (applyEvents events seg.reqIdToIndex).run s.runtime with
  | .ok _ runtime =>
      .ok { policy
            lengths := seg.calls.foldl noteLength s.lengths
            rows := seg.reqIdToIndex
            runtime }
  | .error e _ => .error e

/-- One call, with its events applied at once. -/
def tick (s : System Req Layer) (call : Call Req) :
    Except (RuntimeError Req Layer) (System Req Layer) :=
  match (applyEvents (s.policy.queuedBy call) s.rows).run s.runtime with
  | .ok _ runtime =>
      .ok { policy := s.policy.call call
            lengths := noteLength s.lengths call
            rows := s.rows
            runtime }
  | .error e _ => .error e

/-- Enter a scheduling step with its rows. -/
def enter (s : System Req Layer) (seg : Segment Req) : System Req Layer :=
  { s with rows := seg.reqIdToIndex }

/-- Empty the queue. -/
def drain (s : System Req Layer) : System Req Layer :=
  { s with policy := s.policy.takePhysicalEvents.2 }

/-- The calls of a run, each with the state before it. -/
def moments (s : System Req Layer) (segs : List (Segment Req)) :
    List (System Req Layer × Call Req) :=
  (trace step s segs).flatMap fun x => trace tick (x.1.enter x.2) x.2.calls

end System

/-- The state after a run. -/
def Deployment.run (D : Deployment Layer) (segs : List (Segment Req)) :
    Except (RuntimeError Req Layer) (System Req Layer) := segs.foldlM System.step D.start

/-! ## Applying call by call -/

/-- The events that a list of calls queues. -/
def RuntimePolicy.queued (s : RuntimePolicy Req Layer) : List (Call Req) →
    List (PhysicalEvent Req Layer)
  | [] => []
  | call :: calls => s.queuedBy call ++ (s.call call).queued calls

theorem calls_events (calls : List (Call Req)) (s : RuntimePolicy Req Layer)
    (h : Exact canonicalDescriptorKey s.index) :
    (s.calls calls).pendingPhysicalEvents = s.pendingPhysicalEvents ++ s.queued calls := by
  induction calls generalizing s with
  | nil => simp [RuntimePolicy.calls, RuntimePolicy.queued]
  | cons call calls ih =>
      have hr := call_refines s h call
      have hnext := ih (s.call call) hr.exact
      rw [hr.events, ← queuedBy_eq s h call, List.append_assoc] at hnext
      exact hnext

/-- Applying all events of a list of calls is applying each call's events in turn. -/
theorem foldlM_tick (calls : List (Call Req)) (s : System Req Layer) :
    calls.foldlM System.tick s =
      match (applyEvents (s.policy.queued calls) s.rows).run s.runtime with
      | .ok _ runtime =>
          .ok { policy := s.policy.calls calls
                lengths := calls.foldl noteLength s.lengths
                rows := s.rows
                runtime }
      | .error e _ => .error e := by
  induction calls generalizing s with
  | nil => rfl
  | cons call calls ih =>
      have hsplit : applyEvents (s.policy.queued (call :: calls)) s.rows =
          (applyEvents (s.policy.queuedBy call) s.rows >>= fun _ =>
            applyEvents ((s.policy.call call).queued calls) s.rows) := List.forM_append
      rw [hsplit, List.foldlM_cons, EStateM.run_bind, System.tick]
      cases (applyEvents (s.policy.queuedBy call) s.rows).run s.runtime with
      | ok _ runtime => exact ih _
      | error e _ => rfl

/-- **Call by call.** A scheduling step ends where its calls end when the events of each call
    are applied at once, and raises when they raise. -/
theorem step_eq_ticks (s : System Req Layer) (seg : Segment Req)
    (h : Exact canonicalDescriptorKey s.policy.index) (hp : s.policy.pendingPhysicalEvents = []) :
    s.step seg = (seg.calls.foldlM System.tick (s.enter seg)).map System.drain := by
  rw [foldlM_tick]
  have hev := calls_events seg.calls s.policy h
  rw [hp, List.nil_append] at hev
  simp only [System.step, RuntimePolicy.takePhysicalEvents, hev, System.enter]
  cases (applyEvents (s.policy.queued seg.calls) seg.reqIdToIndex).run s.runtime with
  | ok _ runtime => rfl
  | error e _ => rfl

/-! ## What a tick does -/

/-- What holds in every state of a run, between calls. -/
structure SystemInv (D : Deployment Layer) (s : System Req Layer) : Prop where
  config : s.policy.config = D.policy
  exact : Exact canonicalDescriptorKey s.policy.index
  ledger : LedgerInv D.policy s.ledger
  pool : PoolInv D.layouts.get? s.runtime

theorem systemInv_start (D : Deployment Layer) : SystemInv D (D.start : System Req Layer) where
  config := rfl
  exact := exact_new D.policy
  ledger := LedgerInv.empty D.policy
  pool := registerCaches_poolInv D.layouts

/-- A record of changed pages, with its event applied: the release phase ends in `rt`, the
    descriptor loop in the new runtime. -/
structure Recorded (D : Deployment Layer) (s : System Req Layer) (call : Call Req)
    (s' : System Req Layer) (event : PhysicalEvent Req Layer) (row : Nat)
    (rt : PhysicalRuntime Req Layer) : Prop where
  queued : s.policy.queuedBy call = [event]
  recorded : ∃ logicalPages, call.recorded D.policy = some (event.totalPages, logicalPages) ∧
    event.descriptors =
      recordChanges D.policy s.ledger event.requestId event.totalPages logicalPages
  request : event.requestId = call.requestId
  ledger : s'.ledger = (s.policy.call call).physicalDescriptors
  spec : RecordSpec D.policy s.ledger s'.ledger event
  hasRow : s.rows.get? event.requestId = some row
  prepare : (prepareEvent s.rows event).run s.runtime = .ok () rt
  prepared : Prepared D.layouts.get? s.runtime event row rt
  loop : (event.descriptors.forM (applyEventDescriptor s.rows event.totalPages)).run rt =
    .ok () s'.runtime
  loopState : LoopState D.layouts.get? rt row event.descriptors s'.runtime

/-- A forgotten request, with its event applied. -/
structure Forgotten (D : Deployment Layer) (s : System Req Layer) (call : Call Req)
    (s' : System Req Layer) (event : PhysicalEvent Req Layer) : Prop where
  call : call = .forgetRequest event.requestId
  spec : ForgetSpec s.ledger s'.ledger event
  freed : Freed D.layouts.get? s.runtime event.requestId event.releasedDescriptors s'.runtime
  entry : ∀ l row page, s'.runtime.entry l row page = s.runtime.entry l row page

/-- A call with its events: nothing, a record of changed pages, or a forgotten request. -/
inductive Ticked (D : Deployment Layer) (s : System Req Layer) (call : Call Req)
    (s' : System Req Layer) : Prop where
  | silent (hqueued : s.policy.queuedBy call = [])
      (hidle : ∀ q, call = .forgetRequest q → requestKeys s.ledger q = [])
      (hledger : s'.ledger = s.ledger) (hruntime : s'.runtime = s.runtime)
  | record {event : PhysicalEvent Req Layer} {row : Nat} {rt : PhysicalRuntime Req Layer}
      (h : Recorded D s call s' event row rt)
  | forget {event : PhysicalEvent Req Layer} (h : Forgotten D s call s' event)

/-- One call of a run, from state `s` to state `s'`. -/
structure Tick (D : Deployment Layer) (s : System Req Layer) (call : Call Req)
    (s' : System Req Layer) : Prop where
  before : SystemInv D s
  after : SystemInv D s'
  policy : s'.policy = s.policy.call call
  rows : s'.rows = s.rows
  lengths : s'.lengths = noteLength s.lengths call
  ticked : Ticked D s call s'

theorem applyEvents_singleton (event : PhysicalEvent Req Layer) (rows : Dict Req Nat)
    (rt : PhysicalRuntime Req Layer) :
    (applyEvents [event] rows).run rt = (applyEvent rows event).run rt := by
  have h : applyEvents [event] rows =
      (applyEvent rows event >>= fun _ => (pure () : RuntimeM Req Layer Unit)) := rfl
  rw [h, EStateM.run_bind]
  cases (applyEvent rows event).run rt <;> rfl

namespace SystemInv

variable {D : Deployment Layer} {s s' : System Req Layer} {call : Call Req}

theorem callSpec (h : SystemInv D s) (call : Call Req) :
    CallSpec D.policy s.ledger call (s.policy.call call).physicalDescriptors
      (s.policy.queuedBy call) := by
  rw [(call_refines s.policy h.exact call).ledger, queuedBy_eq s.policy h.exact call, h.config]
  exact ledgerCall_spec D.physical D.nodup h.ledger call

theorem tick (h : SystemInv D s) (ht : s.tick call = .ok s') : SystemInv D s' := by
  unfold System.tick at ht
  have hr := call_refines s.policy h.exact call
  have hkeep := applyEvents_keeps (s.policy.queuedBy call) s.rows s.runtime h.pool
  split at ht
  · next hrun =>
      cases ht
      rw [hrun] at hkeep
      exact ⟨hr.config.trans h.config, hr.exact, (h.callSpec call).ledgerInv h.ledger, hkeep⟩
  · cases ht

end SystemInv

theorem tick_ticked {D : Deployment Layer} {s s' : System Req Layer} {call : Call Req}
    (h : SystemInv D s) (ht : s.tick call = .ok s') : Tick D s call s' := by
  have hspec := h.callSpec call
  have hafter := h.tick ht
  unfold System.tick at ht
  split at ht
  swap
  · cases ht
  next hrun =>
    cases ht
    refine ⟨h, hafter, rfl, rfl, rfl, ?_⟩
    generalize hl' : (s.policy.call call).physicalDescriptors = ledger' at hspec
    generalize hev : s.policy.queuedBy call = events at hspec hrun
    cases hspec with
    | silent hidle =>
        cases hrun
        exact .silent hev hidle hl' rfl
    | record hcall hq hchanges hrec =>
        rw [applyEvents_singleton] at hrun
        obtain ⟨_, rt, hprepare, hloop⟩ := run_bind_ok.mp hrun
        obtain ⟨row, hrow, hp⟩ := prepared_of_ok D.registered h.ledger h.pool hrec hprepare
        subst hl'
        exact .record ⟨hev, ⟨_, hcall, hchanges⟩, hq, rfl, hrec, hrow, hprepare, hp, hloop,
          loopState_of_ok hp.freed.inv hrec hrow hloop⟩
    | forget hcall hfor =>
        rw [applyEvents_singleton] at hrun
        obtain ⟨rt', hrun', hf, hentry⟩ := applyEvent_forget_run D.registered h.ledger h.pool hfor
        rw [hrun'] at hrun
        cases hrun
        subst hl'
        exact .forget ⟨hcall, hfor, hf, hentry⟩

/-- A tick that raises raises no exhaustion, or raises in the descriptor loop of a record. -/
theorem tick_error {D : Deployment Layer} {s : System Req Layer} {call : Call Req}
    {e : RuntimeError Req Layer} (h : SystemInv D s) (ht : s.tick call = .error e) :
    e.NotExhausted ∨ ∃ event logicalPages row rt rt', s.policy.queuedBy call = [event] ∧
      call.recorded D.policy = some (event.totalPages, logicalPages) ∧
      event.descriptors =
        recordChanges D.policy s.ledger event.requestId event.totalPages logicalPages ∧
      event.requestId = call.requestId ∧
      RecordSpec D.policy s.ledger (s.policy.call call).physicalDescriptors event ∧
      (prepareEvent s.rows event).run s.runtime = .ok () rt ∧
      Prepared D.layouts.get? s.runtime event row rt ∧
      (event.descriptors.forM (applyEventDescriptor s.rows event.totalPages)).run rt =
        .error e rt' := by
  have hspec := h.callSpec call
  unfold System.tick at ht
  split at ht
  · cases ht
  next hrun =>
    cases ht
    generalize (s.policy.call call).physicalDescriptors = ledger' at hspec ⊢
    generalize s.policy.queuedBy call = events at hspec hrun ⊢
    cases hspec with
    | silent => cases hrun
    | record hcall hq hchanges hrec =>
        rw [applyEvents_singleton] at hrun
        rcases run_bind_error.mp hrun with hprepare | ⟨_, rt, hprepare, hloop⟩
        · exact .inl (prepareEvent_error D.registered h.ledger h.pool hrec hprepare)
        · obtain ⟨row, -, hp⟩ := prepared_of_ok D.registered h.ledger h.pool hrec hprepare
          exact .inr ⟨_, _, row, rt, _, rfl, hcall, hchanges, hq, hrec, hprepare, hp, hloop⟩
    | forget hcall hfor =>
        rw [applyEvents_singleton] at hrun
        obtain ⟨rt', hrun', -⟩ := applyEvent_forget_run D.registered h.ledger h.pool hfor
        rw [hrun'] at hrun
        cases hrun

/-! ## Applied descriptors -/

/-- The application of one descriptor: what is tracked after the call that queued it, the
    runtime before the application, the event's page count and the descriptor. -/
structure Site (Req Layer : Type) where
  ledger : Ledger Req Layer
  runtime : PhysicalRuntime Req Layer
  totalPages : Int
  descriptor : PhysicalPageDescriptor Req Layer

/-- The applications of descriptors that a call leads to. -/
def System.sites (s : System Req Layer) (call : Call Req) : List (Site Req Layer) :=
  (visits (applyEvent s.rows) (s.policy.queuedBy call) s.runtime).flatMap fun v =>
    match (prepareEvent s.rows v.2).run v.1 with
    | .ok _ rt =>
        (visits (applyEventDescriptor s.rows v.2.totalPages) v.2.descriptors rt).map fun w =>
          { ledger := (s.policy.call call).physicalDescriptors
            runtime := w.1
            totalPages := v.2.totalPages
            descriptor := w.2 }
    | .error _ _ => []

/-- A condition on every application is one on every visit of the loop. -/
theorem visits_of_sites {s : System Req Layer} {call : Call Req}
    {event : PhysicalEvent Req Layer} {rt : PhysicalRuntime Req Layer} {C : Site Req Layer → Prop}
    (hqueued : s.policy.queuedBy call = [event])
    (hprepare : (prepareEvent s.rows event).run s.runtime = .ok () rt)
    (hC : ∀ site ∈ s.sites call, C site) :
    ∀ v ∈ visits (applyEventDescriptor s.rows event.totalPages) event.descriptors rt,
      C ⟨(s.policy.call call).physicalDescriptors, v.1, event.totalPages, v.2⟩ := by
  intro v hv
  apply hC
  unfold System.sites
  rw [hqueued]
  rw [visits_singleton]
  refine List.mem_flatMap.mpr ⟨(s.runtime, event), List.mem_singleton_self _, ?_⟩
  rw [hprepare]
  exact List.mem_map.mpr ⟨v, hv, rfl⟩

/-- An application belongs to the descriptor loop of a record. -/
theorem SystemInv.mem_sites {D : Deployment Layer} {s : System Req Layer} (h : SystemInv D s)
    {call : Call Req} {site : Site Req Layer} (hsite : site ∈ s.sites call) :
    ∃ event logicalPages row rt, call.recorded D.policy = some (event.totalPages, logicalPages) ∧
      RecordSpec D.policy s.ledger (s.policy.call call).physicalDescriptors event ∧
      Prepared D.layouts.get? s.runtime event row rt ∧
      ∃ v ∈ visits (applyEventDescriptor s.rows event.totalPages) event.descriptors rt,
        site = ⟨(s.policy.call call).physicalDescriptors, v.1, event.totalPages, v.2⟩ := by
  have hspec := h.callSpec call
  unfold System.sites at hsite
  generalize (s.policy.call call).physicalDescriptors = ledger' at hspec hsite ⊢
  generalize s.policy.queuedBy call = events at hspec hsite
  obtain ⟨v, hv, hsite⟩ := List.mem_flatMap.mp hsite
  cases hspec with
  | silent => cases hv
  | @record _ event _ hcall hq hchanges hrec =>
      rw [visits_singleton] at hv
      cases List.mem_singleton.mp hv
      dsimp only at hsite
      split at hsite
      · next rt hprepare =>
          obtain ⟨w, hw, rfl⟩ := List.mem_map.mp hsite
          obtain ⟨row, -, hp⟩ := prepared_of_ok D.registered h.ledger h.pool hrec hprepare
          exact ⟨event, _, row, rt, hcall, hrec, hp, w, hw, rfl⟩
      · cases hsite
  | @forget _ event hcall hfor =>
      rw [visits_singleton] at hv
      cases List.mem_singleton.mp hv
      dsimp only at hsite
      rw [hfor.descriptors] at hsite
      split at hsite
      · cases hsite
      · cases hsite

/-- What the placement of each descriptor of a list must keep, for `J` to hold along the loop:
    `J rest` holds with the descriptors `rest` still to come, and `C` may be assumed of every
    application. -/
def LoopKeeps (D : Deployment Layer) (ledger : Ledger Req Layer) (totalPages : Int)
    (ds : List (PhysicalPageDescriptor Req Layer)) (C : Site Req Layer → Prop)
    (J : List (PhysicalPageDescriptor Req Layer) → PhysicalRuntime Req Layer → Prop) : Prop :=
  ∀ d rest, d ∈ ds → ∀ rt rt' row page slot, C ⟨ledger, rt, totalPages, d⟩ →
    PoolInv D.layouts.get? rt → PlacedAt rt (D.layout d.layerName) totalPages d row page slot rt' →
    J (d :: rest) rt → J rest rt'

section Loop

variable {D : Deployment Layer} {ledger : Ledger Req Layer} {totalPages : Int}
  {ds : List (PhysicalPageDescriptor Req Layer)} {C : Site Req Layer → Prop}
  {J : List (PhysicalPageDescriptor Req Layer) → PhysicalRuntime Req Layer → Prop}
  {rows : Dict Req Nat} {rt rt' : PhysicalRuntime Req Layer}

theorem LoopKeeps.step (h : LoopKeeps D ledger totalPages ds C J)
    (d : PhysicalPageDescriptor Req Layer) (rest : List (PhysicalPageDescriptor Req Layer))
    (s s' : PhysicalRuntime Req Layer) (hC : C ⟨ledger, s, totalPages, d⟩)
    (hI : (∀ e ∈ d :: rest, e ∈ ds) ∧ PoolInv D.layouts.get? s ∧ J (d :: rest) s)
    (hrun : (applyEventDescriptor rows totalPages d).run s = .ok () s') :
    (∀ e ∈ rest, e ∈ ds) ∧ PoolInv D.layouts.get? s' ∧ J rest s' := by
  obtain ⟨hds, hinv, hJ⟩ := hI
  obtain ⟨cache, row, page, slot, hl, -, hp⟩ := placed_of_ok hinv hrun
  have hinv' : PoolInv D.layouts.get? s' := by
    have hkeep := applyEventDescriptor_keeps rows totalPages d s hinv
    rwa [hrun] at hkeep
  rw [(D.eq_of_layouts hl).2] at hp
  exact ⟨fun e he => hds e (List.mem_cons_of_mem _ he), hinv',
    h d rest (hds d List.mem_cons_self) s s' row page slot hC hinv hp hJ⟩

/-- Loop rule for a descriptor loop that does not raise. -/
theorem LoopKeeps.ok (h : LoopKeeps D ledger totalPages ds C J)
    (hC : ∀ v ∈ visits (applyEventDescriptor rows totalPages) ds rt,
      C ⟨ledger, v.1, totalPages, v.2⟩)
    (hinv : PoolInv D.layouts.get? rt) (hJ : J ds rt)
    (hrun : (ds.forM (applyEventDescriptor rows totalPages)).run rt = .ok () rt') : J [] rt' :=
  ((forM_rule (I := fun rest s => (∀ e ∈ rest, e ∈ ds) ∧ PoolInv D.layouts.get? s ∧ J rest s)
    (C := fun s d => C ⟨ledger, s, totalPages, d⟩) h.step ds rt hC ⟨fun _ h => h, hinv, hJ⟩).1
    rt' hrun).2.2

/-- Loop rule for a descriptor loop that raises: an application raises, in a state with `J`. -/
theorem LoopKeeps.error (h : LoopKeeps D ledger totalPages ds C J) {e : RuntimeError Req Layer}
    (hC : ∀ v ∈ visits (applyEventDescriptor rows totalPages) ds rt,
      C ⟨ledger, v.1, totalPages, v.2⟩)
    (hinv : PoolInv D.layouts.get? rt) (hJ : J ds rt)
    (hrun : (ds.forM (applyEventDescriptor rows totalPages)).run rt = .error e rt') :
    ∃ d rest s, d ∈ ds ∧ C ⟨ledger, s, totalPages, d⟩ ∧ PoolInv D.layouts.get? s ∧
      J (d :: rest) s ∧ (applyEventDescriptor rows totalPages d).run s = .error e rt' := by
  obtain ⟨d, rest, s, hCs, ⟨hds, hinv, hJ⟩, hrun⟩ :=
    (forM_rule (I := fun rest s => (∀ e ∈ rest, e ∈ ds) ∧ PoolInv D.layouts.get? s ∧ J rest s)
      (C := fun s d => C ⟨ledger, s, totalPages, d⟩) h.step ds rt hC ⟨fun _ h => h, hinv, hJ⟩).2
      e rt' hrun
  exact ⟨d, rest, s, hds d List.mem_cons_self, hCs, hinv, hJ, hrun⟩

/-- An invariant of the loop holds at every visit. -/
theorem LoopKeeps.visits {J : PhysicalRuntime Req Layer → Prop}
    (h : LoopKeeps D ledger totalPages ds (fun _ => True) fun _ => J)
    (hinv : PoolInv D.layouts.get? rt) (hJ : J rt) :
    ∀ v ∈ visits (applyEventDescriptor rows totalPages) ds rt,
      (PoolInv D.layouts.get? v.1 ∧ J v.1) ∧ v.2 ∈ ds :=
  visits_invariant (fun d hd s s' hI hrun => (h.step d [] s s' trivial
    ⟨fun e he => by cases List.mem_singleton.mp he; exact hd, hI⟩ hrun).2) ⟨hinv, hJ⟩

end Loop

/-- The loop rule for a record of a run. -/
theorem Recorded.loop_rule {D : Deployment Layer} {s s' : System Req Layer} {call : Call Req}
    {event : PhysicalEvent Req Layer} {row : Nat} {rt : PhysicalRuntime Req Layer}
    (h : Recorded D s call s' event row rt) {C : Site Req Layer → Prop}
    {J : List (PhysicalPageDescriptor Req Layer) → PhysicalRuntime Req Layer → Prop}
    (hC : ∀ site ∈ s.sites call, C site)
    (hkeeps : LoopKeeps D s'.ledger event.totalPages event.descriptors C J)
    (hJ : J event.descriptors rt) : J [] s'.runtime := by
  refine hkeeps.ok ?_ h.prepared.freed.inv hJ h.loop
  rw [h.ledger]
  exact visits_of_sites h.queued h.prepare hC

/-! ## Runs -/

/-- Rows are injective within a step, and a request that is tracked before a step and not
    forgotten in it keeps its row. -/
def StableRows (s : System Req Layer) (seg : Segment Req) : Prop :=
  seg.reqIdToIndex.values.Nodup ∧ ∀ key ∈ s.ledger.keys, .forgetRequest key.1 ∉ seg.calls →
    seg.reqIdToIndex.get? key.1 = s.rows.get? key.1

instance (s : System Req Layer) (seg : Segment Req) : Decidable (StableRows s seg) :=
  inferInstanceAs (Decidable (_ ∧ _))

section Rules

variable {D : Deployment Layer} {I : List (Call Req) → System Req Layer → Prop}
  {C : System Req Layer → Call Req → Prop} {S : System Req Layer → Segment Req → Prop}

/-- The states between steps: the queue is empty. -/
structure Between (D : Deployment Layer) (s : System Req Layer) : Prop extends SystemInv D s where
  pending : s.policy.pendingPhysicalEvents = []

theorem between_drain {s : System Req Layer} (h : SystemInv D s) : Between D s.drain where
  config := h.config
  exact := h.exact
  ledger := h.ledger
  pool := h.pool
  pending := rfl

/-- A step, as its ticks. -/
theorem step_ok {s s' : System Req Layer} {seg : Segment Req} (h : Between D s)
    (hs : s.step seg = .ok s') :
    ∃ s₁, seg.calls.foldlM System.tick (s.enter seg) = .ok s₁ ∧ s' = s₁.drain := by
  rw [step_eq_ticks s seg h.exact h.pending] at hs
  cases hf : seg.calls.foldlM System.tick (s.enter seg) with
  | ok s₁ =>
      rw [hf] at hs
      cases hs
      exact ⟨s₁, rfl, rfl⟩
  | error e =>
      rw [hf] at hs
      cases hs

theorem step_error {s : System Req Layer} {seg : Segment Req} {e : RuntimeError Req Layer}
    (h : Between D s) (hs : s.step seg = .error e) :
    seg.calls.foldlM System.tick (s.enter seg) = .error e := by
  rw [step_eq_ticks s seg h.exact h.pending] at hs
  cases hf : seg.calls.foldlM System.tick (s.enter seg) with
  | ok s₁ =>
      rw [hf] at hs
      cases hs
  | error e' =>
      rw [hf] at hs
      cases hs
      rfl

/-- What an invariant must satisfy to be kept along runs: `S` may be assumed of every step, `C`
    of every call; `I rest` holds with the calls `rest` of the step still to come. -/
structure StepRule (D : Deployment Layer) (I : List (Call Req) → System Req Layer → Prop)
    (C : System Req Layer → Call Req → Prop) (S : System Req Layer → Segment Req → Prop) :
    Prop where
  enter : ∀ s seg, S s seg → I [] s → I seg.calls (s.enter seg)
  tick : ∀ s call rest s', C s call → Tick D s call s' → I (call :: rest) s → I rest s'
  drain : ∀ s, I [] s → I [] s.drain

/-- An invariant that is kept and holds at the start. -/
structure RunRule (D : Deployment Layer) (I : List (Call Req) → System Req Layer → Prop)
    (C : System Req Layer → Call Req → Prop) (S : System Req Layer → Segment Req → Prop) :
    Prop extends StepRule D I C S where
  start : I [] D.start

theorem RunRule.of_imp {C' : System Req Layer → Call Req → Prop} (h : RunRule D I C S)
    (hC : ∀ s call, C' s call → C s call) : RunRule D I C' S :=
  { h with tick := fun s call rest s' hc => h.tick s call rest s' (hC s call hc) }

/-- The invariant within a step, with the base invariant. -/
theorem StepRule.tick_step (h : StepRule D I C S) (call : Call Req) (rest : List (Call Req))
    (s s' : System Req Layer) (hC : C s call) (hI : SystemInv D s ∧ I (call :: rest) s)
    (ht : s.tick call = .ok s') : SystemInv D s' ∧ I rest s' := by
  have htick := tick_ticked hI.1 ht
  exact ⟨htick.after, h.tick s call rest s' hC htick hI.2⟩

theorem systemInv_enter {s : System Req Layer} (h : SystemInv D s) (seg : Segment Req) :
    SystemInv D (s.enter seg) := ⟨h.config, h.exact, h.ledger, h.pool⟩

/-- Within a step, the base invariant holds before every call, and the rows stay. -/
theorem SystemInv.trace_tick {s : System Req Layer} (h : SystemInv D s) (calls : List (Call Req)) :
    ∀ x ∈ trace System.tick s calls, SystemInv D x.1 ∧ x.1.rows = s.rows :=
  trace_invariant (I := fun s₁ => SystemInv D s₁ ∧ s₁.rows = s.rows) (C := fun _ _ => True)
    (fun _ _ _ _ hI ht => ⟨hI.1.tick ht, (tick_ticked hI.1 ht).rows.trans hI.2⟩)
    (fun _ _ => trivial) ⟨h, rfl⟩

theorem SystemInv.ticks {s s' : System Req Layer} (h : SystemInv D s) {calls : List (Call Req)}
    (hrun : calls.foldlM System.tick s = .ok s') : SystemInv D s' ∧ s'.rows = s.rows :=
  (foldlM_rule (I := fun _ s₁ => SystemInv D s₁ ∧ s₁.rows = s.rows) (C := fun _ _ => True)
    (fun _ _ _ _ _ hI ht => ⟨hI.1.tick ht, (tick_ticked hI.1 ht).rows.trans hI.2⟩)
    calls s (fun _ _ => trivial) ⟨h, rfl⟩).1 s' hrun

/-- A step keeps the invariant between steps. -/
theorem StepRule.step (h : StepRule D I C S) {s s' : System Req Layer} {seg : Segment Req}
    (hS : S s seg) (hC : ∀ x ∈ trace System.tick (s.enter seg) seg.calls, C x.1 x.2)
    (hI : Between D s ∧ I [] s) (hs : s.step seg = .ok s') : Between D s' ∧ I [] s' := by
  obtain ⟨s₁, hf, rfl⟩ := step_ok hI.1 hs
  obtain ⟨hinv, hI₁⟩ := (foldlM_rule (I := fun rest s => SystemInv D s ∧ I rest s) h.tick_step
    seg.calls (s.enter seg) hC
    ⟨systemInv_enter hI.1.toSystemInv seg, h.enter s seg hS hI.2⟩).1 s₁ hf
  exact ⟨between_drain hinv, h.drain s₁ hI₁⟩

/-- The conditions along a run, step by step. -/
theorem steps_of_moments {s : System Req Layer} {segs : List (Segment Req)}
    (hS : ∀ x ∈ trace System.step s segs, S x.1 x.2) (hC : ∀ x ∈ s.moments segs, C x.1 x.2) :
    ∀ x ∈ trace System.step s segs, S x.1 x.2 ∧
      ∀ y ∈ trace System.tick (x.1.enter x.2) x.2.calls, C y.1 y.2 :=
  fun x hx => ⟨hS x hx, fun y hy => hC y (List.mem_flatMap.mpr ⟨x, hx, hy⟩)⟩

/-- **Invariants along runs,** from any state between steps. -/
theorem StepRule.run_from (h : StepRule D I C S) {segs : List (Segment Req)}
    {s₀ s : System Req Layer} (hI : Between D s₀ ∧ I [] s₀)
    (hS : ∀ x ∈ trace System.step s₀ segs, S x.1 x.2) (hC : ∀ x ∈ s₀.moments segs, C x.1 x.2)
    (hrun : segs.foldlM System.step s₀ = .ok s) : Between D s ∧ I [] s :=
  (foldlM_rule (I := fun _ s => Between D s ∧ I [] s)
    (C := fun s seg => S s seg ∧ ∀ y ∈ trace System.tick (s.enter seg) seg.calls, C y.1 y.2)
    (fun _ _ _ _ hC hI hs => h.step hC.1 hC.2 hI hs) segs s₀ (steps_of_moments hS hC) hI).1 s hrun

theorem between_start (D : Deployment Layer) : Between D (D.start : System Req Layer) where
  toSystemInv := systemInv_start D
  pending := rfl

/-- **Invariants along runs.** -/
theorem RunRule.run (h : RunRule D I C S) {segs : List (Segment Req)} {s : System Req Layer}
    (hS : ∀ x ∈ trace System.step D.start segs, S x.1 x.2)
    (hC : ∀ x ∈ D.start.moments segs, C x.1 x.2) (hrun : D.run segs = .ok s) :
    Between D s ∧ I [] s := h.run_from ⟨between_start D, h.start⟩ hS hC hrun

/-- The invariant holds before every call of a run, also of one that raises later. -/
theorem RunRule.moments {I : System Req Layer → Prop} (h : RunRule D (fun _ => I) C S)
    {segs : List (Segment Req)} (hS : ∀ x ∈ trace System.step D.start segs, S x.1 x.2)
    (hC : ∀ x ∈ D.start.moments segs, C x.1 x.2) :
    ∀ x ∈ D.start.moments segs, SystemInv D x.1 ∧ I x.1 := by
  intro x hx
  obtain ⟨y, hy, hx⟩ := List.mem_flatMap.mp hx
  have hsteps := steps_of_moments hS hC
  have hbetween := trace_invariant (I := fun s => Between D s ∧ I s)
    (C := fun s seg => S s seg ∧ ∀ y ∈ trace System.tick (s.enter seg) seg.calls, C y.1 y.2)
    (fun _ _ _ hC hI hs => h.step hC.1 hC.2 hI hs) hsteps ⟨between_start D, h.start⟩ y hy
  exact trace_invariant (I := fun s => SystemInv D s ∧ I s)
    (fun s call s' hC hI ht => h.tick_step call [] s s' hC hI ht) (hsteps y hy).2
    ⟨systemInv_enter hbetween.1.toSystemInv y.2, h.enter y.1 y.2 (hsteps y hy).1 hbetween.2⟩ x hx

/-- Steps that do not raise lead from one state between steps to another. -/
theorem Between.steps {segs : List (Segment Req)} {s₀ s : System Req Layer} (h : Between D s₀)
    (hrun : segs.foldlM System.step s₀ = .ok s) : Between D s := by
  have rule : StepRule D (fun _ (_ : System Req Layer) => True) (fun _ _ => True)
      (fun _ _ => True) :=
    { enter := fun _ _ _ _ => trivial
      tick := fun _ _ _ _ _ _ _ => trivial
      drain := fun _ _ => trivial }
  exact (rule.run_from ⟨h, trivial⟩ (fun _ _ => trivial) (fun _ _ => trivial) hrun).1

/-- A run that does not raise ends between steps. -/
theorem between_of_run {segs : List (Segment Req)} {s : System Req Layer}
    (hrun : D.run segs = .ok s) : Between D s := (between_start D).steps hrun

/-- **Raises along runs.** A run that raises does so in a tick from a state that satisfies the
    invariant. -/
theorem RunRule.error (h : RunRule D I C S) {segs : List (Segment Req)}
    {e : RuntimeError Req Layer} (hS : ∀ x ∈ trace System.step D.start segs, S x.1 x.2)
    (hC : ∀ x ∈ D.start.moments segs, C x.1 x.2) (hrun : D.run segs = .error e) :
    ∃ s call rest, SystemInv D s ∧ C s call ∧ I (call :: rest) s ∧ s.tick call = .error e := by
  obtain ⟨seg, -, s₁, hseg, hI, hs⟩ := (foldlM_rule (I := fun _ s => Between D s ∧ I [] s)
    (C := fun s seg => S s seg ∧ ∀ y ∈ trace System.tick (s.enter seg) seg.calls, C y.1 y.2)
    (fun _ _ _ _ hC hI hs => h.step hC.1 hC.2 hI hs) segs D.start (steps_of_moments hS hC)
    ⟨between_start D, h.start⟩).2 e hrun
  obtain ⟨call, rest, s, hcall, hI', ht⟩ := (foldlM_rule
    (I := fun rest s => SystemInv D s ∧ I rest s) h.tick_step seg.calls (s₁.enter seg) hseg.2
    ⟨systemInv_enter hI.1.toSystemInv seg, h.enter s₁ seg hseg.1 hI.2⟩).2 e (step_error hI.1 hs)
  exact ⟨s, call, rest, hI'.1, hcall, hI'.2, ht⟩

end Rules

/-! ## Concrete runs -/

/-- A deployment of equal layers; policy and caches have the same pages and hot budget. -/
def Deployment.ofEqualLayers (numLayers : Nat) (spec : FullAttentionSpec) (late : Nat → Bool)
    (numLogicalBlocks : Nat) : Deployment Nat where
  policy :=
    { policy := .physical
      hotBudgetPct := spec.tmhHotBudgetPct
      pageTokens := max 1 spec.blockSize
      layers := (List.range numLayers).map fun i => ⟨i, i, 1, 1, 1, 2⟩
      pageTokens_pos := Nat.le_max_left 1 spec.blockSize }
  physical := rfl
  nodup := by
    show (((List.range numLayers).map fun i => (⟨i, i, 1, 1, 1, 2⟩ : LayerShape Nat)).map _).Nodup
    rw [List.map_map]
    exact (List.map_id _).symm ▸ List.nodup_range
  specs l := { spec with tmhLateLayer := late l }
  numLogicalBlocks

/-- A request with one token per block; the flag says that a block has a hash. -/
def allocate (requestId : Nat) (blocks : List (Int × Bool)) : Call Nat :=
  .recordAllocation requestId blocks.length 0
    [blocks.map fun b => { blockId := b.1, hasBlockHash := b.2 }]

/-- Request `q` in row `q`, for each of `n` requests. -/
def ownRows (n : Nat) : Dict Nat Nat where
  entries := (List.range n).map fun q => (q, q)
  nodup := by
    rw [List.map_map]
    exact (List.map_id _).symm ▸ List.nodup_range

/-- Request 2 in row 0 and request 1 in row 1. -/
def swappedRows : Dict Nat Nat := ⟨[(2, 0), (1, 1)], by decide⟩

end Sock.Tmh
