/-
  Draining the queue: which errors the application of a step's events can raise.

  The worker looks up the layer and the row of every descriptor. With a cache for each of the
  policy's layers the first lookup succeeds, and a tick raises the missing row error exactly when
  it applies a record of a request without a row (`tick_error_cases`, `tick_missingRow`). The
  events of a step are applied with the rows after it. A request that is recorded and then
  preempted in one step has no row any more, and its record is still queued ahead of its forget.

  * `RuntimeError.Resolved`: the errors that are not about a missing layer or row.
  * `drain_safe_iff`: when draining is safe.
-/
import Sock.Tmh.Rows

namespace Sock.Tmh

open Lib Lib.Fallible Lib.RefCount PhysicalRuntime

variable {Req Layer : Type}

/-- The error is not about a layer without cache or a request without row. -/
def RuntimeError.Resolved : RuntimeError Req Layer → Prop
  | .unregisteredLayer _ => False
  | .missingRow _ => False
  | .blockOutOfRange _ _ => True
  | .pageOutOfRange _ _ _ => True
  | .poolExhausted _ _ => True
  | .keyError _ => True
  | .indexError _ _ => True

open RuntimeError

variable [DecidableEq Layer]

/-! ## What the parts raise -/

theorem takeSlot_raises (l : Layer) (raw : Bool) :
    Raises Resolved (takeSlot l raw : RuntimeM Req Layer Nat) := by
  refine raises_bind raises_get fun rt => ?_
  split
  · exact raises_throw trivial
  · split
    · exact raises_throw trivial
    · exact raises_bind (raises_set _) fun _ => raises_pure _

theorem setCanonicalTables_raises (l : Layer) (block role slot : Int) :
    Raises Resolved (setCanonicalTables l block role slot : RuntimeM Req Layer Unit) := by
  refine raises_bind raises_get fun rt => ?_
  split
  · exact raises_throw trivial
  · split
    · exact raises_throw trivial
    · exact raises_set _

theorem canonicalSlot_raises (l : Layer) (block : Int) (role : PageRole) :
    Raises Resolved (canonicalSlot l block role : RuntimeM Req Layer Nat) := by
  refine raises_bind raises_get fun rt => ?_
  split
  · exact raises_pure _
  · exact raises_bind (takeSlot_raises _ _) fun slot => raises_bind (raises_modifyGet _) fun _ =>
      raises_bind (setCanonicalTables_raises _ _ _ _) fun _ => raises_pure _

theorem writeRow_raises (l : Layer) (row : Nat) (page : Int) (slot : Nat) (role : PageRole) :
    Raises Resolved (writeRow l row page slot role : RuntimeM Req Layer Unit) := by
  refine raises_bind raises_get fun rt => ?_
  split
  · exact raises_throw trivial
  · split
    · split
      · exact raises_throw trivial
      · exact raises_set _
    · exact raises_throw trivial

variable [DecidableEq Req]

theorem overlaySlot_raises (l : Layer) (q : Req) (page : Int) :
    Raises Resolved (overlaySlot l q page) := by
  refine raises_bind raises_get fun rt => ?_
  split
  · exact raises_pure _
  · exact raises_bind (takeSlot_raises _ _) fun slot => raises_bind (raises_modifyGet _) fun _ =>
      raises_pure _

theorem descriptorSlot_raises (l : Layer) (d : PhysicalPageDescriptor Req Layer) :
    Raises Resolved (descriptorSlot l d) := by
  unfold descriptorSlot
  split
  · exact overlaySlot_raises _ _ _
  · exact canonicalSlot_raises _ _ _

/-- A descriptor is applied after its layer and its row were found. -/
theorem applyDescriptor_raises (cache : CacheLayout) (l : Layer)
    (d : PhysicalPageDescriptor Req Layer) (row : Nat) :
    Raises Resolved (applyDescriptor cache l d row) := by
  refine raises_bind raises_get fun rt => ?_
  exact raises_check trivial (raises_bind (descriptorSlot_raises _ _) fun slot =>
    raises_check trivial (writeRow_raises _ _ _ _ _))

/-! ## What a tick raises -/

section Event

variable {layouts : Layer → Option CacheLayout} {rows : Dict Req Nat}
  {rt rt' : PhysicalRuntime Req Layer} {e : RuntimeError Req Layer}

theorem applyEventDescriptor_resolved (hinv : PoolInv layouts rt)
    {d : PhysicalPageDescriptor Req Layer} {cache : CacheLayout}
    (hl : layouts d.layerName = some cache) {row : Nat} (hrow : rows.get? d.requestId = some row)
    {totalPages : Int} (h : (applyEventDescriptor rows totalPages d).run rt = .error e rt') :
    e.Resolved := by
  obtain ⟨c, hc, -⟩ := hinv.cache hl
  unfold applyEventDescriptor at h
  rw [EStateM.run_bind, EStateM.run_get] at h
  simp only [hc, hrow] at h
  exact applyDescriptor_raises _ _ _ _ rt e rt' h

theorem applyEventDescriptors_resolved (hinv : PoolInv layouts rt) {q : Req} {row : Nat}
    (hrow : rows.get? q = some row) {ds : List (PhysicalPageDescriptor Req Layer)}
    (hq : ∀ d ∈ ds, d.requestId = q) (hl : ∀ d ∈ ds, ∃ cache, layouts d.layerName = some cache)
    {totalPages : Int}
    (h : (ds.forM (applyEventDescriptor rows totalPages)).run rt = .error e rt') :
    e.Resolved := by
  have hraise := (forM_rule
    (I := fun rest s => (∀ d ∈ rest, d ∈ ds) ∧ PoolInv layouts s) (C := fun _ _ => True)
    ?_ ds rt (fun _ _ => trivial) ⟨fun _ h => h, hinv⟩).2 e rt' h
  · obtain ⟨d, rest, rt₁, -, ⟨hds, hinv⟩, hd⟩ := hraise
    have hmem := hds d List.mem_cons_self
    obtain ⟨cache, hcache⟩ := hl d hmem
    exact applyEventDescriptor_resolved hinv hcache ((hq d hmem).symm ▸ hrow) hd
  · rintro d rest s s' - ⟨hds, hinv⟩ hrun
    have hkeep := applyEventDescriptor_keeps rows totalPages d s hinv
    rw [hrun] at hkeep
    exact ⟨fun d hd => hds d (List.mem_cons_of_mem _ hd), hkeep⟩

theorem clearRow_resolved (hinv : PoolInv layouts rt) {l : Layer} {cache : CacheLayout}
    (hl : layouts l = some cache) {row : Nat} (h : (clearRow l row).run rt = .error e rt') :
    e.Resolved := by
  obtain ⟨c, hc, -⟩ := hinv.cache hl
  unfold clearRow at h
  rw [EStateM.run_bind, EStateM.run_get] at h
  simp only [hc] at h
  split at h
  · cases h
  · cases h
    trivial

theorem clearRequestRows_resolved {q : Req} {row : Nat} (hrow : rows.get? q = some row)
    (ds : List (PhysicalPageDescriptor Req Layer)) (hq : ∀ d ∈ ds, d.requestId = q)
    (hl : ∀ d ∈ ds, ∃ cache, layouts d.layerName = some cache) (cleared : List (Layer × Nat))
    (rt : PhysicalRuntime Req Layer) (hinv : PoolInv layouts rt)
    (h : (clearRequestRows rows ds cleared).run rt = .error e rt') : e.Resolved := by
  induction ds generalizing cleared rt with
  | nil => cases h
  | cons d ds ih =>
      have ih := ih (fun d hd => hq d (List.mem_cons_of_mem _ hd))
        fun d hd => hl d (List.mem_cons_of_mem _ hd)
      obtain ⟨cache, hcache⟩ := hl d List.mem_cons_self
      rw [clearRequestRows, hq d List.mem_cons_self, hrow] at h
      dsimp only at h
      split at h
      · exact ih _ _ hinv h
      · have hkeep := clearRow_keeps d.layerName row rt hinv
        rcases run_bind_error.mp h with h | ⟨_, rt₁, hclear, h⟩
        · exact clearRow_resolved hinv hcache h
        · rw [hclear] at hkeep
          exact ih _ _ hkeep h

/-- The first descriptor of a request without a row raises. -/
theorem clearRequestRows_missingRow {q : Req} (hrow : rows.get? q = none)
    {ds : List (PhysicalPageDescriptor Req Layer)} (hne : ds ≠ []) (hq : ∀ d ∈ ds, d.requestId = q)
    (cleared : List (Layer × Nat)) :
    (clearRequestRows rows ds cleared).run rt = .error (.missingRow q) rt := by
  cases ds with
  | nil => exact absurd rfl hne
  | cons d ds =>
      rw [clearRequestRows, hq d List.mem_cons_self, hrow]
      rfl

end Event

section Tick

variable {D : Deployment Layer} {s : System Req Layer} {call : Call Req}

/-- A call that applies a record of a request without a row. -/
def System.RecordsWithoutRow (s : System Req Layer) (call : Call Req) (q : Req) : Prop :=
  ∃ event ∈ s.policy.queuedBy call, event.descriptors ≠ [] ∧ event.requestId = q ∧
    s.rows.get? q = none

/-- **Raises of a tick.** It applies a record of a request without a row, or layer and row were
    found. -/
theorem tick_error_cases {e : RuntimeError Req Layer} (h : SystemInv D s)
    (ht : s.tick call = .error e) :
    (∃ q, s.RecordsWithoutRow call q ∧ e = .missingRow q) ∨ e.Resolved := by
  have hspec := h.callSpec call
  unfold System.tick at ht
  split at ht
  · cases ht
  next hrun =>
    cases ht
    generalize hev : s.policy.queuedBy call = events at hspec hrun
    generalize (s.policy.call call).physicalDescriptors = ledger' at hspec
    cases hspec with
    | silent => cases hrun
    | forget hcall hfor =>
        rw [applyEvents_singleton] at hrun
        obtain ⟨rt', hrun', -⟩ := applyEvent_forget_run D.registered h.ledger h.pool hfor
        rw [hrun'] at hrun
        cases hrun
    | @record _ event _ hcall hq hchanges hrec =>
        rw [applyEvents_singleton] at hrun
        obtain ⟨rt₁, hfreed, -, heq⟩ := prepareEvent_record D.registered h.ledger h.pool hrec
        have hlayer : ∀ d ∈ event.descriptors, ∃ cache, D.layouts.get? d.layerName = some cache :=
          fun d hd => (D.registered _).mpr (hrec.page d hd).mem_layerNames
        cases hrow : s.rows.get? event.requestId with
        | none =>
            left
            refine ⟨event.requestId, ⟨event, hev ▸ List.mem_singleton_self _, hrec.nonempty, rfl,
              hrow⟩, ?_⟩
            rcases run_bind_error.mp hrun with hp | ⟨_, rt₂, hp, -⟩
            · rw [heq, clearRequestRows_missingRow hrow hrec.nonempty hrec.request] at hp
              cases hp
              rfl
            · rw [heq, clearRequestRows_missingRow hrow hrec.nonempty hrec.request] at hp
              cases hp
        | some row =>
            right
            rcases run_bind_error.mp hrun with hp | ⟨_, rt₂, hp, hloop⟩
            · rw [heq] at hp
              exact clearRequestRows_resolved hrow _ hrec.request hlayer _ _ hfreed.inv hp
            · have hkeep := prepareEvent_keeps s.rows event s.runtime h.pool
              rw [hp] at hkeep
              exact applyEventDescriptors_resolved hkeep hrow hrec.request hlayer hloop

theorem tick_missingRow (h : SystemInv D s) {q : Req} (hq : s.RecordsWithoutRow call q) :
    s.tick call = .error (.missingRow q) := by
  obtain ⟨event, hmem, hne, rfl, hrow⟩ := hq
  have hspec := h.callSpec call
  generalize (s.policy.call call).physicalDescriptors = ledger' at hspec
  unfold System.tick
  generalize s.policy.queuedBy call = events at hmem hspec ⊢
  cases hspec with
  | silent => cases hmem
  | forget hcall hfor =>
      rw [List.mem_singleton] at hmem
      subst hmem
      exact absurd hfor.descriptors hne
  | record hcall hq hchanges hrec =>
      rw [List.mem_singleton] at hmem
      subst hmem
      obtain ⟨rt₁, -, -, heq⟩ := prepareEvent_record D.registered h.ledger h.pool hrec
      have hraise : (applyEvent s.rows event).run s.runtime =
          .error (.missingRow event.requestId) rt₁ := by
        refine run_bind_error.mpr (.inl ?_)
        rw [heq, clearRequestRows_missingRow hrow hne hrec.request]
      rw [applyEvents_singleton, hraise]

end Tick

/-! ## Draining -/

/-- The rows are those of the tracked requests, and of no others. -/
def ExactRows (ledger : Ledger Req Layer) (rows : Dict Req Nat) : Prop :=
  (∀ q ∈ rows.keys, Tracked ledger q) ∧ ∀ key ∈ ledger.keys, key.1 ∈ rows.keys

instance (ledger : Ledger Req Layer) (rows : Dict Req Nat) : Decidable (ExactRows ledger rows) :=
  inferInstanceAs (Decidable (_ ∧ _))

theorem ExactRows.get?_eq_none {ledger : Ledger Req Layer} {rows : Dict Req Nat}
    (h : ExactRows ledger rows) (q : Req) : rows.get? q = none ↔ ¬ Tracked ledger q := by
  have hmem : (∃ row, rows.get? q = some row) ↔ Tracked ledger q := by
    rw [← Dict.mem_keys]
    refine ⟨h.1 q, fun hq => ?_⟩
    obtain ⟨l, i, d, hd⟩ := tracked_iff.mp hq
    exact h.2 (q, l, i) (Dict.mem_keys.mpr ⟨d, hd⟩)
  rw [← hmem, not_exists, Option.eq_none_iff_forall_ne_some]

/-- **Draining under preemption.** From every state a run reaches, with a row for exactly the
    requests tracked at the drain: no missing row is raised exactly when every call of the step
    that changes pages, as far as the events before it apply, is for a request that is still
    tracked at the drain. -/
theorem drain_safe_iff (D : Deployment Layer) (segs : List (Segment Req)) (seg : Segment Req)
    {s : System Req Layer} (hrun : D.run segs = .ok s)
    (hrows : ExactRows (s.policy.calls seg.calls).physicalDescriptors seg.reqIdToIndex) :
    (∀ q, s.step seg ≠ .error (.missingRow q)) ↔
      ∀ x ∈ trace System.tick (s.enter seg) seg.calls, ∀ event ∈ x.1.policy.queuedBy x.2,
        event.descriptors ≠ [] →
          Tracked (s.policy.calls seg.calls).physicalDescriptors event.requestId := by
  have hbetween := between_of_run hrun
  have hinv : ∀ x ∈ trace System.tick (s.enter seg) seg.calls,
      SystemInv D x.1 ∧ x.1.rows = seg.reqIdToIndex :=
    (systemInv_enter hbetween.toSystemInv seg).trace_tick seg.calls
  have hstep : ∀ q, s.step seg = .error (.missingRow q) ↔
      ∃ x ∈ trace System.tick (s.enter seg) seg.calls, x.1.RecordsWithoutRow x.2 q := by
    intro q
    constructor
    · intro h
      obtain ⟨x, hx, ht⟩ := (foldlM_eq_error _ _).mp (step_error hbetween h)
      rcases tick_error_cases (hinv x hx).1 ht with ⟨q', hq', heq⟩ | hres
      · cases heq
        exact ⟨x, hx, hq'⟩
      · exact absurd hres id
    · rintro ⟨x, hx, hq⟩
      rw [step_eq_ticks s seg hbetween.exact hbetween.pending,
        (foldlM_eq_error _ _).mpr ⟨x, hx, tick_missingRow (hinv x hx).1 hq⟩]
      rfl
  constructor
  · intro h x hx event hevent hne
    by_contra htracked
    refine h event.requestId ((hstep _).mpr ⟨x, hx, event, hevent, hne, rfl, ?_⟩)
    rw [(hinv x hx).2]
    exact (hrows.get?_eq_none _).mpr htracked
  · intro h q hraise
    obtain ⟨x, hx, event, hevent, hne, rfl, hrow⟩ := (hstep q).mp hraise
    rw [(hinv x hx).2] at hrow
    exact (hrows.get?_eq_none _).mp hrow (h x hx event hevent hne)

/-- A request that is recorded, forgotten and recorded again before the drain. -/
def recordedAgain : Segment Nat :=
  ⟨[allocate 0 [(0, false)], .forgetRequest 0, allocate 0 [(1, false)]], ownRows 1⟩

theorem drain_safe_recordedAgain :
    ExactRows
      ((halfRaw.start : System Nat Nat).policy.calls recordedAgain.calls).physicalDescriptors
        recordedAgain.reqIdToIndex ∧
      halfRaw.start.step recordedAgain ≠ .error (.missingRow 0) :=
  ⟨by decide +kernel,
    (drain_safe_iff halfRaw [] recordedAgain rfl (by decide +kernel)).mpr (by decide +kernel) 0⟩

/-- A request that is recorded and preempted before the drain. -/
def preempted : Segment Nat := ⟨[allocate 0 [(0, false)], .forgetRequest 0], .empty⟩

/-- No request is tracked at the drain, and there are no rows; the queued record raises. -/
theorem drain_safe_fails :
    ExactRows ((halfRaw.start : System Nat Nat).policy.calls preempted.calls).physicalDescriptors
        preempted.reqIdToIndex ∧
      halfRaw.start.step preempted = .error (.missingRow 0) :=
  ⟨by decide +kernel, eq_error_of_raised (by decide +kernel)⟩

end Sock.Tmh
