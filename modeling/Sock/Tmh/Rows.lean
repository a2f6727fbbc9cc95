/-
  The rows of the page table, along runs.

  The policy sends the descriptors that changed; the worker clears the whole row of the request
  before it writes them. So a request's row shows the pages of its last record event, and a
  page that is tracked but was not in that event has no entry (`row_complete_fails`). A call of
  one request leaves the row of another alone (`Tick.undisturbed`), and the slots that row
  names, provided that all descriptors of a block agree on their canonical key
  (`KeyAgreement`): otherwise a release frees a slot that another request reached under
  another role (`slots_sound_fails`).

  * `rowRule`: what every tick keeps for undisturbed rows and every record establishes for its
    own row holds for all tracked requests after every run.
  * `row_complete`: when every record event carries all pages of its request, every tracked page
    has an entry, and it is the slot held for the page.
  * `slots_sound`: no row entry names a free slot, and entries with one slot are of one block.
-/
import Sock.Tmh.System

namespace Sock.Tmh

open Lib Lib.Dict Lib.Fallible Lib.RefCount PhysicalRuntime

variable {Req Layer : Type} [DecidableEq Req]

/-- The policy tracks pages of the request. -/
def Tracked (ledger : Ledger Req Layer) (q : Req) : Prop := requestKeys ledger q ≠ []

instance (ledger : Ledger Req Layer) (q : Req) : Decidable (Tracked ledger q) :=
  inferInstanceAs (Decidable (_ ≠ _))

variable [DecidableEq Layer]

theorem tracked_iff {ledger : Ledger Req Layer} {q : Req} :
    Tracked ledger q ↔ ∃ l i d, ledger.get? (q, l, i) = some d := by
  unfold Tracked
  constructor
  · intro h
    obtain ⟨⟨q', l, i⟩, hk⟩ := List.exists_mem_of_ne_nil _ h
    obtain ⟨hm, rfl⟩ := mem_requestKeys.mp hk
    obtain ⟨d, hd⟩ := mem_keys.mp hm
    exact ⟨l, i, d, hd⟩
  · rintro ⟨l, i, d, hd⟩ hnil
    have hk := mem_requestKeys.mpr ⟨mem_keys.mpr ⟨d, hd⟩, (rfl : (q, l, i).1 = q)⟩
    rw [hnil] at hk
    cases hk

section Others

variable {c : PolicyConfig Layer} {ledger ledger' : Ledger Req Layer}
  {event : PhysicalEvent Req Layer} {q : Req}

/-- What an event leaves alone: the pages of other requests. -/
theorem RecordSpec.other (h : RecordSpec c ledger ledger' event) (hq : q ≠ event.requestId)
    (l : Layer) (p : Int) : ledger'.get? (q, l, p) = ledger.get? (q, l, p) := by
  apply h.keep
  intro hm
  obtain ⟨d, hd, hk⟩ := List.mem_map.mp hm
  exact hq ((congrArg Prod.fst hk).symm.trans (h.request d hd))

theorem ForgetSpec.other (h : ForgetSpec ledger ledger' event) (hq : q ≠ event.requestId)
    (l : Layer) (p : Int) : ledger'.get? (q, l, p) = ledger.get? (q, l, p) := by
  rw [h.drop, if_neg hq]

theorem tracked_of_other (h : ∀ l p, ledger'.get? (q, l, p) = ledger.get? (q, l, p)) :
    Tracked ledger' q ↔ Tracked ledger q := by
  simp only [tracked_iff, h]

end Others

/-- All tracked descriptors of a block of a layer have the same canonical key. -/
def KeyAgreement (ledger : Ledger Req Layer) : Prop :=
  ∀ d ∈ ledger.values, ∀ d' ∈ ledger.values, d.layerName = d'.layerName →
    d.logicalBlockId = d'.logicalBlockId → canonicalDescriptorKey d = canonicalDescriptorKey d'

instance (ledger : Ledger Req Layer) : Decidable (KeyAgreement ledger) :=
  inferInstanceAs (Decidable (∀ d ∈ ledger.values, ∀ d' ∈ ledger.values, _))

/-! ## Undisturbed rows -/

/-- A call leaves the pages of `q` and the row alone, and under key agreement the slots held for
    the pages. -/
structure Undisturbed (s s' : System Req Layer) (q : Req) (row : Nat) : Prop where
  ledger : ∀ l i, s'.ledger.get? (q, l, i) = s.ledger.get? (q, l, i)
  entry : ∀ l page, s'.runtime.entry l row page = s.runtime.entry l row page
  holds : KeyAgreement s.ledger → ∀ l i d k slot, s.ledger.get? (q, l, i) = some d →
    s.runtime.Holds d k slot → s'.runtime.Holds d k slot

section Undisturbed

variable {D : Deployment Layer} {s s' : System Req Layer} {call : Call Req}

/-- A release phase leaves alone what is held for a page of another request that stays. -/
theorem PhysicalRuntime.Freed.holds {rt : PhysicalRuntime Req Layer} {q : Req}
    {ledger' : Ledger Req Layer} {released : List (PhysicalPageDescriptor Req Layer)}
    (hl : LedgerInv D.policy s.ledger)
    (hk : KeyAgreement s.ledger) (hr : ReleaseSpec s.ledger ledger' released)
    (hf : Freed D.layouts.get? s.runtime q released rt) {l : Layer} {q' : Req} {i : Int}
    {d : PhysicalPageDescriptor Req Layer} {k : PageRole} {slot : Nat} (hne : q' ≠ q)
    (hd : s.ledger.get? (q', l, i) = some d) (hd' : ledger'.get? (q', l, i) = some d)
    (h : s.runtime.Holds d k slot) : rt.Holds d k slot := by
  rcases h with h | ⟨hhot, h⟩
  · left
    rw [hf.kept d.layerName d.logicalBlockId k, h]
    -- a released descriptor of the block would share its key with `d`, which stays
    rintro o ho ⟨hlay, hblock⟩
    obtain ⟨hold, -, -⟩ := hr.old o ho
    exact hr.unshared o ho _ d hd hd' (hk d (mem_values.mpr ⟨_, hd⟩) o
      (mem_values.mpr ⟨_, hold⟩) hlay.symm hblock.symm)
  · right
    have hreq : d.requestId = q' := congrArg Prod.fst (hl.key _ _ hd)
    refine ⟨hhot, ?_⟩
    rw [hf.overlay, if_neg (by rw [hreq]; exact hne), h]

theorem PhysicalRuntime.LoopState.holds {rt rt' : PhysicalRuntime Req Layer}
    {layouts : Layer → Option CacheLayout} {row : Nat}
    {done : List (PhysicalPageDescriptor Req Layer)} (h : LoopState layouts rt row done rt')
    {d : PhysicalPageDescriptor Req Layer} {k : PageRole} {slot : Nat}
    (hh : rt.Holds d k slot) : rt'.Holds d k slot := by
  rcases hh with hc | ⟨hhot, ho⟩
  · exact .inl (h.canonical_mono _ _ hc)
  · exact .inr ⟨hhot, h.overlay_mono _ _ ho⟩

/-- A record of another request. -/
theorem Recorded.undisturbed {event : PhysicalEvent Req Layer} {row₀ : Nat}
    {rt : PhysicalRuntime Req Layer} (hinv : SystemInv D s) (hinj : s.rows.values.Nodup)
    (h : Recorded D s call s' event row₀ rt) {q : Req} (hq : q ≠ event.requestId) {row : Nat}
    (hrow : s.rows.get? q = some row) : Undisturbed s s' q row := by
  have hledger := h.spec.other hq
  have hne : row ≠ row₀ := by
    rintro rfl
    exact hq (eq_of_values_nodup hinj hrow h.hasRow)
  refine ⟨hledger, fun l page => ?_, fun hk l i d k slot hd hh => ?_⟩
  · rw [h.loopState.other l row page hne, h.prepared.other l row page hne]
  · exact h.loopState.holds (h.prepared.freed.holds hinv.ledger hk h.spec.released hq hd
      ((hledger l i).trans hd) hh)

/-- A forget of another request. -/
theorem Forgotten.undisturbed {event : PhysicalEvent Req Layer} (hinv : SystemInv D s)
    (h : Forgotten D s call s' event) {q : Req} (hq : q ≠ event.requestId) (row : Nat) :
    Undisturbed s s' q row := by
  have hledger := h.spec.other hq
  exact ⟨hledger, fun l page => h.entry l row page, fun hk l i d k slot hd hh =>
    h.freed.holds hinv.ledger hk h.spec.released hq hd ((hledger l i).trans hd) hh⟩

/-- What happens to a request that is tracked after a call: its own record wrote its row, or it
    was tracked before, is not forgotten, and its row is undisturbed. -/
theorem Tick.undisturbed (h : Tick D s call s') (hinj : s.rows.values.Nodup) {q : Req}
    (hq : Tracked s'.ledger q) :
    (∃ event row rt, Recorded D s call s' event row rt ∧ event.requestId = q) ∨
      Tracked s.ledger q ∧ call ≠ .forgetRequest q ∧
        (call.requestId = q → s.policy.queuedBy call = []) ∧
        ∀ row, s.rows.get? q = some row → Undisturbed s s' q row := by
  cases h.ticked with
  | silent hqueued hidle hledger hruntime =>
      rw [hledger] at hq
      refine .inr ⟨hq, fun hc => hq (hidle q hc), fun _ => hqueued, fun row _ => ?_⟩
      exact ⟨fun l i => by rw [hledger], fun l page => by rw [hruntime],
        fun _ _ _ _ _ _ _ hh => by rwa [hruntime]⟩
  | @record event row rt hr =>
      by_cases he : event.requestId = q
      · exact .inl ⟨event, row, rt, hr, he⟩
      · right
        refine ⟨(tracked_of_other (hr.spec.other (Ne.symm he))).mp hq, ?_,
          fun hc => absurd (hr.request.trans hc) he,
          fun row hrow => hr.undisturbed h.before hinj (Ne.symm he) hrow⟩
        rintro rfl
        obtain ⟨_, hc, -⟩ := hr.recorded
        cases hc
  | @forget event hf =>
      have hne : q ≠ event.requestId := by
        rintro rfl
        obtain ⟨l, i, d, hd⟩ := tracked_iff.mp hq
        rw [hf.spec.drop, if_pos rfl] at hd
        cases hd
      right
      refine ⟨(tracked_of_other (hf.spec.other hne)).mp hq, ?_, ?_,
        fun row _ => hf.undisturbed h.before hne row⟩
      · rw [hf.call]
        intro hc
        cases hc
        exact hne rfl
      · rw [hf.call]
        exact fun hc => absurd hc.symm hne

/-- Another request's call does not change a request's length. -/
theorem Tick.length (h : Tick D s call s') {q : Req} (hq : call.requestId ≠ q) :
    s'.lengths.get? q = s.lengths.get? q := by
  rw [h.lengths]
  cases call with
  | recordAllocation q' t p bs => exact (get?_set _ _ _ _).trans (if_neg (Ne.symm hq))
  | recordBlockIds q' t ids ps => exact (get?_set _ _ _ _).trans (if_neg (Ne.symm hq))
  | forgetRequest q' => exact (get?_erase _ _ _).trans (if_neg (Ne.symm hq))

end Undisturbed

/-! ## Properties of rows -/

/-- A property of a request and its row, in terms of the ledger, the request's length and the
    runtime. -/
abbrev RowProperty (Req Layer : Type) :=
  Ledger Req Layer → Option Int → PhysicalRuntime Req Layer → Req → Nat → Prop

/-- Within a step: rows are injective, and every tracked request that will not be forgotten in
    the rest of the step has a row with the property. -/
def RowsHave (P : RowProperty Req Layer) (rest : List (Call Req)) (s : System Req Layer) : Prop :=
  s.rows.values.Nodup ∧ ∀ q, Tracked s.ledger q → .forgetRequest q ∈ rest ∨
    ∃ row, s.rows.get? q = some row ∧ P s.ledger (s.lengths.get? q) s.runtime q row

/-- **Rows along runs.** A property that an undisturbed row keeps and that a record establishes
    for its own row. -/
theorem rowRule {D : Deployment Layer} {P : RowProperty Req Layer}
    {C : System Req Layer → Call Req → Prop}
    (hkeep : ∀ s call s' q row, C s call → Tick D s call s' → Undisturbed s s' q row →
      call ≠ .forgetRequest q → (call.requestId = q → s.policy.queuedBy call = []) →
      P s.ledger (s.lengths.get? q) s.runtime q row →
      P s'.ledger (s'.lengths.get? q) s'.runtime q row)
    (hrecord : ∀ s call s' event row rt, C s call → Tick D s call s' →
      Recorded D s call s' event row rt →
      P s'.ledger (s'.lengths.get? event.requestId) s'.runtime event.requestId row) :
    RunRule D (RowsHave P) C StableRows where
  start := ⟨List.nodup_nil, fun q hq => absurd rfl hq⟩
  enter s seg hS hI := by
    refine ⟨hS.1, fun q hq => ?_⟩
    by_cases hf : Call.forgetRequest q ∈ seg.calls
    · exact .inl hf
    · rcases hI.2 q hq with hnil | ⟨row, hrow, hP⟩
      · cases hnil
      · obtain ⟨l, i, d, hd⟩ := tracked_iff.mp hq
        refine .inr ⟨row, ?_, hP⟩
        exact (hS.2 (q, l, i) (mem_keys.mpr ⟨d, hd⟩) hf).trans hrow
  tick s call rest s' hC ht hI := by
    refine ⟨ht.rows ▸ hI.1, fun q hq => ?_⟩
    rcases ht.undisturbed hI.1 hq with ⟨event, row, rt, hr, rfl⟩ | ⟨hold, hnf, hown, hun⟩
    · exact .inr ⟨row, ht.rows ▸ hr.hasRow, hrecord s call s' event row rt hC ht hr⟩
    · rcases hI.2 q hold with hm | ⟨row, hrow, hP⟩
      · rcases List.mem_cons.mp hm with hc | hm
        · exact absurd hc.symm hnf
        · exact .inl hm
      · exact .inr ⟨row, ht.rows ▸ hrow, hkeep s call s' q row hC ht (hun row hrow) hnf hown hP⟩
  drain _ hI := hI

omit [DecidableEq Layer] in
/-- After a run, the property holds for the row of every tracked request. -/
theorem RowsHave.tracked {P : RowProperty Req Layer} {s : System Req Layer} (h : RowsHave P [] s)
    {q : Req} (hq : Tracked s.ledger q) :
    ∃ row, s.rows.get? q = some row ∧ P s.ledger (s.lengths.get? q) s.runtime q row := by
  rcases h.2 q hq with hm | h
  · cases hm
  · exact h

/-! ## Complete rows -/

/-- Every tracked page has an entry in its request's row, and the entry is the slot that the
    runtime holds for the page: the canonical slot of its block or the request's overlay. -/
def System.RowComplete (s : System Req Layer) : Prop :=
  ∀ q l i d, s.ledger.get? (q, l, i) = some d → ∃ row page slot : Nat, ∃ e,
    s.rows.get? q = some row ∧ i = page ∧ s.runtime.entry l row page = some e ∧ e.slot = slot ∧
      ((∃ k, s.runtime.canonicalSlots.get? (l, d.logicalBlockId, k) = some slot) ∨
        s.runtime.overlaySlots.get? (l, q, i) = some slot)

/-- A call that records changes no page of its request, or every page that is tracked for the
    request after it. -/
def RecordsAllOrNothing (c : PolicyConfig Layer) (ledger : Ledger Req Layer) (call : Call Req) :
    Prop :=
  ∀ r ∈ call.recorded c,
    let ds := pageDescriptors c call.requestId r.1 (c.recentStartPage r.1) r.2
    (∀ d ∈ ds, ledger.get? d.key = some d) ∨
      (∀ d ∈ ds, ledger.get? d.key ≠ some d) ∧
        ∀ key ∈ requestKeys ledger call.requestId, key ∈ ds.map PhysicalPageDescriptor.key

instance (c : PolicyConfig Layer) (ledger : Ledger Req Layer) (call : Call Req) :
    Decidable (RecordsAllOrNothing c ledger call) :=
  inferInstanceAs (Decidable (∀ r ∈ call.recorded c, _ ∨ _))

/-- Every page of the request has its entry, and the entry's slot is held for the page. -/
def PagesHeld : RowProperty Req Layer := fun ledger _ rt q row =>
  ∀ l i d, ledger.get? (q, l, i) = some d → ∃ k slot,
    rt.entry l row i.toNat = some (.of slot k) ∧ rt.Holds d k slot

/-- After an all-or-nothing record, the event's descriptors are all of the request's. -/
theorem Recorded.mem_descriptors {D : Deployment Layer} {s s' : System Req Layer}
    {call : Call Req} {event : PhysicalEvent Req Layer} {row : Nat}
    {rt : PhysicalRuntime Req Layer} (h : Recorded D s call s' event row rt)
    (hall : RecordsAllOrNothing D.policy s.ledger call) {l : Layer} {i : Int}
    {d : PhysicalPageDescriptor Req Layer}
    (hd : s'.ledger.get? (event.requestId, l, i) = some d) : d ∈ event.descriptors := by
  obtain ⟨pages, hcall, hchanges⟩ := h.recorded
  have hmem : ∀ e, e ∈ event.descriptors ↔ e ∈ pageDescriptors D.policy call.requestId
      event.totalPages (D.policy.recentStartPage event.totalPages) pages ∧
        s.ledger.get? e.key ≠ some e := by
    intro e
    rw [hchanges, mem_recordChanges D.nodup, h.request]
  rcases hall _ hcall with hnone | ⟨hnew, hold⟩
  · obtain ⟨e, he⟩ := List.exists_mem_of_ne_nil _ h.spec.nonempty
    exact absurd (hnone e ((hmem e).mp he).1) ((hmem e).mp he).2
  · by_cases hk : (event.requestId, l, i) ∈ event.descriptors.map PhysicalPageDescriptor.key
    · obtain ⟨e, he, hke⟩ := List.mem_map.mp hk
      rw [← hke, h.spec.put e he] at hd
      cases hd
      exact he
    · -- a page that was tracked before is walked through again, and so is in the event
      rw [h.spec.keep _ hk] at hd
      have hreq : (event.requestId, l, i) ∈ requestKeys s.ledger call.requestId :=
        mem_requestKeys.mpr ⟨mem_keys.mpr ⟨d, hd⟩, h.request⟩
      obtain ⟨e, he, hke⟩ := List.mem_map.mp (hold _ hreq)
      exact absurd (List.mem_map.mpr ⟨e, (hmem e).mpr ⟨he, hnew e he⟩, hke⟩) hk

/-- An undisturbed row still shows its pages. -/
theorem Undisturbed.pagesHeld {s s' : System Req Layer} {q : Req} {row : Nat}
    {length length' : Option Int} (h : Undisturbed s s' q row) (hk : KeyAgreement s.ledger)
    (hP : PagesHeld s.ledger length s.runtime q row) :
    PagesHeld s'.ledger length' s'.runtime q row := by
  intro l i d hd
  rw [h.ledger] at hd
  obtain ⟨k, slot, he, hh⟩ := hP l i d hd
  exact ⟨k, slot, (h.entry _ _).trans he, h.holds hk l i d k slot hd hh⟩

/-- An all-or-nothing record shows all pages in its row. -/
theorem Recorded.pagesHeld {D : Deployment Layer} {s s' : System Req Layer} {call : Call Req}
    {event : PhysicalEvent Req Layer} {row : Nat} {rt : PhysicalRuntime Req Layer}
    {length : Option Int} (h : Recorded D s call s' event row rt) (ht : Tick D s call s')
    (hall : RecordsAllOrNothing D.policy s.ledger call) :
    PagesHeld s'.ledger length s'.runtime event.requestId row := by
  intro l i d hd
  have hkey : d.key = (event.requestId, l, i) := ht.after.ledger.key _ _ hd
  simp only [PhysicalPageDescriptor.key, Prod.mk.injEq] at hkey
  obtain ⟨k, slot, he, hh⟩ := h.loopState.placed d (h.mem_descriptors hall hd)
  rw [hkey.2.1, hkey.2.2] at he
  exact ⟨k, slot, he, hh⟩

theorem pagesHeld_rule (D : Deployment Layer) :
    RunRule D (RowsHave PagesHeld)
      (fun (s : System Req Layer) call =>
        KeyAgreement s.ledger ∧ RecordsAllOrNothing D.policy s.ledger call) StableRows :=
  rowRule (fun _ _ _ _ _ hC _ hun _ _ hP => hun.pagesHeld hC.1 hP)
    fun _ _ _ _ _ _ hC ht hr => hr.pagesHeld ht hC.2

/-- A page that is shown: its entry is the canonical slot of its block or the request's overlay. -/
theorem PagesHeld.entry {D : Deployment Layer} {s : System Req Layer} {q : Req} {row : Nat}
    {length : Option Int} (h : PagesHeld s.ledger length s.runtime q row) (hinv : SystemInv D s)
    {l : Layer} {i : Int} {d : PhysicalPageDescriptor Req Layer}
    (hd : s.ledger.get? (q, l, i) = some d) : ∃ page slot : Nat, ∃ e,
      i = page ∧ s.runtime.entry l row page = some e ∧ e.slot = slot ∧
        ((∃ k, s.runtime.canonicalSlots.get? (l, d.logicalBlockId, k) = some slot) ∨
          s.runtime.overlaySlots.get? (l, q, i) = some slot) := by
  obtain ⟨k, slot, he, hh⟩ := h l i d hd
  have hkey := hinv.ledger.key _ _ hd
  simp only [PhysicalPageDescriptor.key, Prod.mk.injEq] at hkey
  have hi : i = (i.toNat : Int) := by
    have h0 := (hinv.ledger.page _ _ hd).1
    rw [hkey.2.2] at h0
    omega
  refine ⟨i.toNat, slot, _, hi, he, rfl, ?_⟩
  rcases hh with hc | ⟨-, ho⟩
  · rw [hkey.2.1] at hc
    exact .inl ⟨k, hc⟩
  · rw [hkey.1, hkey.2.1, hkey.2.2] at ho
    exact .inr ho

/-- **Complete rows.** In every run with stable injective rows in which every record changes no
    page of its request or all of them, and the tracked descriptors of a block agree on its
    canonical key before every call: every tracked page has an entry, and it is the slot the
    runtime holds for the page. -/
theorem row_complete (D : Deployment Layer) (segs : List (Segment Req))
    (hrows : ∀ x ∈ trace System.step D.start segs, StableRows x.1 x.2)
    (hcalls : ∀ x ∈ D.start.moments segs,
      KeyAgreement x.1.ledger ∧ RecordsAllOrNothing D.policy x.1.ledger x.2)
    {s : System Req Layer} (hrun : D.run segs = .ok s) : s.RowComplete := by
  obtain ⟨hbetween, hI⟩ := (pagesHeld_rule D).run hrows hcalls hrun
  intro q l i d hd
  obtain ⟨row, hrow, hP⟩ := hI.tracked (tracked_iff.mpr ⟨l, i, d, hd⟩)
  obtain ⟨page, slot, e, hi, he, hslot, hheld⟩ := hP.entry hbetween.toSystemInv hd
  exact ⟨row, page, slot, e, hrow, hi, he, hslot, hheld⟩

/-- One layer, four blocks, half of the pages raw. -/
def halfRaw : Deployment Nat :=
  .ofEqualLayers 1 ⟨1, 50, true, 2, 4⟩ (fun _ => true) 4

/-- Two requests that do not grow; the first is forgotten and a third takes its place. -/
def steadyRequests : List (Segment Nat) :=
  [⟨[allocate 0 [(0, false), (1, false)], allocate 1 [(2, false)]], ownRows 2⟩,
   ⟨[allocate 0 [(0, false), (1, false)]], ownRows 2⟩,
   ⟨[.forgetRequest 0, allocate 2 [(1, false), (3, false)]], swappedRows⟩]

theorem row_complete_steadyRequests :
    ∃ s, halfRaw.run steadyRequests = .ok s ∧ Tracked s.ledger 1 ∧ Tracked s.ledger 2 ∧
      s.RowComplete := by
  obtain ⟨s, hrun, hp⟩ := exists_ok_of_any (x := halfRaw.run steadyRequests)
    (p := fun s => decide (Tracked s.ledger 1 ∧ Tracked s.ledger 2)) (by decide +kernel)
  rw [decide_eq_true_eq] at hp
  exact ⟨s, hrun, hp.1, hp.2, row_complete halfRaw steadyRequests (by decide +kernel)
    (by decide +kernel) hrun⟩

/-- A request of one page that grows to two. -/
def growingRequest : List (Segment Nat) :=
  [⟨[allocate 0 [(0, false)]], ownRows 1⟩, ⟨[allocate 0 [(0, false), (1, false)]], ownRows 1⟩]

/-- The second record's event carries page 1 only, and the worker clears the row: page 0 is
    tracked and has no entry. -/
theorem row_complete_fails :
    (∀ x ∈ trace System.step halfRaw.start growingRequest, StableRows x.1 x.2) ∧
      ∃ s, halfRaw.run growingRequest = .ok s ∧ ¬ s.RowComplete := by
  refine ⟨by decide +kernel, ?_⟩
  obtain ⟨s, hrun, hp⟩ := exists_ok_of_any (x := halfRaw.run growingRequest)
    (p := fun s => decide ((s.ledger.get? (0, 0, 0)).isSome ∧ s.rows.get? 0 = some 0 ∧
      s.runtime.entry 0 0 0 = some .blank)) (by decide +kernel)
  rw [decide_eq_true_eq] at hp
  refine ⟨s, hrun, fun hcomplete => ?_⟩
  obtain ⟨hd, hrow, hentry⟩ := hp
  obtain ⟨d, hd⟩ := Option.isSome_iff_exists.mp hd
  obtain ⟨row, page, slot, e, hrow', hpage, he, hslot, -⟩ := hcomplete 0 0 0 d hd
  have hr : row = 0 := Option.some.inj (hrow'.symm.trans hrow)
  have hp : page = 0 := by omega
  rw [hr, hp, hentry] at he
  cases he
  simp only [RowEntry.blank] at hslot
  omega

/-! ## Sound slots -/

/-- The pool a row entry's role belongs to. -/
def RowEntry.rawPool (e : RowEntry) : Bool := decide (e.role = 0 ∨ e.role = 1)

theorem RowEntry.rawPool_of (slot : Nat) (k : PageRole) : (RowEntry.of slot k).rawPool = k.raw := by
  cases k <;> rfl

/-- No row entry of a tracked request names a slot on a free list of its layer and pool, and
    two entries that name one slot of one layer and pool are of the same logical block. -/
structure System.SlotsSound (s : System Req Layer) : Prop where
  live : ∀ q row l page e, Tracked s.ledger q → s.rows.get? q = some row →
    s.runtime.entry l row page = some e → 0 ≤ e.slot →
    ∀ free, (s.runtime.freeSlots e.rawPool).get? l = some free → e.slot.toNat ∉ free
  unaliased : ∀ q q' row row' l page page' e e', Tracked s.ledger q → Tracked s.ledger q' →
    s.rows.get? q = some row → s.rows.get? q' = some row' →
    s.runtime.entry l row page = some e → s.runtime.entry l row' page' = some e' →
    0 ≤ e.slot → e.slot = e'.slot → e.rawPool = e'.rawPool →
    ∃ d d', s.ledger.get? (q, l, (page : Int)) = some d ∧
      s.ledger.get? (q', l, (page' : Int)) = some d' ∧ d.logicalBlockId = d'.logicalBlockId

section Pools

variable {layouts : Layer → Option CacheLayout} {rt : PhysicalRuntime Req Layer}
  {d d' : PhysicalPageDescriptor Req Layer} {k k' : PageRole} {slot : Nat}

theorem PoolInv.held_nodup (h : PoolInv layouts rt) {l : Layer} {cfg : CacheLayout}
    (hl : layouts l = some cfg) (raw : Bool) : ∃ free, (rt.freeSlots raw).get? l = some free ∧
      (free ++ rt.held raw l).Nodup := by
  obtain ⟨free, hf, hp⟩ := h.pool l cfg raw hl
  exact ⟨free, hf, hp.nodup_iff.mpr List.nodup_range⟩

omit [DecidableEq Req] in
theorem mem_held_canonical {l : Layer} {b : Int}
    (h : rt.canonicalSlots.get? (l, b, k) = some slot) :
    slot ∈ rt.canonicalSlots.select fun key => decide (key.1 = l ∧ key.2.2.raw = k.raw) :=
  mem_select.mpr ⟨(l, b, k), by simp, h⟩

theorem mem_held_overlay {l : Layer} {q : Req} {p : Int}
    (h : rt.overlaySlots.get? (l, q, p) = some slot) :
    slot ∈ rt.overlaySlots.select fun key => decide (key.1 = l) :=
  mem_select.mpr ⟨(l, q, p), by simp, h⟩

theorem PhysicalRuntime.Holds.mem_held (h : rt.Holds d k slot) :
    slot ∈ rt.held k.raw d.layerName := by
  unfold held
  rcases h with hc | ⟨rfl, ho⟩
  · exact List.mem_append_left _ (mem_held_canonical hc)
  · exact List.mem_append_right _ (mem_held_overlay ho)

/-- A held slot is not free. -/
theorem PhysicalRuntime.Holds.notMem_free (h : rt.Holds d k slot) (hinv : PoolInv layouts rt)
    {cfg : CacheLayout} (hl : layouts d.layerName = some cfg) {free : List Nat}
    (hf : (rt.freeSlots k.raw).get? d.layerName = some free) : slot ∉ free := by
  obtain ⟨free', hf', hn⟩ := hinv.held_nodup hl k.raw
  rw [hf'] at hf
  cases hf
  intro hm
  exact (List.nodup_append.mp hn).2.2 slot hm slot h.mem_held rfl

/-- A slot of a pool is held for one block, or for one page of one request. -/
theorem PhysicalRuntime.Holds.unique (h : rt.Holds d k slot) (h' : rt.Holds d' k' slot)
    (hinv : PoolInv layouts rt) {cfg : CacheLayout} (hl : layouts d.layerName = some cfg)
    (hlay : d'.layerName = d.layerName) (hraw : k.raw = k'.raw) :
    d.logicalBlockId = d'.logicalBlockId ∨
      d.requestId = d'.requestId ∧ d.pageIndex = d'.pageIndex := by
  obtain ⟨free, -, hn⟩ := hinv.held_nodup hl k.raw
  have hheld := (List.nodup_append.mp hn).2.1
  unfold held at hheld
  obtain ⟨hcan, hover, hdisj⟩ := List.nodup_append.mp hheld
  unfold Holds at h'
  rw [hlay] at h'
  rcases h with hc | ⟨rfl, ho⟩ <;> rcases h' with hc' | ⟨rfl, ho'⟩
  · left
    have := eq_of_select_nodup hcan (by simp) (by simp [hraw]) hc hc'
    simp only [Prod.mk.injEq] at this
    exact this.2.1
  · refine absurd rfl (hdisj slot (mem_held_canonical hc) slot ?_)
    rw [if_pos (hraw.trans PageRole.raw_hotRaw)]
    exact mem_held_overlay ho'
  · refine absurd rfl (hdisj slot ?_ slot (mem_held_overlay ho))
    rw [hraw]
    exact mem_held_canonical hc'
  · right
    rw [if_pos PageRole.raw_hotRaw] at hover
    have := eq_of_select_nodup hover (by simp) (by simp) ho ho'
    simp only [Prod.mk.injEq] at this
    exact this.2

end Pools

/-- The entry is blank, or the slot held for the tracked page `page` of `q`. -/
def EntryHeld (ledger : Ledger Req Layer) (rt : PhysicalRuntime Req Layer) (q : Req) (l : Layer)
    (page : Nat) (e : RowEntry) : Prop :=
  e = .blank ∨ ∃ d k slot, ledger.get? (q, l, (page : Int)) = some d ∧ e = .of slot k ∧
    rt.Holds d k slot

/-- Every entry of the row is held for its page of the request. -/
def EntriesHeld : RowProperty Req Layer := fun ledger _ rt q row =>
  ∀ l (page : Nat) e, rt.entry l row page = some e → EntryHeld ledger rt q l page e

/-- A record leaves in its row the pages it wrote, and nothing else. -/
theorem Recorded.entriesHeld {D : Deployment Layer} {s s' : System Req Layer} {call : Call Req}
    {event : PhysicalEvent Req Layer} {row : Nat} {rt : PhysicalRuntime Req Layer}
    (h : Recorded D s call s' event row rt) {l : Layer} {page : Nat} {e : RowEntry}
    (he : s'.runtime.entry l row page = some e) :
    e = .blank ∨ ∃ d ∈ event.descriptors, ∃ k slot, d.key = (event.requestId, l, (page : Int)) ∧
      e = .of slot k ∧ s'.runtime.Holds d k slot := by
  by_cases hd : ∃ d ∈ event.descriptors, d.layerName = l ∧ d.pageIndex = page
  · obtain ⟨d, hd, rfl, hpage⟩ := hd
    obtain ⟨k, slot, hentry, hh⟩ := h.loopState.placed d hd
    rw [hpage, Int.toNat_natCast, he] at hentry
    cases hentry
    refine .inr ⟨d, hd, k, slot, ?_, rfl, hh⟩
    rw [PhysicalPageDescriptor.key, h.spec.request d hd, hpage]
  · left
    push Not at hd
    rw [h.loopState.untouched l page fun d hm hc => hd d hm hc.1 hc.2] at he
    exact h.prepared.blank l page e he

theorem entriesHeld_rule (D : Deployment Layer) :
    RunRule D (RowsHave EntriesHeld)
      (fun (s : System Req Layer) _ => KeyAgreement s.ledger) StableRows := by
  refine rowRule ?_ ?_
  · intro s call s' q row hC _ hun _ _ hP l page e he
    rw [hun.entry] at he
    rcases hP l page e he with rfl | ⟨d, k, slot, hd, rfl, hh⟩
    · exact .inl rfl
    · exact .inr ⟨d, k, slot, (hun.ledger _ _).trans hd, rfl, hun.holds hC _ _ d k slot hd hh⟩
  · intro s call s' event row rt hC ht hr l page e he
    rcases hr.entriesHeld he with rfl | ⟨d, hd, k, slot, hkey, rfl, hh⟩
    · exact .inl rfl
    · exact .inr ⟨d, k, slot, hkey ▸ hr.spec.put d hd, rfl, hh⟩

/-- **Sound slots.** In every run with stable injective rows in which the tracked descriptors of
    a block agree on its canonical key before every call: no row entry dangles, and no two
    entries alias unless they are of one block. -/
theorem slots_sound (D : Deployment Layer) (segs : List (Segment Req))
    (hrows : ∀ x ∈ trace System.step D.start segs, StableRows x.1 x.2)
    (hcalls : ∀ x ∈ D.start.moments segs, KeyAgreement x.1.ledger) {s : System Req Layer}
    (hrun : D.run segs = .ok s) : s.SlotsSound := by
  obtain ⟨hbetween, hI⟩ := (entriesHeld_rule D).run hrows hcalls hrun
  -- an entry with a slot is one of a tracked page, held in a registered layer
  have hheld : ∀ q row l page e, Tracked s.ledger q → s.rows.get? q = some row →
      s.runtime.entry l row page = some e → 0 ≤ e.slot → ∃ d k slot,
        s.ledger.get? (q, l, (page : Int)) = some d ∧ e = .of slot k ∧ s.runtime.Holds d k slot ∧
        d.key = (q, l, (page : Int)) ∧ ∃ cfg, D.layouts.get? d.layerName = some cfg := by
    intro q row l page e hq hrow he h0
    obtain ⟨row', hrow', hP⟩ := hI.tracked hq
    rw [hrow] at hrow'
    cases hrow'
    rcases hP l page e he with rfl | ⟨d, k, slot, hd, rfl, hh⟩
    · exact absurd h0 (by decide)
    · exact ⟨d, k, slot, hd, rfl, hh, hbetween.ledger.key _ _ hd,
        (D.registered _).mpr (hbetween.ledger.page _ _ hd).mem_layerNames⟩
  constructor
  · intro q row l page e hq hrow he h0 free hf
    obtain ⟨d, k, slot, -, rfl, hh, hkey, cfg, hl⟩ := hheld q row l page e hq hrow he h0
    simp only [PhysicalPageDescriptor.key, Prod.mk.injEq] at hkey
    rw [RowEntry.rawPool_of, ← hkey.2.1] at hf
    exact hh.notMem_free hbetween.pool hl hf
  · intro q q' row row' l page page' e e' hq hq' hrow hrow' he he' h0 hslot hpool
    obtain ⟨d, k, slot, hd, rfl, hh, hkey, cfg, hl⟩ := hheld q row l page e hq hrow he h0
    obtain ⟨d', k', slot', hd', rfl, hh', hkey', -⟩ :=
      hheld q' row' l page' e' hq' hrow' he' (hslot ▸ h0)
    refine ⟨d, d', hd, hd', ?_⟩
    rw [RowEntry.rawPool_of, RowEntry.rawPool_of] at hpool
    have hs : slot = slot' := Int.ofNat_inj.mp hslot
    subst hs
    simp only [PhysicalPageDescriptor.key, Prod.mk.injEq] at hkey hkey'
    rcases hh.unique hh' hbetween.pool hl (hkey'.2.1.trans hkey.2.1.symm) hpool with
      hb | ⟨hreq, hpage⟩
    · exact hb
    · have hsame : (q, l, (page : Int)) = (q', l, (page' : Int)) := by
        rw [← hkey.1, ← hkey'.1, ← hkey.2.2, ← hkey'.2.2, hreq, hpage]
      rw [hsame, hd'] at hd
      cases hd
      rfl

/-- Two requests that share their first block. -/
def sharedAnchor : List (Segment Nat) :=
  [⟨[allocate 0 [(0, true), (1, false)]], ownRows 2⟩,
   ⟨[allocate 1 [(0, true), (2, false)]], ownRows 2⟩]

theorem slots_sound_sharedAnchor :
    ∃ s, halfRaw.run sharedAnchor = .ok s ∧
      (s.runtime.entry 0 0 0 = some (.of 0 .pinnedRaw) ∧
        s.runtime.entry 0 1 0 = some (.of 0 .pinnedRaw)) ∧ s.SlotsSound := by
  obtain ⟨s, hrun, hp⟩ := exists_ok_of_any (x := halfRaw.run sharedAnchor)
    (p := fun s => decide (s.runtime.entry 0 0 0 = some (.of 0 .pinnedRaw) ∧
      s.runtime.entry 0 1 0 = some (.of 0 .pinnedRaw))) (by decide +kernel)
  exact ⟨s, hrun, of_decide_eq_true hp,
    slots_sound halfRaw sharedAnchor (by decide +kernel) (by decide +kernel) hrun⟩

/-- One layer, ten blocks for two requests, four of them raw. -/
def quarterRaw : Deployment Nat :=
  .ofEqualLayers 1 ⟨1, 25, true, 2, 8⟩ (fun _ => true) 10

/-- A request, a longer one with the same first blocks, and the longer one is forgotten. -/
def longerTwin : List (Segment Nat) :=
  [⟨[allocate 0 [(0, true), (1, true), (2, true), (3, true), (4, true)]], ownRows 2⟩,
   ⟨[allocate 1 [(0, true), (1, true), (2, true), (3, true), (4, true), (5, false), (6, false)]],
     ownRows 2⟩,
   ⟨[.forgetRequest 1], ownRows 2⟩]

/-- The hot page 4 of request 0 finds the raw pool empty and goes to a canonical warm slot;
    request 1 tracks the block as warm and shares the slot, and frees it when it is forgotten. -/
theorem slots_sound_fails :
    (∀ x ∈ trace System.step quarterRaw.start longerTwin, StableRows x.1 x.2) ∧
      ∃ s, quarterRaw.run longerTwin = .ok s ∧ ¬ s.SlotsSound := by
  refine ⟨by decide +kernel, ?_⟩
  obtain ⟨s, hrun, hp⟩ := exists_ok_of_any (x := quarterRaw.run longerTwin)
    (p := fun s => decide (Tracked s.ledger 0 ∧ s.rows.get? 0 = some 0 ∧
      s.runtime.entry 0 0 4 = some (.of 0 .warmInt8Int8) ∧
      ∃ free ∈ (s.runtime.freeSlots false).get? 0, 0 ∈ free)) (by decide +kernel)
  obtain ⟨hq, hrow, he, free, hf, hm⟩ := of_decide_eq_true hp
  exact ⟨s, hrun, fun h => h.live 0 0 0 4 _ hq hrow he (by decide) free hf hm⟩

end Sock.Tmh
