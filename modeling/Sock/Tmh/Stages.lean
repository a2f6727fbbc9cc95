/-
  Pipeline stages: one scheduler, several workers (`kv_cache_utils.py`, `tmh_policy.py`).

  Every worker has a cache config for its own layers. The scheduler's config is a copy of the
  first worker's, so the policy knows the layers of the first stage only. Its events go to all
  workers. A worker that lacks one of these layers raises on the first record
  (`stages_covered_fails`); a layer that only other workers have gets no descriptors at all.

  * `generateSchedulerKvCacheConfig`, `fromKvCacheConfig`: from the workers' configs to the
    policy.
  * `KVCacheConfig.deployment`: a worker with the policy's layers is a deployment of it.
  * `stages_covered`: workers with equal layers.

  Not modelled: specs other than TMH attention, and layer names with non-ASCII digits.
-/
import Mathlib.Data.List.Sort
import Sock.Tmh.Drains
import Sock.Tmh.Memory

namespace Sock.Tmh

open Lib Lib.Fallible PhysicalRuntime

/-! ## Cache configs -/

/-- The spec of a cache group: one for each layer, or one for all. -/
inductive KVCacheSpec where
  | uniformType (kvCacheSpecs : Dict String SizedSpec)
  | attention (spec : SizedSpec)

/-- `KVCacheGroupSpec`. A group with one spec for each layer has one for each of its names. -/
structure KVCacheGroupSpec where
  layerNames : List String
  kvCacheSpec : KVCacheSpec
  known : ∀ specs, kvCacheSpec = .uniformType specs → ∀ name ∈ layerNames, name ∈ specs.keys

/-- `KVCacheConfig`, as far as TMH reads it. -/
structure KVCacheConfig where
  numBlocks : Nat
  kvCacheGroups : List KVCacheGroupSpec
  tmhKvPolicy : PolicyMode
  tmhHotBudgetPct : ℚ

/-- `_spec_by_layer`. -/
def KVCacheGroupSpec.specByLayer (group : KVCacheGroupSpec) : Dict String SizedSpec :=
  match group.kvCacheSpec with
  | .uniformType specs => specs
  | .attention spec => .ofEntries (group.layerNames.map fun name => (name, spec))

/-- The specs of all layers, entered group by group. -/
def specsOfGroups (groups : List KVCacheGroupSpec) : Dict String SizedSpec :=
  .ofEntries (groups.flatMap fun group => group.layerNames.filterMap fun name =>
    (group.specByLayer.get? name).map fun spec => (name, spec))

namespace KVCacheConfig

variable (config : KVCacheConfig)

/-- The layers a worker registers caches for. -/
def layerNames : List String := config.kvCacheGroups.flatMap KVCacheGroupSpec.layerNames

/-- The layouts of the caches, carved out for each layer's spec. -/
def layouts : Dict String CacheLayout :=
  (specsOfGroups config.kvCacheGroups).mapValues fun spec =>
    spec.toFullAttentionSpec.layout config.numBlocks

end KVCacheConfig

/-! ## The scheduler's policy -/

/-- The scheduler's copy of a group: one arbitrary spec stands for all. -/
def KVCacheGroupSpec.forScheduler (group : KVCacheGroupSpec) : Option KVCacheGroupSpec :=
  match group.kvCacheSpec with
  | .uniformType specs => specs.values.head?.map fun spec =>
      { group with kvCacheSpec := .attention spec, known := fun _ h => nomatch h }
  | .attention _ => some group

/-- `generate_scheduler_kv_cache_config`; no result when its assertion fails, when there is no
    config, or when a group has no spec. -/
def generateSchedulerKvCacheConfig (kvCacheConfigs : List KVCacheConfig) : Option KVCacheConfig :=
  match kvCacheConfigs with
  | [] => none
  | first :: _ =>
      if kvCacheConfigs.all fun config => config.numBlocks = first.numBlocks then
        (first.kvCacheGroups.mapM KVCacheGroupSpec.forScheduler).map fun groups =>
          { first with kvCacheGroups := groups }
      else none

/-- `_layer_index`: the last run of digits in the name, or zero. -/
def layerIndex (layerName : String) : Nat :=
  let scan (state : Nat × Bool) (c : Char) : Nat × Bool :=
    if c.isDigit then
      let digit := c.toNat - '0'.toNat
      (if state.2 then state.1 * 10 + digit else digit, true)
    else (state.1, false)
  (layerName.toList.foldl scan (0, false)).1

/-- The order of `_extract_layers`: by index, then by name. -/
def LayerShape.le (a b : LayerShape String) : Prop :=
  a.layerIndex < b.layerIndex ∨ a.layerIndex = b.layerIndex ∧ a.layerName ≤ b.layerName

instance : DecidableRel LayerShape.le := fun a b =>
  inferInstanceAs (Decidable (a.layerIndex < b.layerIndex ∨ _))

/-- `_extract_layers`. -/
def extractLayers (groups : List KVCacheGroupSpec) : List (LayerShape String) :=
  let layers := (specsOfGroups groups).entries.map fun (layerName, spec) =>
    { layerName
      layerIndex := layerIndex layerName
      numKvHeads := spec.numKvHeads
      headSize := spec.headSize
      headSizeV := spec.headSizeV
      rawDtypeBytes := spec.dtypeSize }
  layers.insertionSort LayerShape.le

/-- `_regular_page_bytes`. -/
def KVCacheGroupSpec.regularPageBytes (group : KVCacheGroupSpec) : Option Nat :=
  match group.kvCacheSpec with
  | .uniformType specs => sumOption (specs.values.map (·.pageSizeBytes))
  | .attention spec => spec.pageSizeBytes.map fun pageSize => pageSize * group.layerNames.length

/-- `TMHKVRuntimePolicy.from_kv_cache_config`. -/
def fromKvCacheConfig (config : KVCacheConfig) (schedulerBlockSize : Nat)
    (hpos : 0 < schedulerBlockSize) : Option (PolicyConfig String) := do
  let regularPageBytesByGroup ← config.kvCacheGroups.mapM KVCacheGroupSpec.regularPageBytes
  pure
    { policy := config.tmhKvPolicy
      hotBudgetPct := config.tmhHotBudgetPct
      pageTokens := schedulerBlockSize
      layers := extractLayers config.kvCacheGroups
      regularPageBytesByGroup
      pageTokens_pos := hpos }

/-- A new policy at the scheduler, and a worker with new caches for its own layers. -/
def KVCacheConfig.start {Req : Type} (config : KVCacheConfig) (policy : PolicyConfig String) :
    System Req String where
  policy := { config := policy }
  lengths := .empty
  rows := .empty
  runtime := registerCaches (config.layouts.mapValues .fresh)

/-! ## Layers of configs and policy -/

theorem KVCacheGroupSpec.exists_spec (group : KVCacheGroupSpec) {name : String}
    (h : name ∈ group.layerNames) : ∃ spec, group.specByLayer.get? name = some spec := by
  rw [← Dict.mem_keys]
  unfold specByLayer
  split
  · next specs hs => exact group.known specs hs name h
  · rw [Dict.mem_keys_ofEntries, List.map_map]
    simpa using h

theorem mem_keys_specsOfGroups {groups : List KVCacheGroupSpec} {name : String} :
    name ∈ (specsOfGroups groups).keys ↔ name ∈ groups.flatMap KVCacheGroupSpec.layerNames := by
  rw [specsOfGroups, Dict.mem_keys_ofEntries]
  simp only [List.mem_map, List.mem_flatMap, List.mem_filterMap]
  constructor
  · rintro ⟨e, ⟨group, hg, n, hn, he⟩, rfl⟩
    obtain ⟨spec, -, rfl⟩ := Option.map_eq_some_iff.mp he
    exact ⟨group, hg, hn⟩
  · rintro ⟨group, hg, hn⟩
    obtain ⟨spec, hspec⟩ := group.exists_spec hn
    exact ⟨(name, spec), ⟨group, hg, name, hn, by rw [hspec]; rfl⟩, rfl⟩

theorem KVCacheGroupSpec.layerNames_forScheduler {group group' : KVCacheGroupSpec}
    (h : group.forScheduler = some group') : group'.layerNames = group.layerNames := by
  unfold forScheduler at h
  split at h
  · obtain ⟨spec, -, rfl⟩ := Option.map_eq_some_iff.mp h
    rfl
  · cases h
    rfl

theorem layerNames_mapM_forScheduler {groups groups' : List KVCacheGroupSpec}
    (h : groups.mapM KVCacheGroupSpec.forScheduler = some groups') :
    groups'.flatMap KVCacheGroupSpec.layerNames = groups.flatMap KVCacheGroupSpec.layerNames := by
  induction groups generalizing groups' with
  | nil =>
      cases h
      rfl
  | cons group groups ih =>
      rw [List.mapM_cons] at h
      obtain ⟨group', hg, h⟩ := Option.bind_eq_some_iff.mp h
      obtain ⟨rest, hrest, h⟩ := Option.bind_eq_some_iff.mp h
      cases h
      rw [List.flatMap_cons, List.flatMap_cons, ih hrest,
        KVCacheGroupSpec.layerNames_forScheduler hg]

/-- The scheduler's config has the layers of the first worker's. -/
theorem layerNames_generate_cons {first : KVCacheConfig} {rest : List KVCacheConfig}
    {scheduler : KVCacheConfig}
    (h : generateSchedulerKvCacheConfig (first :: rest) = some scheduler) :
    scheduler.layerNames = first.layerNames := by
  unfold generateSchedulerKvCacheConfig at h
  dsimp only at h
  split at h
  · obtain ⟨groups, hg, rfl⟩ := Option.map_eq_some_iff.mp h
    exact layerNames_mapM_forScheduler hg
  · cases h

theorem layerNames_generate {configs : List KVCacheConfig} {scheduler : KVCacheConfig}
    (h : generateSchedulerKvCacheConfig configs = some scheduler) :
    ∃ first ∈ configs, scheduler.layerNames = first.layerNames := by
  cases configs with
  | nil => cases h
  | cons first rest => exact ⟨first, List.mem_cons_self, layerNames_generate_cons h⟩

theorem layerNames_extractLayers (groups : List KVCacheGroupSpec) :
    ((extractLayers groups).map LayerShape.layerName).Perm (specsOfGroups groups).keys := by
  unfold extractLayers
  refine ((List.perm_insertionSort _ _).map _).trans ?_
  rw [List.map_map]
  exact List.Perm.refl _

/-- The policy's layers are those of the first worker, each once. -/
theorem layerNames_fromKvCacheConfig {config : KVCacheConfig} {blockSize : Nat}
    {hpos : 0 < blockSize} {policy : PolicyConfig String}
    (h : fromKvCacheConfig config blockSize hpos = some policy) :
    policy.layerNames.Nodup ∧ ∀ name, name ∈ policy.layerNames ↔ name ∈ config.layerNames := by
  unfold fromKvCacheConfig at h
  obtain ⟨bytes, -, h⟩ := Option.bind_eq_some_iff.mp h
  cases h
  have hperm := layerNames_extractLayers config.kvCacheGroups
  exact ⟨hperm.nodup_iff.mpr (specsOfGroups _).nodup, fun name =>
    hperm.mem_iff.trans mem_keys_specsOfGroups⟩

/-! ## Workers as deployments -/

namespace KVCacheConfig

variable {config : KVCacheConfig} {policy : PolicyConfig String}

/-- The policy, with the specs and the blocks of one worker. -/
def deployment (config : KVCacheConfig) (policy : PolicyConfig String)
    (hphysical : policy.policy = .physical) (hnodup : policy.layerNames.Nodup) :
    Deployment String where
  policy
  physical := hphysical
  nodup := hnodup
  specs l := (((specsOfGroups config.kvCacheGroups).get? l).map SizedSpec.toFullAttentionSpec).getD
    { blockSize := 0 }
  numLogicalBlocks := config.numBlocks

variable {hphysical : policy.policy = .physical} {hnodup : policy.layerNames.Nodup}

theorem deployment_layouts (hsame : ∀ l, l ∈ policy.layerNames ↔ l ∈ config.layerNames) :
    (config.deployment policy hphysical hnodup).layouts.get? = config.layouts.get? := by
  funext l
  by_cases hl : l ∈ policy.layerNames
  · obtain ⟨spec, hspec⟩ := Dict.mem_keys.mp (mem_keys_specsOfGroups.mpr ((hsame l).mp hl))
    rw [Deployment.layouts_get? _ hl, layouts, Dict.get?_mapValues, hspec]
    simp [Deployment.layout, deployment, hspec]
  · have hnone : (specsOfGroups config.kvCacheGroups).get? l = none :=
      Dict.get?_eq_none.mpr fun h => hl ((hsame l).mpr (mem_keys_specsOfGroups.mp h))
    rw [layouts, Dict.get?_mapValues, hnone, Option.map_none, Dict.get?_eq_none]
    intro hmem
    obtain ⟨layout, h⟩ := Dict.mem_keys.mp hmem
    exact hl (Deployment.eq_of_layouts _ h).1

/-- A worker with the policy's layers starts as its deployment does. -/
theorem between_start {Req : Type} [DecidableEq Req]
    (hsame : ∀ l, l ∈ policy.layerNames ↔ l ∈ config.layerNames) :
    Between (config.deployment policy hphysical hnodup)
      (config.start policy : System Req String) where
  config := rfl
  exact := exact_new policy
  ledger := LedgerInv.empty policy
  pool := by
    rw [deployment_layouts hsame]
    exact registerCaches_poolInv config.layouts
  pending := rfl

end KVCacheConfig

/-! ## Rows of recorded requests -/

section Shown

variable {Req Layer : Type} [DecidableEq Req] [DecidableEq Layer] {D : Deployment Layer}
  {s s' : System Req Layer} {call : Call Req} {q : Req}

/-- Every page that the request is recorded with has a slot in the request's row. -/
def System.Shown (s : System Req Layer) (q : Req) : Prop :=
  ∀ row, s.rows.get? q = some row → ∀ l i d, s.ledger.get? (q, l, i) = some d →
    ∃ slot k, s.runtime.entry l row i.toNat = some (.of slot k)

/-- A record that carries all pages of its request shows them. -/
theorem Recorded.shown {event : PhysicalEvent Req Layer} {row : Nat}
    {rt : PhysicalRuntime Req Layer} (ht : Tick D s call s') (h : Recorded D s call s' event row rt)
    (hall : RecordsAllOrNothing D.policy s.ledger call) : s'.Shown event.requestId := by
  intro row' hrow' l i d hd
  rw [ht.rows, h.hasRow] at hrow'
  cases hrow'
  have hkey : d.key = (event.requestId, l, i) := ht.after.ledger.key _ _ hd
  simp only [PhysicalPageDescriptor.key, Prod.mk.injEq] at hkey
  obtain ⟨k, slot, he, -⟩ := h.loopState.placed d (h.mem_descriptors hall hd)
  rw [hkey.2.1, hkey.2.2] at he
  exact ⟨slot, k, he⟩

/-- Later calls of the step leave the pages shown. -/
theorem Tick.shown (ht : Tick D s call s') (hinj : s.rows.values.Nodup)
    (hall : RecordsAllOrNothing D.policy s.ledger call) (h : s.Shown q) : s'.Shown q := by
  intro row hrow l i d hd
  rcases ht.undisturbed hinj (tracked_iff.mpr ⟨l, i, d, hd⟩) with
    ⟨event, row', rt, hr, rfl⟩ | ⟨-, -, -, hun⟩
  · exact hr.shown ht hall row hrow l i d hd
  · rw [ht.rows] at hrow
    rw [(hun row hrow).ledger] at hd
    obtain ⟨slot, k, he⟩ := h row hrow l i d hd
    exact ⟨slot, k, ((hun row hrow).entry _ _).trans he⟩

/-- The event of a forget has no descriptors. -/
theorem SystemInv.descriptors_of_forget (h : SystemInv D s) {q : Req}
    (hcall : call = .forgetRequest q) {event : PhysicalEvent Req Layer}
    (hevent : event ∈ s.policy.queuedBy call) : event.descriptors = [] := by
  have hspec := h.callSpec call
  generalize (s.policy.call call).physicalDescriptors = ledger' at hspec
  generalize s.policy.queuedBy call = events at hevent hspec
  cases hspec with
  | silent => cases hevent
  | record hrecorded =>
      rw [hcall] at hrecorded
      cases hrecorded
  | forget _ hfor =>
      rw [List.mem_singleton] at hevent
      rw [hevent, hfor.descriptors]

/-- After the calls of a step, the pages of every request with a record event are shown. -/
theorem shown_of_queued (calls : List (Call Req)) (s s' : System Req Layer) (hinv : SystemInv D s)
    (hinj : s.rows.values.Nodup)
    (hall : ∀ x ∈ trace System.tick s calls, RecordsAllOrNothing D.policy x.1.ledger x.2)
    (hrun : calls.foldlM System.tick s = .ok s') :
    ∀ event ∈ s.policy.queued calls, event.descriptors ≠ [] → s'.Shown event.requestId := by
  induction calls generalizing s with
  | nil =>
      intro event hevent
      cases hevent
  | cons call calls ih =>
      obtain ⟨s₁, hs₁, hrest⟩ := foldlM_cons_ok.mp hrun
      rw [trace_cons_ok hs₁] at hall
      have ht := tick_ticked hinv hs₁
      have hcall := hall _ List.mem_cons_self
      have hrest' : ∀ x ∈ trace System.tick s₁ calls,
          RecordsAllOrNothing D.policy x.1.ledger x.2 :=
        fun x hx => hall x (List.mem_cons_of_mem _ hx)
      intro event hevent hne
      rw [RuntimePolicy.queued] at hevent
      rcases List.mem_append.mp hevent with hevent | hevent
      · have hshown : s₁.Shown event.requestId := by
          cases ht.ticked with
          | silent hqueued =>
              rw [hqueued] at hevent
              cases hevent
          | record hr =>
              rw [hr.queued, List.mem_singleton] at hevent
              subst hevent
              exact hr.shown ht hcall
          | forget hf => exact absurd (hinv.descriptors_of_forget hf.call hevent) hne
        exact ((foldlM_rule
          (I := fun _ s => SystemInv D s ∧ s.rows.values.Nodup ∧ s.Shown event.requestId)
          (C := fun s call => RecordsAllOrNothing D.policy s.ledger call)
          (fun c _ s₂ s₃ hC hI hs => by
            have ht := tick_ticked hI.1 hs
            exact ⟨ht.after, ht.rows ▸ hI.2.1, ht.shown hI.2.1 hC hI.2.2⟩)
          calls s₁ hrest' ⟨ht.after, ht.rows ▸ hinj, hshown⟩).1 s' hrest).2.2
      · exact ih s₁ ht.after (ht.rows ▸ hinj) hrest' hrest event (ht.policy ▸ hevent) hne

end Shown

/-! ## All stages -/

/-- **Stages with equal layers.** Let the policy be built from the workers' configs, and all
    workers have the same layers. From every state that a worker reaches, no list of events the
    policy emits raises the unregistered layer error; and if rows are injective and every record
    of the step changes no page of its request or all of them, then afterwards every layer of
    the worker has a slot, in the row of each recorded request, for every page of the request. -/
theorem stages_covered {Req : Type} [DecidableEq Req] (configs : List KVCacheConfig)
    (schedulerBlockSize : Nat) (hpos : 0 < schedulerBlockSize) {scheduler : KVCacheConfig}
    {policy : PolicyConfig String}
    (hscheduler : generateSchedulerKvCacheConfig configs = some scheduler)
    (hpolicy : fromKvCacheConfig scheduler schedulerBlockSize hpos = some policy)
    (hphysical : policy.policy = .physical)
    (hequal : ∀ worker ∈ configs, ∀ worker' ∈ configs, ∀ l ∈ worker.layerNames,
      l ∈ worker'.layerNames)
    {worker : KVCacheConfig} (hworker : worker ∈ configs) (segs : List (Segment Req))
    (seg : Segment Req) {s : System Req String}
    (hrun : segs.foldlM System.step (worker.start policy) = .ok s) :
    (∀ l, s.step seg ≠ .error (.unregisteredLayer l)) ∧
      (seg.reqIdToIndex.values.Nodup →
        (∀ x ∈ trace System.tick (s.enter seg) seg.calls,
          RecordsAllOrNothing policy x.1.ledger x.2) →
        ∀ s', s.step seg = .ok s' →
          ∀ event ∈ (s.policy.calls seg.calls).takePhysicalEvents.1, event.descriptors ≠ [] →
          ∀ row, seg.reqIdToIndex.get? event.requestId = some row →
          ∀ l' i d, s'.ledger.get? (event.requestId, l', i) = some d →
          ∀ l ∈ worker.layerNames, ∃ slot k,
            s'.runtime.entry l row i.toNat = some (.of slot k)) := by
  obtain ⟨hnodup, hmem⟩ := layerNames_fromKvCacheConfig hpolicy
  obtain ⟨first, hfirst, hnames⟩ := layerNames_generate hscheduler
  have hsame : ∀ l, l ∈ policy.layerNames ↔ l ∈ worker.layerNames := by
    intro l
    rw [hmem, hnames]
    exact ⟨hequal first hfirst worker hworker l, hequal worker hworker first hfirst l⟩
  have hbetween : Between (worker.deployment policy hphysical hnodup) s :=
    (KVCacheConfig.between_start hsame).steps hrun
  constructor
  · intro l hraise
    have hinv := (systemInv_enter hbetween.toSystemInv seg).trace_tick seg.calls
    obtain ⟨x, hx, ht⟩ := (foldlM_eq_error _ _).mp (step_error hbetween hraise)
    rcases tick_error_cases (hinv x hx).1 ht with ⟨q, -, heq⟩ | hres
    · cases heq
    · exact absurd hres id
  · intro hinj hall s' hstep event hevent hne row hrow l' i d hd l hl
    obtain ⟨s₁, hticks, rfl⟩ := step_ok hbetween hstep
    have hqueued : (s.policy.calls seg.calls).takePhysicalEvents.1 = s.policy.queued seg.calls := by
      have hev := calls_events seg.calls s.policy hbetween.exact
      rwa [hbetween.pending, List.nil_append] at hev
    have hinv := systemInv_enter hbetween.toSystemInv seg
    obtain ⟨hinv₁, hrows₁⟩ := hinv.ticks hticks
    -- the policy tracks a page in every layer if it tracks it in one
    obtain ⟨d', hd', -⟩ := hinv₁.ledger.uniform _ _ _ _ hd l ((hsame l).mpr hl)
    exact shown_of_queued seg.calls _ _ hinv hinj hall hticks event (hqueued ▸ hevent) hne row
      (hrows₁ ▸ hrow) l i d' hd'

/-- A worker with four blocks, for the given layers. -/
def smallWorker (layerNames : List String) : KVCacheConfig where
  numBlocks := 4
  kvCacheGroups := [⟨layerNames, .attention fourPages, fun _ h => nomatch h⟩]
  tmhKvPolicy := .physical
  tmhHotBudgetPct := 25

theorem sixteen_pos : 0 < 16 := by decide

/-- The policy of a scheduler for these workers. -/
def schedulerPolicy (configs : List KVCacheConfig) : Option (PolicyConfig String) :=
  (generateSchedulerKvCacheConfig configs).bind fun config =>
    fromKvCacheConfig config 16 sixteen_pos

/-- A request of two pages in row 0. -/
def twoPages : Segment Nat :=
  ⟨[.recordAllocation 0 32 0 [[{ blockId := 0 }, { blockId := 1 }]]], ownRows 1⟩

/-- Two ranks of one stage: both have both layers. -/
def equalStages : List KVCacheConfig :=
  [smallWorker ["layers.0.attn", "layers.1.attn"], smallWorker ["layers.1.attn", "layers.0.attn"]]

theorem schedulerPolicy_equalStages : (schedulerPolicy equalStages).isSome := by decide +kernel

/-- Two stages with one layer each. -/
def disjointStages : List KVCacheConfig :=
  [smallWorker ["layers.0.attn"], smallWorker ["layers.1.attn"]]

theorem schedulerPolicy_disjointStages : (schedulerPolicy disjointStages).isSome := by
  decide +kernel

theorem stages_covered_equalStages :
    ∃ s', ((smallWorker ["layers.1.attn", "layers.0.attn"]).start
          ((schedulerPolicy equalStages).get schedulerPolicy_equalStages)).step twoPages = .ok s' ∧
      ∃ slot k, s'.runtime.entry "layers.1.attn" 0 1 = some (.of slot k) := by
  obtain ⟨s', hstep, hp⟩ := exists_ok_of_any
    (x := ((smallWorker ["layers.1.attn", "layers.0.attn"]).start
      ((schedulerPolicy equalStages).get schedulerPolicy_equalStages)).step twoPages)
    (p := fun s' => (s'.ledger.get? (0, "layers.0.attn", 1)).isSome) (by decide +kernel)
  obtain ⟨d, hd⟩ := Option.isSome_iff_exists.mp hp
  obtain ⟨event, hevent, hne, hq⟩ : ∃ event ∈
      (((smallWorker ["layers.1.attn", "layers.0.attn"]).start
        ((schedulerPolicy equalStages).get schedulerPolicy_equalStages)).policy.calls
          twoPages.calls).takePhysicalEvents.1,
      event.descriptors ≠ [] ∧ event.requestId = 0 := by decide +kernel
  refine ⟨s', hstep, (stages_covered equalStages 16 (Nat.succ_pos _) rfl (Option.some_get _).symm
    (by decide +kernel) (by decide +kernel) (by simp [equalStages]) [] twoPages rfl).2
    (by decide +kernel) (by decide +kernel) s' hstep event hevent hne 0 ?_ "layers.0.attn" 1 d ?_
    "layers.1.attn" (by decide +kernel)⟩
  · rw [hq]
    decide +kernel
  · rw [hq]
    exact hd

/-- The second stage has no cache for the layer of the first, and raises. -/
theorem stages_covered_fails :
    ((smallWorker ["layers.1.attn"]).start
        ((schedulerPolicy disjointStages).get schedulerPolicy_disjointStages)).step twoPages =
      .error (.unregisteredLayer "layers.0.attn") :=
  eq_error_of_raised (by decide +kernel)

end Sock.Tmh
