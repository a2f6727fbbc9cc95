/-
  The scheduler of a wave (engine/src/executor.rs, `execute_wave`), in both of its modes.

  * `NodeSteps`: the execution of a node, divided into atomic steps in any way.
  * `waveRound`: what the loop does next. The ready nodes run in one thread or in a thread each, and
    the loop waits for all of them.
  * `WaveInvariant`: what has run is in order, and what is left can be ordered if the whole could.
  * `executeWave_schedules`: every schedule of a wave ends, with its nodes in order or at a node
    that is blocked.
-/
import Sock.Lib.ForkJoin
import Sock.Lib.Schedule
import Sock.Engine.Receipts

namespace Sock.Engine

open Lib Sock.Core Fallible Threads Threads.Program Schedule

namespace Executor

/-! ## The loop over the batches -/

/-- The execution of a node as steps that other threads see one by one. Alone they are
    `executeNode`, and the record is the node's whatever the others do. -/
structure NodeSteps (E : Executor) (outcome : PlanningOutcome) where
  steps : MaterializationNode → Program World MaterializationError NodeExecutionResult
  serial_eq : ∀ node, (steps node).serial = E.executeNode outcome node
  named : ∀ node, (steps node).Returns (·.record.nodeName = node.name) fun _ => True

/-- The execution of a node, one step for each of the calls that it makes. A transfer and a warmup
    make only one. -/
def callSteps (E : Executor) (outcome : PlanningOutcome) (node : MaterializationNode) :
    Program World MaterializationError NodeExecutionResult := do
  match node.kind with
  | .compile | .materialize =>
      match (E.requirementIndex outcome).get? node.name with
      | none => .raised (.unknownArtifactNode node.name)
      | some requirement =>
          let artifact ← .atomic (E.materializeArtifact outcome requirement)
          let artifact := { artifact with rankCount := UInt16.ofNat node.rankScope.length }
          let record ← .atomic (E.writeNodeRecord node artifact.disposition [artifact.relativePath]
            (artifact.compileMs + artifact.transferMs) artifact.bytesWritten)
          return ⟨record, some artifact, artifact.compileMs, artifact.transferMs⟩
  | .transfer | .warmup => .atomic (E.executeNode outcome node)
  | .assemble | .verify =>
      let durationMs ← .atomic E.measure
      let record ← .atomic (E.writeNodeRecord node .executed [] durationMs 0)
      return ⟨record, none, 0, 0⟩

theorem serial_callSteps (E : Executor) (outcome : PlanningOutcome) (node : MaterializationNode) :
    (callSteps E outcome node).serial = E.executeNode outcome node := by
  unfold callSteps executeNode
  cases node.kind with
  | compile | materialize =>
      dsimp only
      cases (E.requirementIndex outcome).get? node.name with
      | none => rfl
      | some requirement => simp only [serial_bind, serial_atomic, serial_pure]
  | transfer | warmup => exact serial_atomic _
  | assemble | verify => simp only [serial_bind, serial_atomic, serial_pure]

theorem writeNodeRecord_named (E : Executor) (node : MaterializationNode)
    (disposition : MaterializationDisposition) (outputs : List String)
    (durationMs bytesWritten : Nat) (F : MaterializationError → Prop) (world : World) :
    Finishes (E.writeNodeRecord node disposition outputs durationMs bytesWritten) world
      (fun record _ => record.nodeName = node.name) F :=
  (writeNodeRecord_records ..).imp (fun _ _ h => h.1) fun _ h => h

theorem named_callSteps (E : Executor) (outcome : PlanningOutcome) (node : MaterializationNode) :
    (callSteps E outcome node).Returns (·.record.nodeName = node.name) fun _ => True := by
  have hany : ∀ {α : Type} (x : Exec α), (atomic x).Returns (fun _ => True) fun _ => True :=
    fun x => returns_atomic (finishes_trivial x)
  unfold callSteps
  cases node.kind with
  | compile | materialize =>
      dsimp only
      cases (E.requirementIndex outcome).get? node.name with
      | none => trivial
      | some requirement =>
          refine (hany _).bind fun artifact _ => ?_
          exact (returns_atomic fun _ => writeNodeRecord_named ..).bind fun _ hrecord => hrecord
  | transfer | warmup =>
      exact returns_atomic fun world =>
        (executeNode_records node world).imp (fun _ _ h => h.1) fun _ h => h
  | assemble | verify =>
      refine (hany _).bind fun durationMs _ => ?_
      exact (returns_atomic fun _ => writeNodeRecord_named ..).bind fun _ hrecord => hrecord

/-- One step for each call. -/
def NodeSteps.calls (E : Executor) (outcome : PlanningOutcome) : E.NodeSteps outcome where
  steps := callSteps E outcome
  serial_eq := serial_callSteps E outcome
  named := named_callSteps E outcome

/-- The variables of the loop. -/
structure WaveControl where
  pending : List String
  completed : List String
  results : List NodeExecutionResult

/-- The results of a batch join. -/
def WaveControl.join (control : WaveControl) (batch : List NodeExecutionResult) : WaveControl :=
  let names := batch.map (·.record.nodeName)
  { pending := control.pending.filter (· ∉ names)
    completed := names ++ control.completed
    results := control.results ++ batch }

/-- The nodes of each thread of a batch. -/
def threadNodes : MaterializationSchedulingMode → List MaterializationNode →
    List (List MaterializationNode)
  | .sequential, batch => [batch]
  | .parallel, batch => batch.map ([·])

section Loop

variable {E : Executor} {outcome : PlanningOutcome} (D : E.NodeSteps outcome)
  (mode : MaterializationSchedulingMode)

def forkBatch (control : WaveControl) (batch : List MaterializationNode) :
    Round WaveControl World MaterializationError (List NodeExecutionResult)
      (List NodeExecutionResult) :=
  .fork (threadNodes mode batch).length
    (fun i => .each D.steps ((threadNodes mode batch).get i))
    fun results => control.join (List.ofFn results).flatten

def waveRound (control : WaveControl) : Round WaveControl World MaterializationError
    (List NodeExecutionResult) (List NodeExecutionResult) :=
  match control.pending with
  | [] => .finished (.ok control.results)
  | first :: _ =>
      match control.pending.mapM (nodeIndex outcome).get? with
      | none => .finished (.error (.panicked "known node"))
      | some nodes =>
          match nodes.filter fun node => node.dependencyNodes.all (· ∈ control.completed) with
          | [] => .finished (.error (.missingDependency first))
          | batch => forkBatch D mode control batch

/-- The start of a wave. -/
def waveStart (wave : MaterializationWave) (completed : List String) (world : World) :
    Loop WaveControl World MaterializationError (List NodeExecutionResult)
      (List NodeExecutionResult) :=
  ⟨.control ⟨wave.nodeNames, completed, []⟩, world⟩

end Loop

/-! ## Names and nodes -/

section Names

variable {outcome : PlanningOutcome}

/-- What the node of a name depends on. -/
def dependencies (outcome : PlanningOutcome) (name : String) : List String :=
  (((nodeIndex outcome).get? name).map (·.dependencyNodes)).getD []

theorem name_of_nodeIndex {name : String} {node : MaterializationNode}
    (h : (nodeIndex outcome).get? name = some node) : node.name = name := by
  obtain ⟨node', -, heq⟩ := List.mem_map.mp (Dict.mem_of_get?_ofEntries h)
  cases heq
  rfl

/-- The ready nodes have the ready names. -/
theorem map_name_filter_ready {pending : List String} {nodes : List MaterializationNode}
    (completed : List String) (h : pending.mapM (nodeIndex outcome).get? = some nodes) :
    (nodes.filter fun node => node.dependencyNodes.all (· ∈ completed)).map (·.name) =
      ready (dependencies outcome) completed pending := by
  induction pending generalizing nodes with
  | nil =>
      cases h
      rfl
  | cons name pending ih =>
      rw [List.mapM_cons] at h
      obtain ⟨node, hnode, h⟩ := Option.bind_eq_some_iff.mp h
      obtain ⟨rest, hrest, h⟩ := Option.bind_eq_some_iff.mp h
      cases h
      have hdeps : dependencies outcome name = node.dependencyNodes := by simp [dependencies, hnode]
      have hih := ih hrest
      rw [ready] at hih ⊢
      rw [List.filter_cons, List.filter_cons, hdeps]
      split
      · rw [List.map_cons, hih, name_of_nodeIndex hnode]
      · exact hih

/-- The nodes of known names. -/
theorem exists_nodes {pending : List String}
    (h : ∀ name ∈ pending, ((nodeIndex outcome).get? name).isSome) :
    ∃ nodes, pending.mapM (nodeIndex outcome).get? = some nodes ∧ nodes.map (·.name) = pending ∧
      ∀ node ∈ nodes, (nodeIndex outcome).get? node.name = some node := by
  induction pending with
  | nil => exact ⟨[], rfl, rfl, by simp⟩
  | cons name pending ih =>
      rw [List.forall_mem_cons] at h
      obtain ⟨node, hnode⟩ := Option.isSome_iff_exists.mp h.1
      obtain ⟨nodes, hnodes, hnames, hindex⟩ := ih h.2
      have hname := name_of_nodeIndex hnode
      refine ⟨node :: nodes, ?_, ?_, ?_⟩
      · rw [List.mapM_cons, hnode, hnodes]
        rfl
      · rw [List.map_cons, hname, hnames]
      · rw [List.forall_mem_cons]
        exact ⟨hname ▸ hnode, hindex⟩

end Names

/-! ## What the rounds keep -/

section Rounds

variable {E : Executor} {outcome : PlanningOutcome} {D : E.NodeSteps outcome}
  {mode : MaterializationSchedulingMode} {control : WaveControl} {names completed : List String}

/-- A round with a pending node looks for the ready ones. -/
theorem waveRound_of_nodes {first : String} {rest : List String} {nodes : List MaterializationNode}
    (hpending : control.pending = first :: rest)
    (hnodes : control.pending.mapM (nodeIndex outcome).get? = some nodes) :
    waveRound D mode control =
      match nodes.filter fun node => node.dependencyNodes.all (· ∈ control.completed) with
      | [] => .finished (.error (.missingDependency first))
      | batch => forkBatch D mode control batch := by
  rw [waveRound, hpending]
  dsimp only
  rw [← hpending, hnodes]

/-- What a round does: it returns, it finds no ready node, or it forks the ready nodes. -/
theorem waveRound_cases
    (hknown : ∀ name ∈ control.pending, ((nodeIndex outcome).get? name).isSome) :
    (control.pending = [] ∧ waveRound D mode control = .finished (.ok control.results)) ∨
    (∃ first ∈ control.pending,
      ready (dependencies outcome) control.completed control.pending = [] ∧
      waveRound D mode control = .finished (.error (.missingDependency first))) ∨
    ∃ batch ≠ [], batch.map (·.name) =
        ready (dependencies outcome) control.completed control.pending ∧
      (∀ node ∈ batch, (nodeIndex outcome).get? node.name = some node) ∧
      waveRound D mode control = forkBatch D mode control batch := by
  obtain ⟨nodes, hnodes, -, hindex⟩ := exists_nodes hknown
  have hready := map_name_filter_ready control.completed hnodes
  cases hpending : control.pending with
  | nil => exact .inl ⟨rfl, by rw [waveRound, hpending]⟩
  | cons first rest =>
      rw [waveRound_of_nodes hpending hnodes]
      rw [hpending] at hready
      cases hbatch : nodes.filter fun node => node.dependencyNodes.all (· ∈ control.completed) with
      | nil =>
          rw [hbatch] at hready
          exact .inr (.inl ⟨first, List.mem_cons_self, hready.symm, rfl⟩)
      | cons node batch =>
          rw [hbatch] at hready
          refine .inr (.inr ⟨node :: batch, by simp, hready, fun n hn => hindex n ?_, rfl⟩)
          exact List.mem_of_mem_filter (hbatch ▸ hn)

theorem flatten_threadNodes (batch : List MaterializationNode) :
    (threadNodes mode batch).flatten = batch := by
  cases mode with
  | sequential => exact List.append_nil batch
  | parallel => exact List.flatMap_singleton' batch

/-- Results with the names of their nodes. -/
theorem map_nodeName_of_forall₂ {batch : List MaterializationNode}
    {results : List NodeExecutionResult}
    (h : List.Forall₂ (fun node result => result.record.nodeName = node.name) batch results) :
    results.map (·.record.nodeName) = batch.map (·.name) := by
  rw [← List.forall₂_eq_eq_eq, List.forall₂_map_left_iff, List.forall₂_map_right_iff]
  exact h.flip

/-- The results of the threads are those of the batch, in its order. -/
theorem names_of_threads {batch : List MaterializationNode}
    {results : Fin (threadNodes mode batch).length → List NodeExecutionResult}
    (h : ∀ i, List.Forall₂ (fun node result => result.record.nodeName = node.name)
      ((threadNodes mode batch).get i) (results i)) :
    (List.ofFn results).flatten.map (·.record.nodeName) = batch.map (·.name) := by
  have hthreads : List.Forall₂ (List.Forall₂ fun node result => result.record.nodeName = node.name)
      (threadNodes mode batch) (List.ofFn results) := by
    refine List.forall₂_iff_get.mpr ⟨by simp, fun i hi _ => ?_⟩
    simpa using h ⟨i, hi⟩
  have hflat := List.rel_flatten hthreads
  rw [flatten_threadNodes] at hflat
  exact map_nodeName_of_forall₂ hflat

/-- The rounds so far have run some of the names in order; the others can be ordered if all can. -/
structure WaveInvariant (outcome : PlanningOutcome) (names completed : List String)
    (control : WaveControl) : Prop where
  perm : (control.results.map (·.record.nodeName) ++ control.pending).Perm names
  mem_completed : ∀ name, name ∈ control.completed ↔
    name ∈ control.results.map (·.record.nodeName) ∨ name ∈ completed
  ordered : Ordered (dependencies outcome) completed (control.results.map (·.record.nodeName))
  orderable : Orderable (dependencies outcome) completed names ↔
    Orderable (dependencies outcome) control.completed control.pending

theorem waveInvariant_start (names completed : List String) :
    WaveInvariant outcome names completed ⟨names, completed, []⟩ :=
  ⟨.refl _, fun _ => by simp, trivial, .rfl⟩

theorem WaveInvariant.mem_names (h : WaveInvariant outcome names completed control) {name : String}
    (hname : name ∈ control.pending) : name ∈ names :=
  h.perm.subset (List.mem_append_right _ hname)

/-- A batch of all that is ready. -/
theorem WaveInvariant.join (h : WaveInvariant outcome names completed control)
    {batch : List NodeExecutionResult} (hbatch : batch.map (·.record.nodeName) =
      ready (dependencies outcome) control.completed control.pending) :
    WaveInvariant outcome names completed (control.join batch) := by
  refine ⟨?_, ?_, ?_, ?_⟩
  · rw [WaveControl.join, hbatch, List.map_append, List.append_assoc, hbatch]
    exact (ready_append_perm.append_left _).trans h.perm
  · intro name
    rw [WaveControl.join, List.mem_append, h.mem_completed, List.map_append, List.mem_append]
    tauto
  · rw [WaveControl.join, List.map_append, ordered_append_iff]
    refine ⟨h.ordered, ordered_of_complete fun name hname d hd => ?_⟩
    rw [hbatch] at hname
    exact List.mem_append.mpr ((h.mem_completed d).mp ((mem_ready.mp hname).2 d hd))
  · rw [h.orderable, orderable_ready, WaveControl.join, hbatch]

/-- A batch that is not empty leaves what is pending. -/
theorem length_join_lt {batch : List NodeExecutionResult} (hbatch : batch.map (·.record.nodeName) =
      ready (dependencies outcome) control.completed control.pending)
    (hne : ready (dependencies outcome) control.completed control.pending ≠ []) :
    (control.join batch).pending.length < control.pending.length := by
  have hlength := (@ready_append_perm _ (dependencies outcome) control.completed control.pending
    _).length_eq
  have hpos := List.length_pos_of_ne_nil hne
  show (control.pending.filter (· ∉ batch.map (·.record.nodeName))).length < _
  rw [hbatch]
  rw [List.length_append] at hlength
  omega

/-- The rounds of a wave whose nodes are known. -/
theorem waveRound_invariant {F : MaterializationError → Prop}
    (hknown : ∀ name ∈ names, ((nodeIndex outcome).get? name).isSome)
    (hsteps : ∀ node, (nodeIndex outcome).get? node.name = some node →
      (D.steps node).Returns (·.record.nodeName = node.name) F) :
    Invariant (waveRound D mode) (WaveInvariant outcome names completed) F (·.pending.length) := by
  refine ⟨fun {control n threads join} hI hround => ?_⟩
  rcases @waveRound_cases E outcome D mode control
    fun name hname => hknown name (hI.mem_names hname)
    with ⟨-, h⟩ | ⟨first, -, -, h⟩ | ⟨batch, hne, hbatch, hindex, h⟩
  · cases hround.symm.trans h
  · cases hround.symm.trans h
  · cases hround.symm.trans h
    refine ⟨fun i => List.Forall₂ (fun node result => result.record.nodeName = node.name)
      ((threadNodes mode batch).get i), fun i => ?_, fun results hresults => ?_⟩
    · refine returns_each fun node hnode => hsteps node (hindex node ?_)
      rw [← @flatten_threadNodes mode batch]
      exact List.mem_flatten.mpr ⟨_, List.get_mem _ _, hnode⟩
    · have hready := (names_of_threads hresults).trans hbatch
      exact ⟨hI.join hready, length_join_lt hready (by simpa [← hbatch] using hne)⟩

end Rounds

/-! ## Sequential waves -/

section Sequential

variable {E : Executor} {outcome : PlanningOutcome} (D : E.NodeSteps outcome)

/-- A sequential batch is one thread. -/
theorem forkBatch_sequential (control : WaveControl) (batch : List MaterializationNode) :
    forkBatch D .sequential control batch =
      .fork 1 (fun _ => .each D.steps batch) fun results => control.join (results 0) := by
  have hthread : ∀ i : Fin 1, [batch].get i = batch := by
    intro i
    cases Subsingleton.elim i 0
    rfl
  show Round.fork 1 _ _ = _
  congr 1
  · funext i
    exact congrArg _ (hthread i)
  · funext results
    exact congrArg _ (List.append_nil _)

theorem serial_batch (batch : List MaterializationNode) :
    (each D.steps batch).serial = batch.mapM (E.executeNode outcome) := by
  rw [serial_each]
  exact congrArg (fun f => List.mapM f batch) (funext D.serial_eq)

/-- The loop in one thread gets to where a function ended. -/
def LoopEnds (control : WaveControl) (world : World) :
    EStateM.Result MaterializationError World (List NodeExecutionResult) → Prop
  | .ok results world' => Loop.Reaches (waveRound D .sequential) ⟨.control control, world⟩
      ⟨.finished (.ok (control.results ++ results)), world'⟩
  | .error e world' =>
      Loop.Reaches (waveRound D .sequential) ⟨.control control, world⟩
        ⟨.finished (.error e), world'⟩ ∨
      Loop.Reaches (waveRound D .sequential) ⟨.control control, world⟩ ⟨.raised e, world'⟩

theorem loopEnds_nil {control : WaveControl} (h : control.pending = []) (world : World) :
    LoopEnds D control world (.ok [] world) := by
  refine .single ?_
  rw [List.append_nil]
  exact .finish (by rw [waveRound, h])

variable {D}

/-- A batch has run, and the loop ends as `x` does. -/
theorem LoopEnds.of_join {control : WaveControl} {results : List NodeExecutionResult}
    {world world₁ : World} {x : Exec (List NodeExecutionResult)}
    (hjoin : Loop.Reaches (waveRound D .sequential) ⟨.control control, world⟩
      ⟨.control (control.join results), world₁⟩)
    (h : LoopEnds D (control.join results) world₁ (x.run world₁)) :
    LoopEnds D control world ((x >>= fun rest => pure (results ++ rest)).run world₁) := by
  rw [EStateM.run_bind]
  cases hx : x.run world₁ with
  | ok rest world' =>
      rw [hx] at h
      change Loop.Reaches _ _ ⟨.finished (.ok (control.results ++ results ++ rest)), world'⟩ at h
      rw [List.append_assoc] at h
      exact hjoin.trans h
  | error e world' =>
      rw [hx] at h
      exact h.imp hjoin.trans hjoin.trans

/-- The batches one after the other are a run of the loop in one thread. -/
theorem loopEnds_executeBatches {fuel : Nat} {control : WaveControl} {world : World}
    (hknown : ∀ name ∈ control.pending, ((nodeIndex outcome).get? name).isSome)
    (hfuel : control.pending.length ≤ fuel) :
    LoopEnds D control world ((executeBatches (nodeIndex outcome) (E.executeNode outcome) fuel
      control.pending control.completed).run world) := by
  induction fuel generalizing control world with
  | zero =>
      have hnil : control.pending = [] := List.length_eq_zero_iff.mp (by omega)
      rw [hnil]
      exact loopEnds_nil D hnil world
  | succ fuel ih =>
      cases hpending : control.pending with
      | nil => exact loopEnds_nil D hpending world
      | cons first rest =>
          obtain ⟨nodes, hnodes, hnames, hindex⟩ := exists_nodes hknown
          have hlookup := run_mapM_knownNode hindex world
          rw [hnames, hpending] at hlookup
          have hready := map_name_filter_ready control.completed hnodes
          have hround := @waveRound_of_nodes E outcome D .sequential _ _ _ _ hpending hnodes
          rw [executeBatches, EStateM.run_bind, hlookup]
          dsimp only
          cases hbatch : nodes.filter fun node =>
              node.dependencyNodes.all (· ∈ control.completed) with
          | nil =>
              rw [hbatch] at hround
              exact .inl (.single (.finish hround))
          | cons node batch =>
              rw [hbatch] at hround hready
              dsimp only at hround ⊢
              rw [forkBatch_sequential] at hround
              rw [EStateM.run_bind]
              cases hrun : ((node :: batch).mapM (E.executeNode outcome)).run world with
              | error e world' =>
                  rw [← serial_batch D] at hrun
                  exact .inr (.head (.fork hround) (Loop.reaches_of_serial_error hrun))
              | ok results world₁ =>
                  rw [← serial_batch D] at hrun
                  refine LoopEnds.of_join (.head (.fork hround) (Loop.reaches_of_serial hrun)) ?_
                  -- the rest of the batches, with one node less to run at least
                  have hnamed := (map_nodeName_of_forall₂
                    ((returns_each fun node _ => D.named node).of_serial hrun)).trans hready
                  have hlength := length_join_lt hnamed (by simp [← hready])
                  have hrest := @ih (control.join results) world₁
                    (fun name hname => hknown name (List.mem_of_mem_filter hname)) (by omega)
                  rw [← hpending]
                  exact hrest

variable (D)

/-- **Sequential waves.** The function that runs a wave is a run of the loop in one thread. -/
theorem loopEnds_executeWave {wave : MaterializationWave} (completed : List String) (world : World)
    (hknown : ∀ name ∈ wave.nodeNames, ((nodeIndex outcome).get? name).isSome) :
    LoopEnds D ⟨wave.nodeNames, completed, []⟩ world
      ((E.executeWave outcome wave completed).run world) :=
  @loopEnds_executeBatches E outcome D wave.nodeNames.length ⟨wave.nodeNames, completed, []⟩ world
    hknown le_rfl

end Sequential

/-! ## The schedule -/

section Schedule

variable {E : Executor} {outcome : PlanningOutcome}

/-- What a wave returns: one result for each node, after those of its dependencies, if the nodes can
    be ordered; otherwise the name of a node that is blocked. -/
structure WaveResult (outcome : PlanningOutcome) (wave : MaterializationWave)
    (completed : List String) (r : Except MaterializationError (List NodeExecutionResult)) :
    Prop where
  returned : Orderable (dependencies outcome) completed wave.nodeNames →
    ∃ results, r = .ok results ∧ (results.map (·.record.nodeName)).Perm wave.nodeNames ∧
      Ordered (dependencies outcome) completed (results.map (·.record.nodeName))
  failed : ¬ Orderable (dependencies outcome) completed wave.nodeNames →
    ∃ name ∈ wave.nodeNames, r = .error (.missingDependency name) ∧
      Blocked (dependencies outcome) wave.nodeNames completed name

/-- A round that ends the loop ends it as the wave should. -/
theorem WaveInvariant.waveResult {D : E.NodeSteps outcome} {mode : MaterializationSchedulingMode}
    {wave : MaterializationWave} {completed : List String} {control : WaveControl}
    {r : Except MaterializationError (List NodeExecutionResult)}
    (hknown : ∀ name ∈ wave.nodeNames, ((nodeIndex outcome).get? name).isSome)
    (h : WaveInvariant outcome wave.nodeNames completed control)
    (hround : waveRound D mode control = .finished r) : WaveResult outcome wave completed r := by
  have hpending : ∀ name ∈ control.pending, ((nodeIndex outcome).get? name).isSome :=
    fun name hname => hknown name (h.mem_names hname)
  rcases waveRound_cases hpending with
    ⟨hnil, heq⟩ | ⟨first, hfirst, hnone, heq⟩ | ⟨batch, -, -, -, heq⟩
  · cases hround.symm.trans heq
    have hperm := h.perm
    rw [hnil, List.append_nil] at hperm
    exact ⟨fun _ => ⟨_, rfl, hperm, h.ordered⟩, fun hnot => absurd ⟨_, hperm, h.ordered⟩ hnot⟩
  · cases hround.symm.trans heq
    refine ⟨fun horder => ?_, fun _ => ⟨first, h.mem_names hfirst, rfl, ?_⟩⟩
    · exact absurd hnone (ready_ne_nil (h.orderable.mp horder) (List.ne_nil_of_mem hfirst))
    · refine blocked_of_ready_eq_nil hnone ?_ (fun _ => h.mem_names) ?_ hfirst
      · exact fun name hname => (h.mem_completed name).mpr (.inr hname)
      · -- a node of the wave that is not complete has not run
        intro name hname hopen
        refine (List.mem_append.mp (h.perm.symm.subset hname)).resolve_left fun hresult => ?_
        exact hopen ((h.mem_completed name).mpr (.inl hresult))
  · cases hround.symm.trans heq

variable (D : E.NodeSteps outcome)

/-- **Waves.** If no node fails, every schedule of a wave ends, and it ends with its nodes in order
    or at a node that is blocked; for a sequential wave this is the result of `executeWave`. On the
    way, a node that is started has not run before, and its dependencies have. -/
theorem executeWave_schedules {wave : MaterializationWave} {completed : List String} {world : World}
    (hnodup : wave.nodeNames.Nodup)
    (hknown : ∀ name ∈ wave.nodeNames, ((nodeIndex outcome).get? name).isSome)
    (hsucceeds : ∀ e world', ¬ Loop.Reaches
      (waveRound D (schedulingMode wave.executionContract.discipline))
      (waveStart wave completed world) ⟨.raised e, world'⟩) :
    let round := waveRound D (schedulingMode wave.executionContract.discipline)
    let start := waveStart wave completed world
    Acc (fun c' c => Loop.Step round c c') start ∧
    (∀ c, Loop.Reaches round start c → (∀ c', ¬ Loop.Step round c c') →
      ∃ r, c.phase = .finished r ∧ WaveResult outcome wave completed r) ∧
    (schedulingMode wave.executionContract.discipline = .sequential →
      WaveResult outcome wave completed
        (endValue ((E.executeWave outcome wave completed).run world))) ∧
    ∀ control world', Loop.Reaches round start ⟨.control control, world'⟩ →
      ∀ name ∈ ready (dependencies outcome) control.completed control.pending,
        name ∉ control.results.map (·.record.nodeName) ∧
        ∀ d ∈ dependencies outcome name,
          d ∈ control.results.map (·.record.nodeName) ∨ d ∈ completed := by
  intro round start
  have hinvariant : Invariant round (WaveInvariant outcome wave.nodeNames completed)
      (fun _ => True) (·.pending.length) :=
    waveRound_invariant hknown fun node _ => D.named node
  have hstart := @waveInvariant_start outcome wave.nodeNames completed
  have hfinished : ∀ r world', Loop.Reaches round start ⟨.finished r, world'⟩ →
      WaveResult outcome wave completed r := by
    intro r world' hreach
    obtain ⟨control, hI, hround⟩ := hinvariant.holds_of_reaches (c := start) hstart hreach
    exact hI.waveResult hknown hround
  refine ⟨hinvariant.acc hstart world, ?_, ?_, ?_⟩
  · rintro ⟨phase, world'⟩ hreach hend
    rcases Loop.ended_of_not_step hend with ⟨r, hr⟩ | ⟨e, he⟩
    · cases hr
      exact ⟨r, rfl, hfinished r world' hreach⟩
    · cases he
      exact absurd hreach (hsucceeds e world')
  · intro hmode
    have hround : waveRound D .sequential = round := by rw [← hmode]
    have hends := loopEnds_executeWave D completed world hknown
    cases hrun : (E.executeWave outcome wave completed).run world with
    | ok results world' =>
        rw [hrun, LoopEnds, hround] at hends
        exact hfinished _ world' hends
    | error e world' =>
        rw [hrun, LoopEnds, hround] at hends
        exact hfinished _ world' (hends.resolve_right (hsucceeds e world'))
  · intro control world' hreach name hname
    have hI : WaveInvariant outcome wave.nodeNames completed control :=
      hinvariant.holds_of_reaches (c := start) hstart hreach
    obtain ⟨hpending, hdeps⟩ := mem_ready.mp hname
    refine ⟨fun hresult => ?_, fun d hd => (hI.mem_completed d).mp (hdeps d hd)⟩
    exact (List.nodup_append'.mp (hI.perm.nodup_iff.mpr hnodup)).2.2 hresult hpending

end Schedule

/-! ### Sample -/

section Sample

/-- A node that verifies what other nodes have done. -/
def verifyNode (name : String) (dependencyNodes : List String) : MaterializationNode where
  name := name
  wave := 0
  kind := .verify
  queue := .verify
  plane := .correctness
  dependencyNodes := dependencyNodes
  consumes := []
  produces := []
  rankScope := [0]
  invalidationDomain := ""
  replayBoundary := ""
  expectedCompileMs := none
  expectedBytesWritten := none
  expectedTransferMs := none
  residualJitRiskRemoved := 0
  executionContract := ⟨.verify, .parallelPerRank, .preServeBlocking, .none, []⟩

/-- A parallel wave that lists a node before the one it depends on. -/
def verifyWave : MaterializationWave where
  name := "wave-0-verify"
  queue := .verify
  nodeNames := ["second", "first"]
  estimate := ⟨none, none, none, 0, 0⟩
  hazardRepairs := []
  executionContract := ⟨"wave-0-verify", .verify, .parallelPerRank, .preServeBlocking, []⟩

/-- The sample plan with the two nodes in place of its own. -/
noncomputable def verifyOutcome : PlanningOutcome :=
  let outcome := (amdPlan ⟨1, 1, 1⟩).outcome
  { outcome with
    plan := { outcome.plan with
      materializationGraph := { outcome.plan.materializationGraph with
        nodes := [verifyNode "first" [], verifyNode "second" ["first"]] } } }

/-- Verification does not fail. -/
theorem returns_verify {node : MaterializationNode} (h : node.kind = .verify) :
    (callSteps amdExecutor verifyOutcome node).Returns (·.record.nodeName = node.name)
      fun _ => False := by
  have hmeasure : (atomic amdExecutor.measure).Returns (fun _ => True)
      fun _ : MaterializationError => False :=
    returns_atomic fun _ => finishes_of_ok rfl trivial
  unfold callSteps
  rw [h]
  refine hmeasure.bind fun durationMs _ => ?_
  exact (returns_atomic fun _ => writeNodeRecord_named ..).bind fun _ hrecord => hrecord

theorem nodeIndex_verifyOutcome : nodeIndex verifyOutcome = .ofEntries
    [("first", verifyNode "first" []), ("second", verifyNode "second" ["first"])] := rfl

/-- Every schedule of the sample runs both nodes, the second after the first. -/
theorem executeWave_schedules_verify :
    Orderable (dependencies verifyOutcome) [] verifyWave.nodeNames ∧
    ∀ c, Loop.Reaches (waveRound (.calls amdExecutor verifyOutcome) .parallel)
        (waveStart verifyWave [] freshWorld) c →
      (∀ c', ¬ Loop.Step (waveRound (.calls amdExecutor verifyOutcome) .parallel) c c') →
      ∃ results, c.phase = .finished (.ok results) ∧
        (results.map (·.record.nodeName)).Perm ["second", "first"] ∧
        Ordered (dependencies verifyOutcome) [] (results.map (·.record.nodeName)) := by
  have horder : Orderable (dependencies verifyOutcome) [] verifyWave.nodeNames := by
    refine ⟨["first", "second"], .swap .., ?_⟩
    simp only [Ordered, dependencies, nodeIndex_verifyOutcome]
    decide
  have hknown : ∀ name ∈ verifyWave.nodeNames, ((nodeIndex verifyOutcome).get? name).isSome := by
    rw [nodeIndex_verifyOutcome]
    decide
  have hsteps : ∀ node, (nodeIndex verifyOutcome).get? node.name = some node →
      (callSteps amdExecutor verifyOutcome node).Returns (·.record.nodeName = node.name)
        fun _ => False := by
    intro node hnode
    refine returns_verify ?_
    have hmem := Dict.mem_of_get?_ofEntries (nodeIndex_verifyOutcome ▸ hnode)
    simp only [List.mem_cons, Prod.mk.injEq, List.not_mem_nil, or_false] at hmem
    rcases hmem with ⟨-, rfl⟩ | ⟨-, rfl⟩ <;> rfl
  have hsucceeds : ∀ e world', ¬ Loop.Reaches (waveRound (.calls amdExecutor verifyOutcome)
      (schedulingMode verifyWave.executionContract.discipline))
      (waveStart verifyWave [] freshWorld) ⟨.raised e, world'⟩ := by
    have hinvariant : Invariant (waveRound (.calls amdExecutor verifyOutcome) .parallel)
        (WaveInvariant verifyOutcome verifyWave.nodeNames []) (fun _ => False)
        (·.pending.length) := waveRound_invariant hknown hsteps
    intro e world' hreach
    exact hinvariant.holds_of_reaches (c := waveStart verifyWave [] freshWorld)
      (waveInvariant_start verifyWave.nodeNames []) hreach
  obtain ⟨-, hends, -⟩ :=
    executeWave_schedules (.calls amdExecutor verifyOutcome) (by decide) hknown hsucceeds
  refine ⟨horder, fun c hreach hend => ?_⟩
  obtain ⟨r, hr, hresult⟩ := hends c hreach hend
  obtain ⟨results, rfl, hperm, hordered⟩ := hresult.returned horder
  exact ⟨results, hr, hperm, hordered⟩

end Sample

end Executor

end Sock.Engine
