/-
  What a whole run of the executor does.

  * `NodesRun`: nodes that run one after the other, each as `NodeRun` says; `Stuck`: one of them
    finds a file that it cannot read.
  * `executeBatches_finishes`: nodes without open dependencies run once, in their order.
  * `waves_finish`: the waves of a graph whose dependencies are in earlier waves run all its nodes
    in the order of the waves.
  * `execute_finishes`: the report is that of the nodes' results, and no error but that of a file is
    raised.
-/
import Sock.Engine.Cache
import Sock.Engine.Graph

namespace Sock.Engine

open Lib Sock.Core Fallible

namespace Executor

open Progress

/-! ## Nodes in a row -/

section NodesRun

variable (E : Executor) (outcome : PlanningOutcome)

/-- The nodes run one after the other. -/
inductive NodesRun : List MaterializationNode → Cache → List NodeExecutionResult → Cache → Prop
  | nil {cache : Cache} : NodesRun [] cache [] cache
  | cons {node : MaterializationNode} {nodes : List MaterializationNode}
      {cache cache₁ cache' : Cache} {result : NodeExecutionResult}
      {results : List NodeExecutionResult} (hnode : E.NodeRun outcome node cache result cache₁)
      (hrest : NodesRun nodes cache₁ results cache') :
      NodesRun (node :: nodes) cache (result :: results) cache'

/-- The nodes run until one of them finds a file that it cannot read. -/
inductive Stuck : List MaterializationNode → Cache → Prop
  | here {node : MaterializationNode} {nodes : List MaterializationNode} {cache : Cache}
      (hfails : E.NodeFails outcome node cache) : Stuck (node :: nodes) cache
  | later {node : MaterializationNode} {nodes : List MaterializationNode} {cache cache' : Cache}
      {result : NodeExecutionResult} (hnode : E.NodeRun outcome node cache result cache')
      (hrest : Stuck nodes cache') : Stuck (node :: nodes) cache

variable {E outcome}
variable {nodes nodes' : List MaterializationNode} {cache cache₁ cache' : Cache}
  {results results' : List NodeExecutionResult}

theorem NodesRun.append (h : E.NodesRun outcome nodes cache results cache₁)
    (h' : E.NodesRun outcome nodes' cache₁ results' cache') :
    E.NodesRun outcome (nodes ++ nodes') cache (results ++ results') cache' := by
  induction h with
  | nil => exact h'
  | cons hnode _ ih => exact .cons hnode (ih h')

theorem Stuck.append_left (h : E.Stuck outcome nodes cache) :
    E.Stuck outcome (nodes ++ nodes') cache := by
  induction h with
  | here hfails => exact .here hfails
  | later hnode _ ih => exact .later hnode ih

theorem Stuck.append_right (h : E.NodesRun outcome nodes cache results cache')
    (h' : E.Stuck outcome nodes' cache') : E.Stuck outcome (nodes ++ nodes') cache := by
  induction h with
  | nil => exact h'
  | cons hnode _ ih => exact .later hnode (ih h')

theorem NodeRun.readable {node : MaterializationNode} {result : NodeExecutionResult}
    (hround : E.RoundTrip) (hread : E.Readable cache)
    (h : E.NodeRun outcome node cache result cache') : E.Readable cache' := by
  cases hartifact : E.artifactOf outcome node with
  | none => exact (h.of_none hartifact).2 ▸ hread
  | some artifact =>
      obtain ⟨r, observedMs, -, -, -, hrealized⟩ := h.of_some hartifact
      obtain ⟨x, hx, hreadable⟩ := hread.exists_realized hround
        (E.artifactDocument outcome artifact.1 artifact.2)
        ((E.artifactDocument outcome artifact.1 artifact.2).observe (max observedMs 1))
      rw [realizedAt, hx] at hrealized
      cases hrealized
      exact hreadable

/-- From a cache that can be read no node gets stuck. -/
theorem not_stuck (hround : E.RoundTrip) (hread : E.Readable cache) :
    ¬ E.Stuck outcome nodes cache := by
  intro h
  induction h with
  | here hfails =>
      obtain ⟨q, identity, observedMs, -, hnone⟩ := hfails
      obtain ⟨x, hx, -⟩ := hread.exists_realized hround (E.artifactDocument outcome q identity)
        ((E.artifactDocument outcome q identity).observe (max observedMs 1))
      rw [realizedAt, hx] at hnone
      cases hnone
  | later hnode _ ih => exact ih (hnode.readable hround hread)

/-- There is one record for each node. -/
theorem NodesRun.map_record (h : E.NodesRun outcome nodes cache results cache') :
    (results.map (·.record)).map plannedNodePart = nodes.map (E.plannedNode outcome) := by
  induction h with
  | nil => rfl
  | cons hnode _ ih => rw [List.map_cons, List.map_cons, List.map_cons, hnode.record, ih]

theorem NodesRun.map_nodeName (h : E.NodesRun outcome nodes cache results cache') :
    results.map (·.record.nodeName) = nodes.map (·.name) := by
  have hnames := congrArg (List.map (·.nodeName)) h.map_record
  simp only [List.map_map] at hnames
  exact hnames

/-- A loop over nodes runs them one after the other. -/
theorem mapM_executeNode_finishes (h : ∀ node ∈ nodes, E.Runnable outcome node) (world : World) :
    Finishes (nodes.mapM (E.executeNode outcome)) world
      (fun results world' => E.NodesRun outcome nodes world.cache results world'.cache)
      (fun e => e.isFile = true ∧ E.Stuck outcome nodes world.cache) := by
  induction nodes generalizing world with
  | nil => exact finishes_of_ok rfl .nil
  | cons node nodes ih =>
      rw [List.mapM_cons]
      have hfirst := (executeNode_finishes (h node List.mem_cons_self) world).imp
        (fun _ _ hrun => hrun) (fun e he => (⟨he.1, .here he.2⟩ : e.isFile = true ∧
          E.Stuck outcome (node :: nodes) world.cache))
      refine hfirst.bind fun result world₁ hnode => ?_
      have hrest := (ih (fun n hn => h n (List.mem_cons_of_mem _ hn)) world₁).imp
        (fun _ _ hrun => hrun) (fun e he => (⟨he.1, .later hnode he.2⟩ : e.isFile = true ∧
          E.Stuck outcome (node :: nodes) world.cache))
      exact hrest.bind fun results world' hnodes => finishes_of_ok rfl (.cons hnode hnodes)

end NodesRun

variable {E : Executor} {outcome : PlanningOutcome}

/-! ## Batches -/

theorem run_mapM_knownNode {index : Dict String MaterializationNode}
    {nodes : List MaterializationNode} (h : ∀ node ∈ nodes, index.get? node.name = some node)
    (world : World) :
    ((nodes.map (·.name)).mapM (knownNode index)).run world = .ok nodes world := by
  induction nodes with
  | nil => rfl
  | cons node nodes ih =>
      have hnode : (knownNode index node.name).run world = .ok node world := by
        rw [knownNode, h node List.mem_cons_self]
        rfl
      rw [List.map_cons]
      exact run_mapM_cons_ok.mpr
        ⟨_, _, _, hnode, ih fun n hn => h n (List.mem_cons_of_mem _ hn), rfl⟩

/-- Nodes whose dependencies are complete run once, in their order. -/
theorem executeBatches_finishes {index : Dict String MaterializationNode}
    {run : MaterializationNode → Exec NodeExecutionResult} {nodes : List MaterializationNode}
    {completed : List String} (hindex : ∀ node ∈ nodes, index.get? node.name = some node)
    (hready : ∀ node ∈ nodes, ∀ d ∈ node.dependencyNodes, d ∈ completed) {world : World}
    {Q : List NodeExecutionResult → World → Prop} {R : MaterializationError → Prop}
    (hrun : Finishes (nodes.mapM run) world Q R)
    (hnames : ∀ results world', Q results world' →
      results.map (·.record.nodeName) = nodes.map (·.name)) :
    Finishes (executeBatches index run nodes.length (nodes.map (·.name)) completed) world Q R := by
  cases nodes with
  | nil => exact hrun
  | cons node nodes =>
      have hfilter : (node :: nodes).filter (fun n => n.dependencyNodes.all (· ∈ completed)) =
          node :: nodes := by
        rw [List.filter_eq_self]
        intro n hn
        simpa using hready n hn
      have hknown := run_mapM_knownNode hindex world
      rw [List.map_cons] at hknown
      rw [List.length_cons, List.map_cons, executeBatches]
      refine (finishes_of_ok (P := fun known world' => known = node :: nodes ∧ world' = world)
        hknown ⟨rfl, rfl⟩).bind fun _ _ h => ?_
      obtain ⟨rfl, rfl⟩ := h
      rw [hfilter]
      refine hrun.bind fun results world' hQ => ?_
      -- every pending name has its result, so the next batch is empty
      have hrest : (node.name :: nodes.map (·.name)).filter
          (· ∉ results.map (·.record.nodeName)) = [] := by
        rw [hnames results world' hQ, List.filter_eq_nil_iff, List.map_cons]
        exact fun name hname => by simp only [hname, not_true_eq_false, decide_false,
          Bool.false_eq_true, not_false_eq_true]
      dsimp only
      rw [hrest, executeBatches, pure_bind, List.append_nil]
      exact finishes_of_ok rfl hQ

/-! ## Progress -/

/-- The progress with other wave records. -/
def Progress.withWaves (progress : Progress) (records : List MaterializationWaveRecord) :
    Progress :=
  { progress with waveRecords := records }

theorem foldl_add_withWaves (results : List NodeExecutionResult) (progress : Progress)
    (records : List MaterializationWaveRecord) :
    results.foldl add (progress.withWaves records) =
      (results.foldl add progress).withWaves records := by
  induction results generalizing progress with
  | nil => rfl
  | cons result results ih =>
      rw [List.foldl_cons, List.foldl_cons, ← ih]
      refine congrArg (results.foldl add) ?_
      unfold add
      cases result.artifact <;> rfl

theorem waveRecords_foldl_add (results : List NodeExecutionResult) (progress : Progress) :
    (results.foldl add progress).waveRecords = progress.waveRecords := by
  have h := congrArg waveRecords
    (foldl_add_withWaves results progress progress.waveRecords)
  exact h

theorem completedNodes_foldl_add (results : List NodeExecutionResult) (progress : Progress) :
    (results.foldl add progress).completedNodes =
      (results.map (·.record.nodeName)).reverse ++ progress.completedNodes := by
  induction results generalizing progress with
  | nil => rfl
  | cons result results ih =>
      rw [List.foldl_cons, ih]
      unfold add
      cases result.artifact <;> simp [addArtifact]

theorem nodeRecords_foldl_add (results : List NodeExecutionResult) (progress : Progress) :
    (results.foldl add progress).nodeRecords =
      progress.nodeRecords ++ results.map (·.record) := by
  induction results generalizing progress with
  | nil => simp
  | cons result results ih =>
      rw [List.foldl_cons, ih]
      unfold add
      cases result.artifact <;> simp [addArtifact]

theorem artifacts_add (progress : Progress) (result : NodeExecutionResult) :
    (progress.add result).artifacts = match result.artifact with
      | some artifact => progress.artifacts.set artifact.storageKey artifact
      | none => progress.artifacts := by
  unfold add
  cases result.artifact <;> rfl

/-- The artifacts are those of the results, by their storage keys. -/
theorem artifacts_foldl_add (results : List NodeExecutionResult) (progress : Progress) :
    (results.foldl add progress).artifacts =
      ((results.filterMap (·.artifact)).map fun r => (r.storageKey, r)).foldl
        (fun d e => d.set e.1 e.2) progress.artifacts := by
  induction results generalizing progress with
  | nil => rfl
  | cons result results ih =>
      rw [List.foldl_cons, ih, artifacts_add]
      cases hartifact : result.artifact with
      | none => rw [List.filterMap_cons_none hartifact]
      | some artifact => rw [List.filterMap_cons_some hartifact, List.map_cons, List.foldl_cons]

/-! ## Waves -/

section Waves

variable {nodes : List MaterializationNode}

/-- What the executor needs of a graph. -/
structure Executable (E : Executor) (outcome : PlanningOutcome) (nodes : List MaterializationNode) :
    Prop where
  index : ∀ node ∈ nodes, (nodeIndex outcome).get? node.name = some node
  dependsEarlier : DependsEarlier nodes
  runnable : ∀ node ∈ nodes, E.Runnable outcome node

/-- The record of a wave without what is observed when it runs. -/
def plannedWavePart (record : MaterializationWaveRecord) : MaterializationWaveRecord :=
  { record with durationMs := 0, bytesWritten := 0 }

/-- What the record of a wave will say, whatever is in the cache. -/
def plannedWave (wave : MaterializationWave) : MaterializationWaveRecord where
  waveName := wave.name
  queue := wave.queue
  discipline := wave.executionContract.discipline
  schedulingMode := schedulingMode wave.executionContract.discipline
  maxParallelism := waveMaxParallelism wave
  nodeNames := wave.nodeNames
  relativePath := receiptPath "materialization/waves" wave.name
  durationMs := 0
  bytesWritten := 0

/-- The progress after the nodes of some waves. -/
def WavesRun (E : Executor) (outcome : PlanningOutcome) (waves : List MaterializationWave)
    (nodes : List MaterializationNode) (progress : Progress) (cache : Cache) (progress' : Progress)
    (cache' : Cache) : Prop :=
  ∃ results records, E.NodesRun outcome nodes cache results cache' ∧
    records.map plannedWavePart = waves.map plannedWave ∧
    progress' = (results.foldl add progress).withWaves (progress.waveRecords ++ records)

/-- One wave: its nodes run, and a record joins. -/
theorem runWave_finishes (hexec : E.Executable outcome nodes) (key : Nat × QueueKind)
    {progress : Progress} (hready : ∀ node ∈ waveMembers nodes key, ∀ d ∈ node.dependencyNodes,
      d ∈ progress.completedNodes) (world : World) :
    Finishes (E.runWave outcome progress (waveOf nodes key)) world
      (fun progress' world' => E.WavesRun outcome [waveOf nodes key] (waveMembers nodes key)
        progress world.cache progress' world'.cache)
      (fun e => e.isFile = true ∧ E.Stuck outcome (waveMembers nodes key) world.cache) := by
  have hmem : ∀ node ∈ waveMembers nodes key, node ∈ nodes := fun _ h => (mem_waveMembers.mp h).1
  have hwave : Finishes (E.executeWave outcome (waveOf nodes key) progress.completedNodes) world
      (fun results world' => E.NodesRun outcome (waveMembers nodes key) world.cache results
        world'.cache)
      (fun e => e.isFile = true ∧ E.Stuck outcome (waveMembers nodes key) world.cache) := by
    rw [executeWave, waveOf, buildWave, List.length_map]
    exact executeBatches_finishes (fun node h => hexec.index node (hmem node h)) hready
      (mapM_executeNode_finishes (fun node h => hexec.runnable node (hmem node h)) world)
      (fun _ _ hrun => hrun.map_nodeName)
  refine hwave.bind fun results world₁ hrun => ?_
  refine finishes_of_ok (run_bind_ok.mpr ⟨_, _, rfl, run_bind_ok.mpr ⟨_, _, rfl, rfl⟩⟩) ?_
  refine ⟨results, [?record], hrun, ?names, ?progress⟩
  case progress =>
    rw [waveRecords_foldl_add]
    rfl
  case names => rfl

/-- The waves from some wave on run the nodes of these waves. -/
theorem wavesFrom_finish (hexec : E.Executable outcome nodes)
    {before later : List (Nat × QueueKind)}
    (hsplit : waveKeys nodes = before ++ later) {progress : Progress}
    (hbefore : ∀ node ∈ before.flatMap (waveMembers nodes), node.name ∈ progress.completedNodes)
    (world : World) :
    Finishes ((later.map (waveOf nodes)).foldlM (E.runWave outcome) progress) world
      (fun progress' world' => E.WavesRun outcome (later.map (waveOf nodes))
        (later.flatMap (waveMembers nodes)) progress world.cache progress' world'.cache)
      (fun e => e.isFile = true ∧
        E.Stuck outcome (later.flatMap (waveMembers nodes)) world.cache) := by
  induction later generalizing before progress world with
  | nil =>
      refine finishes_of_ok rfl ⟨[], [], .nil, rfl, ?_⟩
      rw [List.append_nil]
      rfl
  | cons key later ih =>
      -- the dependencies of this wave are names of the waves before it
      have hready : ∀ node ∈ waveMembers nodes key, ∀ d ∈ node.dependencyNodes,
          d ∈ progress.completedNodes := by
        intro node hnode d hd
        obtain ⟨hmem, rfl⟩ := mem_waveMembers.mp hnode
        obtain ⟨source, hsource, rfl, hlt⟩ := hexec.dependsEarlier node hmem d hd
        exact hbefore source (mem_before hsplit hsource (waveOrder_of_lt hlt))
      rw [List.map_cons, List.foldlM_cons, List.flatMap_cons]
      refine ((runWave_finishes hexec key hready world).imp (fun _ _ h => h)
        fun e he => ⟨he.1, he.2.append_left⟩).bind fun progress₁ world₁ hwave => ?_
      obtain ⟨results, records, hrun, hrecords, rfl⟩ := hwave
      have hsplit' : waveKeys nodes = (before ++ [key]) ++ later := by simp [hsplit]
      refine (ih hsplit' ?_ world₁).imp ?_ fun e he => ⟨he.1, he.2.append_right hrun⟩
      · intro node hnode
        rw [withWaves, completedNodes_foldl_add, hrun.map_nodeName]
        rw [List.flatMap_append, List.mem_append] at hnode
        rcases hnode with hnode | hnode
        · exact List.mem_append_right _ (hbefore node hnode)
        · rw [List.flatMap_singleton] at hnode
          exact List.mem_append_left _ (List.mem_reverse.mpr (List.mem_map_of_mem hnode))
      · rintro progress' world' ⟨results', records', hrun', hrecords', rfl⟩
        refine ⟨results ++ results', records ++ records', hrun.append hrun', ?_, ?_⟩
        · rw [List.map_append, hrecords, hrecords']
          rfl
        · rw [foldl_add_withWaves, List.foldl_append, ← List.append_assoc]
          rfl

/-- **Waves.** The waves of the graph run all its nodes, in their order. -/
theorem waves_finish (hexec : E.Executable outcome nodes) (world : World) :
    Finishes ((buildWaves nodes).foldlM (E.runWave outcome) .start) world
      (fun progress world' => E.WavesRun outcome (buildWaves nodes) (executionOrder nodes) .start
        world.cache progress world'.cache)
      (fun e => e.isFile = true ∧ E.Stuck outcome (executionOrder nodes) world.cache) := by
  rw [buildWaves_eq]
  exact wavesFrom_finish hexec (List.nil_append _).symm (by simp) world

end Waves

/-! ## The run -/

/-- The report of a run with the results of its nodes. -/
structure RunReport (E : Executor) (outcome : PlanningOutcome) (scope : BuildScope)
    (cache : Cache) (report : MaterializationExecutionReport) (cache' : Cache) where
  results : List NodeExecutionResult
  waves : List MaterializationWaveRecord
  wallClockMs : Nat
  nodesRun : E.NodesRun outcome (executionOrder outcome.plan.materializationGraph.nodes) cache
    results cache'
  wavesRun : waves.map plannedWavePart = (buildWaves outcome.plan.materializationGraph.nodes).map
    plannedWave
  report_eq : report = E.report outcome scope ((results.foldl add .start).withWaves waves)
    wallClockMs

/-- **Runs.** A graph that the executor can look up runs to a report of its nodes in the order of
    the waves, unless a file of the cache cannot be read. -/
theorem execute_finishes (hwaves : outcome.plan.materializationGraph.waves =
      buildWaves outcome.plan.materializationGraph.nodes)
    (hexec : E.Executable outcome outcome.plan.materializationGraph.nodes) (scope : BuildScope)
    (world : World) :
    Finishes (E.execute outcome scope) world
      (fun report world' => Nonempty (E.RunReport outcome scope world.cache report world'.cache))
      (fun e => e.isFile = true ∧ E.Stuck outcome
        (executionOrder outcome.plan.materializationGraph.nodes) world.cache) := by
  rw [execute, hwaves]
  refine (waves_finish hexec world).bind fun progress world₁ hrun => ?_
  obtain ⟨results, records, hnodes, hnames, rfl⟩ := hrun
  exact finishes_of_ok (run_bind_ok.mpr ⟨_, _, rfl, run_bind_ok.mpr ⟨_, _, rfl, rfl⟩⟩)
    ⟨⟨results, records, _, hnodes, hnames, rfl⟩⟩

/-- From a cache that can be read the run returns a report. -/
theorem execute_returns (hwaves : outcome.plan.materializationGraph.waves =
      buildWaves outcome.plan.materializationGraph.nodes)
    (hexec : E.Executable outcome outcome.plan.materializationGraph.nodes) (hround : E.RoundTrip)
    (scope : BuildScope) {world : World} (hread : E.Readable world.cache) :
    ∃ report world', (E.execute outcome scope).run world = .ok report world' := by
  have hfinishes := execute_finishes hwaves hexec scope world
  cases hrun : (E.execute outcome scope).run world with
  | ok report world' => exact ⟨report, world', rfl⟩
  | error e world' => exact absurd (hfinishes.of_error hrun).2 (not_stuck hround hread)

end Executor

end Sock.Engine
