/-
  The records and receipts of a run (engine/src/executor.rs, `write_node_record`, `write_receipt`).

  * `Spares`: a step leaves a file as it is. A node takes its record, and the file of its artifact
    or receipt (`spares_executeNode`).
  * `executeNode_records`: a node ends with its record in its file.
  * `WaveRun`: a wave runs nodes in a row, and writes its receipt.
  * `receipts_kept`: at the end of a run every record is in its file.
-/
import Sock.Engine.FileNames

namespace Sock.Engine

open Lib Sock.Core Fallible

/-! ## What a node writes -/

namespace Executor

/-- The file is left as it is. -/
def Spares {α : Type} (path : String) (x : Exec α) : Prop :=
  ∀ content, Keeps (fun world => world.bundle path = content) x

section Spares

variable {α β : Type} {path : String}

theorem Spares.bind {x : Exec α} {f : α → Exec β} (hx : Spares path x)
    (hf : ∀ a, Spares path (f a)) :
    Spares path (x >>= f) := fun content => keeps_bind (hx content) fun a => hf a content

theorem spares_pure (a : α) : Spares path (pure a : Exec α) := fun _ => keeps_pure a

theorem spares_throw (e : MaterializationError) : Spares path (throw e : Exec α) := fun _ _ h => h

theorem spares_get : Spares path (get : Exec World) := fun _ _ h => h

/-- A change of the cache. -/
theorem spares_modify {f : World → World} (h : ∀ world, (f world).bundle = world.bundle) :
    Spares path (modify f : Exec Unit) :=
  fun _ world hworld => (congrFun (h world) path).trans hworld

theorem spares_writeBundle {file : String} (h : path ≠ file) (text : String) :
    Spares path (writeBundle file text) :=
  fun _ world hworld => (world.bundle.write_of_ne h text).trans hworld

variable (E : Executor) (outcome : PlanningOutcome)

theorem spares_measure : Spares path E.measure := fun _ _ h => h

theorem spares_fileSize (file : String) : Spares path (fileSize file) := by
  refine spares_get.bind fun world => ?_
  split
  · exact spares_pure _
  · exact spares_throw _

theorem spares_parse (bytes : Bytes) : Spares path (E.parse bytes) := by
  unfold parse
  split
  · exact spares_throw _
  · split
    · exact spares_pure _
    · exact spares_throw _

theorem spares_evictInvalidatedSiblings (document : MaterializedArtifactDocument) :
    Spares path (E.evictInvalidatedSiblings document) := by
  refine spares_get.bind fun world content => keeps_forM _ fun entry => ?_
  refine (spares_parse E entry.2).bind (fun existing => ?_) content
  split
  · exact spares_modify fun _ => rfl
  · exact spares_pure _

theorem spares_rebuild (document : MaterializedArtifactDocument) :
    Spares path (E.rebuild document) := fun _ _ h => h

theorem spares_loadExistingDocument (key : CacheKey) :
    Spares path (E.loadExistingDocument key) := by
  refine spares_get.bind fun world => ?_
  split
  · exact spares_throw _
  · exact (spares_parse E _).bind fun _ => (spares_measure E).bind fun _ => spares_pure _

theorem spares_realize (document rebuilt : MaterializedArtifactDocument) :
    Spares path (E.realize document rebuilt) := by
  refine spares_get.bind fun world => ?_
  split
  · exact (spares_evictInvalidatedSiblings E _).bind fun _ => spares_rebuild E _
  · refine (spares_evictInvalidatedSiblings E _).bind fun _ => ?_
    refine (spares_loadExistingDocument E _).bind fun loaded => ?_
    dsimp only
    split
    · exact spares_pure _
    · exact (spares_evictInvalidatedSiblings E _).bind fun _ => spares_rebuild E _

/-- Of the bundle an artifact takes its own file only. -/
theorem spares_materializeArtifact (h : ∀ key, path ≠ artifactPath key) (q : ArtifactRequirement) :
    Spares path (E.materializeArtifact outcome q) := by
  unfold materializeArtifact
  split
  · exact spares_throw _
  · refine (spares_measure E).bind fun _ => ?_
    refine (spares_realize E _ _).bind fun _ => ?_
    refine (spares_writeBundle (h _) _).bind fun _ => ?_
    exact (spares_fileSize _).bind fun _ => spares_pure _

theorem spares_writeNodeRecord {node : MaterializationNode}
    (h : path ≠ receiptPath "materialization/nodes" node.name)
    (disposition : MaterializationDisposition) (outputs : List String)
    (durationMs bytesWritten : Nat) :
    Spares path (E.writeNodeRecord node disposition outputs durationMs bytesWritten) :=
  (spares_writeBundle h _).bind fun _ => spares_pure _

theorem spares_writeReceipt {relativeDir name : String} (h : path ≠ receiptPath relativeDir name)
    (payload : Value) : Spares path (E.writeReceipt relativeDir name payload) :=
  (spares_writeBundle h _).bind fun _ => spares_pure _

theorem spares_executeReceiptNode {node : MaterializationNode} {relativeDir : String}
    (hrecord : path ≠ receiptPath "materialization/nodes" node.name)
    (hreceipt : path ≠ receiptPath relativeDir node.name) (payload : Value) :
    Spares path (E.executeReceiptNode node relativeDir payload) := by
  refine (spares_writeReceipt E hreceipt payload).bind fun _ => ?_
  refine (spares_measure E).bind fun _ => ?_
  refine (spares_fileSize _).bind fun _ => ?_
  exact (spares_writeNodeRecord E hrecord _ _ _ _).bind fun _ => spares_pure _

/-- A node writes its record, its artifact or its receipt. -/
theorem spares_executeNode {node : MaterializationNode}
    (hrecord : path ≠ receiptPath "materialization/nodes" node.name)
    (hfanout : node.kind = .transfer → path ≠ receiptPath "materialization/waves" node.name)
    (hwarmup : path ≠ receiptPath "warmup" node.name) (hartifact : ∀ key, path ≠ artifactPath key) :
    Spares path (E.executeNode outcome node) := by
  unfold executeNode
  cases hkind : node.kind with
  | compile | materialize =>
      dsimp only
      cases (E.requirementIndex outcome).get? node.name with
      | none => exact spares_throw _
      | some q =>
          refine (spares_materializeArtifact E outcome hartifact q).bind fun _ => ?_
          exact (spares_writeNodeRecord E hrecord _ _ _ _).bind fun _ => spares_pure _
  | transfer =>
      exact (spares_executeReceiptNode E hrecord (hfanout hkind) _).bind fun _ => spares_pure _
  | warmup =>
      dsimp only
      cases (warmupIndex outcome).get? node.name with
      | none => exact spares_throw _
      | some o => exact (spares_executeReceiptNode E hrecord hwarmup _).bind fun _ => spares_pure _
  | assemble | verify =>
      refine (spares_measure E).bind fun _ => ?_
      exact (spares_writeNodeRecord E hrecord _ _ _ _).bind fun _ => spares_pure _

end Spares

/-! ## Records -/

/-- The record of a node is in its file. -/
structure Recorded (E : Executor) (record : MaterializationNodeRecord) (world : World) : Prop where
  path : record.relativePath = receiptPath "materialization/nodes" record.nodeName
  file : world.bundle record.relativePath = some (.text (E.canon.canonicalJson record))

variable {E : Executor} {outcome : PlanningOutcome}

/-- The record is the node's, and in its file. -/
def Records (E : Executor) (node : MaterializationNode) (record : MaterializationNodeRecord)
    (world : World) : Prop := record.nodeName = node.name ∧ E.Recorded record world

theorem writeNodeRecord_records (node : MaterializationNode)
    (disposition : MaterializationDisposition) (outputs : List String)
    (durationMs bytesWritten : Nat) (F : MaterializationError → Prop) (world : World) :
    Finishes (E.writeNodeRecord node disposition outputs durationMs bytesWritten) world
      (E.Records node) F :=
  finishes_of_ok rfl ⟨rfl, rfl, Directory.write_self ..⟩

theorem executeReceiptNode_records (node : MaterializationNode) (relativeDir : String)
    (payload : Value) (world : World) :
    Finishes (E.executeReceiptNode node relativeDir payload) world
      (fun r => E.Records node r.1) fun _ => True := by
  refine (finishes_trivial _ world).bind fun _ world _ => ?_
  refine (finishes_trivial _ world).bind fun _ world _ => ?_
  refine (finishes_trivial _ world).bind fun _ world _ => ?_
  exact (writeNodeRecord_records ..).bind fun _ _ hrecord => finishes_of_ok rfl hrecord

/-- The record is the last that a node writes. -/
theorem executeNode_records (node : MaterializationNode) (world : World) :
    Finishes (E.executeNode outcome node) world (fun result => E.Records node result.record)
      fun _ => True := by
  unfold executeNode
  cases node.kind with
  | compile | materialize =>
      dsimp only
      cases (E.requirementIndex outcome).get? node.name with
      | none => exact finishes_of_error rfl trivial
      | some q =>
          refine (finishes_trivial _ world).bind fun _ world _ => ?_
          exact (writeNodeRecord_records ..).bind fun _ _ hrecord => finishes_of_ok rfl hrecord
  | transfer =>
      exact (executeReceiptNode_records ..).bind fun _ _ hrecord => finishes_of_ok rfl hrecord
  | warmup =>
      dsimp only
      cases (warmupIndex outcome).get? node.name with
      | none => exact finishes_of_error rfl trivial
      | some o =>
          exact (executeReceiptNode_records ..).bind fun _ _ hrecord => finishes_of_ok rfl hrecord
  | assemble | verify =>
      refine (finishes_trivial _ world).bind fun _ world _ => ?_
      exact (writeNodeRecord_records ..).bind fun _ _ hrecord => finishes_of_ok rfl hrecord

/-! ## Directories of the bundle -/

theorem receiptPath_inj {relativeDir name name' : String} :
    receiptPath relativeDir name = receiptPath relativeDir name' ↔ slug name = slug name' := by
  simp [receiptPath]

theorem nodup_receiptPath {α : Type} {name : α → String} {xs : List α} (relativeDir : String)
    (h : (xs.map fun x => slug (name x)).Nodup) :
    (xs.map fun x => receiptPath relativeDir (name x)).Nodup := by
  rw [List.Nodup, List.pairwise_map] at h ⊢
  exact h.imp fun hne heq => hne (receiptPath_inj.mp heq)

theorem receiptPath_nodes_ne_waves (name name' : String) :
    receiptPath "materialization/nodes" name ≠ receiptPath "materialization/waves" name' := by
  intro h
  have hletter := congrArg (·.toList[16]?) h
  simp [receiptPath] at hletter

/-- The report is beside the directory of the records and receipts. -/
theorem receiptPath_ne_report (name : String) :
    receiptPath "materialization/nodes" name ≠ "materialization_report.json" ∧
      receiptPath "materialization/waves" name ≠ "materialization_report.json" := by
  constructor <;> intro h
  · have hletter := congrArg (·.toList[15]?) h
    simp [receiptPath] at hletter
  · have hletter := congrArg (·.toList[15]?) h
    simp [receiptPath] at hletter

/-- A file of the materialization is not written by a node, unless it is the node's record or the
    receipt of its fanout. -/
theorem spares_executeNode_receipt {node : MaterializationNode} {relativeDir name : String}
    (hdir : relativeDir.toList.head? = some 'm')
    (hrecord : receiptPath relativeDir name ≠ receiptPath "materialization/nodes" node.name)
    (hfanout : node.kind = .transfer →
      receiptPath relativeDir name ≠ receiptPath "materialization/waves" node.name) :
    Spares (receiptPath relativeDir name) (E.executeNode outcome node) := by
  have hhead : (receiptPath relativeDir name).toList.head? = some 'm' := by
    simp [receiptPath, hdir]
  refine spares_executeNode E outcome hrecord hfanout ?_ fun key => ?_
  · intro h
    rw [h] at hhead
    simp [receiptPath] at hhead
  · intro h
    rw [h] at hhead
    simp [artifactPath] at hhead

theorem spares_executeNode_record {node : MaterializationNode} {name : String}
    (h : slug name ≠ slug node.name) :
    Spares (receiptPath "materialization/nodes" name) (E.executeNode outcome node) :=
  spares_executeNode_receipt (by decide) (fun heq => h (receiptPath_inj.mp heq))
    fun _ => receiptPath_nodes_ne_waves _ _

theorem spares_executeNode_wave {node : MaterializationNode} {name : String}
    (h : node.kind = .transfer → slug name ≠ slug node.name) :
    Spares (receiptPath "materialization/waves" name) (E.executeNode outcome node) :=
  spares_executeNode_receipt (by decide) (receiptPath_nodes_ne_waves _ _).symm
    fun hkind heq => h hkind (receiptPath_inj.mp heq)

/-! ## Nodes in a row -/

variable {nodes : List MaterializationNode} {results : List NodeExecutionResult}
  {world world' : World}

/-- Nodes with distinct slugs leave each other's records as they are. -/
theorem mapM_executeNode_records
    (hrun : (nodes.mapM (E.executeNode outcome)).run world = .ok results world')
    (hdistinct : (nodes.map fun node => slug node.name).Nodup) :
    ∀ result ∈ results, E.Recorded result.record world' := by
  induction nodes generalizing world results with
  | nil =>
      cases hrun
      simp
  | cons node nodes ih =>
      rw [List.map_cons, List.nodup_cons] at hdistinct
      obtain ⟨first, world₁, rest, hfirst, hrest, rfl⟩ := run_mapM_cons_ok.mp hrun
      obtain ⟨hname, hrecorded⟩ := (executeNode_records node world).of_ok hfirst
      refine List.forall_mem_cons.mpr ⟨⟨hrecorded.path, ?_⟩, ih hrest hdistinct.2⟩
      -- the nodes after it write other files
      have hspares : Keeps (fun world => world.bundle first.record.relativePath =
          some (.text (E.canon.canonicalJson first.record)))
          (nodes.mapM (E.executeNode outcome)) := by
        refine keeps_mapM fun later hlater => ?_
        rw [hrecorded.path, hname]
        refine spares_executeNode_record (fun heq => hdistinct.1 ?_) _
        exact List.mem_map.mpr ⟨later, hlater, heq.symm⟩
      exact hspares.of_ok hrecorded.file hrest

theorem mapM_executeNode_names
    (hrun : (nodes.mapM (E.executeNode outcome)).run world = .ok results world') :
    results.map (·.record.nodeName) = nodes.map (·.name) := by
  induction nodes generalizing world results with
  | nil =>
      cases hrun
      rfl
  | cons node nodes ih =>
      obtain ⟨first, world₁, rest, hfirst, hrest, rfl⟩ := run_mapM_cons_ok.mp hrun
      rw [List.map_cons, List.map_cons, ((executeNode_records node world).of_ok hfirst).1, ih hrest]

theorem mapM_knownNode_ok {index : Dict String MaterializationNode} {pending : List String}
    (hrun : (pending.mapM (knownNode index)).run world = .ok nodes world') :
    world' = world ∧ ∀ node ∈ nodes, ∃ name, index.get? name = some node := by
  induction pending generalizing nodes with
  | nil =>
      cases hrun
      exact ⟨rfl, by simp⟩
  | cons name pending ih =>
      obtain ⟨node, world₁, rest, hnode, hrest, rfl⟩ := run_mapM_cons_ok.mp hrun
      unfold knownNode at hnode
      cases hget : index.get? name with
      | none =>
          rw [hget] at hnode
          cases hnode
      | some found =>
          rw [hget] at hnode
          cases hnode
          obtain ⟨rfl, hnodes⟩ := ih hrest
          exact ⟨rfl, List.forall_mem_cons.mpr ⟨⟨name, hget⟩, hnodes⟩⟩

/-- The batches run some nodes of the index in a row. -/
theorem executeBatches_ok {index : Dict String MaterializationNode}
    {run : MaterializationNode → Exec NodeExecutionResult} {fuel : Nat}
    {pending completed : List String}
    (hrun : (executeBatches index run fuel pending completed).run world = .ok results world') :
    ∃ nodes : List MaterializationNode, (∀ node ∈ nodes, ∃ name, index.get? name = some node) ∧
      (nodes.mapM run).run world = .ok results world' := by
  induction fuel generalizing pending completed world results with
  | zero =>
      cases pending with
      | nil => exact ⟨[], by simp, hrun⟩
      | cons name pending => cases hrun
  | succ fuel ih =>
      cases pending with
      | nil => exact ⟨[], by simp, hrun⟩
      | cons name pending =>
          rw [executeBatches] at hrun
          obtain ⟨known, world₀, hknown, hready⟩ := run_bind_ok.mp hrun
          obtain ⟨rfl, hindex⟩ := mapM_knownNode_ok hknown
          split at hready
          · cases hready
          · obtain ⟨batch, world₁, hbatch, hbatches⟩ := run_bind_ok.mp hready
            obtain ⟨rest, _, hrest, hpure⟩ := run_bind_ok.mp hbatches
            cases hpure
            obtain ⟨later, hlater, hnodes⟩ := ih hrest
            have happend : ((known.filter (fun node => node.dependencyNodes.all (· ∈ completed)) ++
                later).mapM run).run world₀ = .ok (batch ++ rest) world' := by
              rw [List.mapM_append]
              exact run_bind_ok.mpr ⟨_, _, hbatch, run_bind_ok.mpr ⟨_, _, hnodes, rfl⟩⟩
            refine ⟨_, fun node hnode => ?_, happend⟩
            rcases List.mem_append.mp hnode with hnode | hnode
            · exact hindex node (List.mem_filter.mp hnode).1
            · exact hlater node hnode

/-! ## Waves -/

/-- The receipt of a wave is in the file of its record. -/
structure Filed (E : Executor) (outcome : PlanningOutcome) (record : MaterializationWaveRecord)
    (wave : MaterializationWave) (world : World) : Prop where
  planned : plannedWavePart record = plannedWave wave
  file : world.bundle record.relativePath =
    some (.text (E.canon.canonicalJson (waveReceipt outcome wave)))

/-- What a wave does: some nodes run in a row, and its receipt is written. -/
structure WaveRun (E : Executor) (outcome : PlanningOutcome) (wave : MaterializationWave)
    (progress : Progress) (world : World) (progress' : Progress) (world' : World) where
  nodes : List MaterializationNode
  results : List NodeExecutionResult
  record : MaterializationWaveRecord
  world₁ : World
  nodes_mem : ∀ node ∈ nodes, node ∈ outcome.plan.materializationGraph.nodes
  nodes_run : (nodes.mapM (E.executeNode outcome)).run world = .ok results world₁
  nodeRecords_eq : progress'.nodeRecords = progress.nodeRecords ++ results.map (·.record)
  waveRecords_eq : progress'.waveRecords = progress.waveRecords ++ [record]
  planned : plannedWavePart record = plannedWave wave
  bundle_eq : world'.bundle = world₁.bundle.write (receiptPath "materialization/waves" wave.name)
    (E.canon.canonicalJson (waveReceipt outcome wave))

theorem runWave_ok {progress progress' : Progress} {wave : MaterializationWave}
    (hrun : (E.runWave outcome progress wave).run world = .ok progress' world') :
    Nonempty (WaveRun E outcome wave progress world progress' world') := by
  obtain ⟨results, world₁, hwave, hreceipt⟩ := run_bind_ok.mp hrun
  obtain ⟨nodes, hnodes, hmapM⟩ := executeBatches_ok hwave
  obtain ⟨_, _, hwrite, hrecord⟩ := run_bind_ok.mp hreceipt
  obtain ⟨_, _, hmeasure, hpure⟩ := run_bind_ok.mp hrecord
  cases hwrite
  cases hmeasure
  cases hpure
  refine ⟨⟨nodes, results, _, world₁, fun node hnode => ?_, hmapM, nodeRecords_foldl_add results _,
    congrArg (· ++ [_]) (waveRecords_foldl_add results _), rfl, rfl⟩⟩
  obtain ⟨name, hget⟩ := hnodes node hnode
  obtain ⟨node', hmem, heq⟩ := List.mem_map.mp (Dict.mem_of_get?_ofEntries hget)
  cases heq
  exact hmem

/-- The records so far are in their files. -/
structure Kept (E : Executor) (outcome : PlanningOutcome) (progress : Progress) (world : World) :
    Prop where
  nodes : ∀ record ∈ progress.nodeRecords, E.Recorded record world
  waves : ∀ record ∈ progress.waveRecords, ∃ wave ∈ outcome.plan.materializationGraph.waves,
    E.Filed outcome record wave world

theorem Recorded.of_bundle {record : MaterializationNodeRecord} (h : E.Recorded record world)
    (hfile : world'.bundle (receiptPath "materialization/nodes" record.nodeName) =
      world.bundle (receiptPath "materialization/nodes" record.nodeName)) :
    E.Recorded record world' := by
  rw [← h.path] at hfile
  exact ⟨h.path, hfile.trans h.file⟩

theorem Filed.of_bundle {record : MaterializationWaveRecord} {wave : MaterializationWave}
    (h : E.Filed outcome record wave world)
    (hfile : world'.bundle (receiptPath "materialization/waves" wave.name) =
      world.bundle (receiptPath "materialization/waves" wave.name)) :
    E.Filed outcome record wave world' := by
  have hpath : record.relativePath = receiptPath "materialization/waves" wave.name :=
    congrArg (·.relativePath) h.planned
  rw [← hpath] at hfile
  exact ⟨h.planned, hfile.trans h.file⟩

theorem bundle_of_spares {path : String}
    (hrun : (nodes.mapM (E.executeNode outcome)).run world = .ok results world')
    (h : ∀ node ∈ nodes, Spares path (E.executeNode outcome node)) :
    world'.bundle path = world.bundle path :=
  (keeps_mapM fun node hnode => h node hnode (world.bundle path)).of_ok rfl hrun

namespace WaveRun

variable {wave : MaterializationWave} {progress progress' : Progress}
  (run : WaveRun E outcome wave progress world progress' world')

theorem waveName_eq : run.record.waveName = wave.name := congrArg (·.waveName) run.planned

theorem bundle_of_ne {path : String} (h : path ≠ receiptPath "materialization/waves" wave.name) :
    world'.bundle path = run.world₁.bundle path := by
  rw [run.bundle_eq, Directory.write_of_ne _ h]

include run

/-- The records of the nodes are kept, those that were there and those that join. -/
theorem recorded (hnodes : (progress'.nodeRecords.map fun record => slug record.nodeName).Nodup)
    (h : ∀ record ∈ progress.nodeRecords, E.Recorded record world) :
    ∀ record ∈ progress'.nodeRecords, E.Recorded record world' := by
  have hnames : (run.results.map (·.record)).map (fun record => slug record.nodeName) =
      run.nodes.map fun node => slug node.name := by
    have hslugs := congrArg (List.map slug) (mapM_executeNode_names run.nodes_run)
    rw [List.map_map, List.map_map] at hslugs
    rw [List.map_map]
    exact hslugs
  rw [run.nodeRecords_eq] at hnodes ⊢
  rw [List.map_append, hnames, List.nodup_append] at hnodes
  obtain ⟨-, hdistinct, hapart⟩ := hnodes
  intro record hrecord
  have hreceipt := run.bundle_of_ne (receiptPath_nodes_ne_waves record.nodeName wave.name)
  rcases List.mem_append.mp hrecord with hrecord | hrecord
  · refine (h record hrecord).of_bundle (hreceipt.trans ?_)
    refine bundle_of_spares run.nodes_run fun node hnode => spares_executeNode_record ?_
    exact hapart _ (List.mem_map_of_mem hrecord) _ (List.mem_map_of_mem hnode)
  · obtain ⟨result, hresult, rfl⟩ := List.mem_map.mp hrecord
    exact (mapM_executeNode_records run.nodes_run hdistinct result hresult).of_bundle hreceipt

/-- The receipts of the waves are kept, and that of this wave joins. -/
theorem filed (hfiles : DistinctFiles outcome.plan.materializationGraph)
    (hwave : wave ∈ outcome.plan.materializationGraph.waves)
    (hapart : ∀ record ∈ progress.waveRecords, slug record.waveName ≠ slug wave.name)
    (h : ∀ record ∈ progress.waveRecords, ∃ wave ∈ outcome.plan.materializationGraph.waves,
      E.Filed outcome record wave world) :
    ∀ record ∈ progress'.waveRecords, ∃ wave ∈ outcome.plan.materializationGraph.waves,
      E.Filed outcome record wave world' := by
  intro record hrecord
  rw [run.waveRecords_eq] at hrecord
  rcases List.mem_append.mp hrecord with hrecord | hrecord
  · obtain ⟨earlier, hearlier, hfiled⟩ := h record hrecord
    have hname : record.waveName = earlier.name := congrArg (·.waveName) hfiled.planned
    have hne := hapart record hrecord
    rw [hname] at hne
    refine ⟨earlier, hearlier, hfiled.of_bundle ?_⟩
    rw [run.bundle_of_ne fun heq => hne (receiptPath_inj.mp heq)]
    refine bundle_of_spares run.nodes_run fun node hnode => spares_executeNode_wave fun hkind => ?_
    exact hfiles.fanouts earlier hearlier node (run.nodes_mem node hnode) hkind
  · cases List.mem_singleton.mp hrecord
    have hpath : run.record.relativePath = receiptPath "materialization/waves" wave.name :=
      congrArg (·.relativePath) run.planned
    refine ⟨wave, hwave, run.planned, ?_⟩
    rw [run.bundle_eq, hpath, Directory.write_self]

end WaveRun

/-- The waves from some wave on keep the records, as far as their nodes are distinct. -/
theorem waves_kept (hfiles : DistinctFiles outcome.plan.materializationGraph)
    {waves : List MaterializationWave}
    (hmem : ∀ wave ∈ waves, wave ∈ outcome.plan.materializationGraph.waves)
    {progress progress' : Progress}
    (hrun : (waves.foldlM (E.runWave outcome) progress).run world = .ok progress' world')
    (hwaves : (progress.waveRecords.map (fun record => slug record.waveName) ++
      waves.map fun wave => slug wave.name).Nodup) :
    ∃ later, progress'.nodeRecords = progress.nodeRecords ++ later ∧
      ((progress'.nodeRecords.map fun record => slug record.nodeName).Nodup →
        E.Kept outcome progress world → E.Kept outcome progress' world') := by
  induction waves generalizing progress world with
  | nil =>
      cases hrun
      exact ⟨[], (List.append_nil _).symm, fun _ h => h⟩
  | cons wave waves ih =>
      rw [List.foldlM_cons] at hrun
      obtain ⟨progress₁, world₁, hwave, hrest⟩ := run_bind_ok.mp hrun
      obtain ⟨run⟩ := runWave_ok hwave
      obtain ⟨hwave, hmem⟩ := List.forall_mem_cons.mp hmem
      have hwaves₁ : (progress₁.waveRecords.map (fun record => slug record.waveName) ++
          waves.map fun wave => slug wave.name).Nodup := by
        rw [run.waveRecords_eq, List.map_append, List.append_assoc, List.map_singleton,
          run.waveName_eq]
        exact hwaves
      obtain ⟨later, hlater, hkept⟩ := ih hmem hrest hwaves₁
      refine ⟨run.results.map (·.record) ++ later, ?_, fun hnodes h => hkept hnodes ?_⟩
      · rw [hlater, run.nodeRecords_eq, List.append_assoc]
      · rw [hlater, List.map_append] at hnodes
        refine ⟨run.recorded hnodes.of_append_left h.nodes, run.filed hfiles hwave ?_ h.waves⟩
        intro record hrecord
        exact (List.nodup_append.mp hwaves).2.2 _ (List.mem_map_of_mem hrecord) _ List.mem_cons_self

/-- After all waves the records are in their files, if the nodes are distinct. -/
theorem kept_of_start (hfiles : DistinctFiles outcome.plan.materializationGraph)
    {progress : Progress}
    (hrun : (outcome.plan.materializationGraph.waves.foldlM (E.runWave outcome) .start).run world =
      .ok progress world')
    (hnodes : (progress.nodeRecords.map fun record => slug record.nodeName).Nodup) :
    E.Kept outcome progress world' := by
  obtain ⟨-, -, hkept⟩ := waves_kept hfiles (fun _ hwave => hwave) hrun hfiles.waves
  exact hkept hnodes ⟨fun _ h => absurd h List.not_mem_nil, fun _ h => absurd h List.not_mem_nil⟩

end Executor

namespace Resolution

variable {E : Executor} {host : PlannerHostSnapshot} {raw : RawRequest} {scope : BuildScope}
  (r : Resolution E.canon E.vllm host raw scope) {buildScope : BuildScope} {world world' : World}
  {report : MaterializationExecutionReport}

theorem distinctFiles (hC : E.canon.CollisionFree) (hhex : E.canon.Hexadecimal) :
    DistinctFiles r.outcome.plan.materializationGraph :=
  r.toAssembly.distinctFiles hC hhex r.nodup_nodeNames

/-- After the waves the records are in their files. -/
theorem kept_of_waves (hC : E.canon.CollisionFree) (hhex : E.canon.Hexadecimal)
    {progress : Executor.Progress}
    (h : (r.plan.materializationGraph.waves.foldlM (E.runWave r.outcome) .start).run world =
      .ok progress world') : E.Kept r.outcome progress world' := by
  have hfiles := r.distinctFiles hC hhex
  refine Executor.kept_of_start hfiles h ?_
  have hperm := (r.nodeRecords_of_waves h).1.map slug
  rw [List.map_map, List.map_map] at hperm
  exact hperm.nodup_iff.mpr hfiles.nodes

/-- At the end of a run the records of its report are in their files. -/
theorem kept_of_execute (hC : E.canon.CollisionFree) (hhex : E.canon.Hexadecimal)
    (h : (E.execute r.outcome buildScope).run world = .ok report world') :
    (∀ record ∈ report.nodes, E.Recorded record world') ∧
      ∀ record ∈ report.waves, ∃ wave ∈ r.plan.materializationGraph.waves,
        E.Filed r.outcome record wave world' := by
  obtain ⟨progress, world₁, hwaves, hreport⟩ := run_bind_ok.mp h
  obtain ⟨wallClockMs, world₂, hmeasure, hwrite⟩ := run_bind_ok.mp hreport
  obtain ⟨_, world₃, hfile, hpure⟩ := run_bind_ok.mp hwrite
  have hrest : ∀ {path}, path ≠ "materialization_report.json" →
      world₃.bundle path = world₁.bundle path := fun hne =>
    (Executor.spares_writeBundle hne _ _).of_ok
      ((Executor.spares_measure E _).of_ok rfl hmeasure) hfile
  cases hpure
  have hkept := r.kept_of_waves hC hhex hwaves
  refine ⟨fun record hrecord => ?_, fun record hrecord => ?_⟩
  · refine (hkept.nodes record ((sortBy_perm _ _).mem_iff.mp hrecord)).of_bundle ?_
    exact hrest (Executor.receiptPath_ne_report record.nodeName).1
  · obtain ⟨wave, hwave, hfiled⟩ := hkept.waves record ((sortBy_perm _ _).mem_iff.mp hrecord)
    exact ⟨wave, hwave, hfiled.of_bundle (hrest (Executor.receiptPath_ne_report wave.name).2)⟩

end Resolution

/-- **Receipts never overwrite each other.** No two nodes of a resolved plan have their records in
    one file, and no two waves or fanouts their receipts. So at the end of a run every record that
    the report names is there, and is that of its node or wave. -/
theorem receipts_kept {E : Executor} {host : PlannerHostSnapshot} {raw : RawRequest}
    {scope : BuildScope} {outcome : PlanningOutcome} (hC : E.canon.CollisionFree)
    (hhex : E.canon.Hexadecimal)
    (h : resolveScoped E.canon E.vllm host raw scope = .ok outcome) :
    let graph := outcome.plan.materializationGraph
    (graph.nodes.map fun node => Executor.receiptPath "materialization/nodes" node.name).Nodup ∧
    (graph.waves.map (fun wave => Executor.receiptPath "materialization/waves" wave.name) ++
      (graph.nodes.filter (·.kind = .transfer)).map fun node =>
        Executor.receiptPath "materialization/waves" node.name).Nodup ∧
    ∀ buildScope world report world',
      (E.execute outcome buildScope).run world = .ok report world' →
      (∀ record ∈ report.nodes, E.Recorded record world') ∧
      ∀ record ∈ report.waves, ∃ wave ∈ graph.waves, E.Filed outcome record wave world' := by
  obtain ⟨r, rfl⟩ := Resolution.exists_of_ok h
  have hfiles := r.distinctFiles hC hhex
  refine ⟨Executor.nodup_receiptPath _ hfiles.nodes, List.nodup_append.mpr ⟨?_, ?_, ?_⟩,
    fun _ _ _ _ hrun => r.kept_of_execute hC hhex hrun⟩
  · exact Executor.nodup_receiptPath _ hfiles.waves
  · exact Executor.nodup_receiptPath _ (hfiles.nodes.sublist (List.filter_sublist.map _))
  · intro _ hwavePath _ hfanoutPath heq
    obtain ⟨wave, hwave, rfl⟩ := List.mem_map.mp hwavePath
    obtain ⟨node, hfanout, rfl⟩ := List.mem_map.mp hfanoutPath
    obtain ⟨hnode, hkind⟩ := List.mem_filter.mp hfanout
    exact hfiles.fanouts wave hwave node hnode (of_decide_eq_true hkind)
      (Executor.receiptPath_inj.mp heq)

/-! ### Receipts of the sample -/

/-- A text in unary digits, each character closed by a zero. -/
def unary (cs : List Char) : List Char := cs.flatMap fun c => List.replicate c.toNat '1' ++ ['0']

theorem unary_inj {cs cs' : List Char} (h : unary cs = unary cs') : cs = cs' := by
  induction cs generalizing cs' with
  | nil =>
      cases cs' with
      | nil => rfl
      | cons c' cs' => simp [unary] at h
  | cons c cs ih =>
      cases cs' with
      | nil => simp [unary] at h
      | cons c' cs' =>
          have hzero : ∀ n, '0' ∉ List.replicate n '1' := by simp
          rw [unary, unary, List.flatMap_cons, List.flatMap_cons, List.append_assoc,
            List.append_assoc] at h
          obtain ⟨hc, hcs⟩ := append_cons_inj (hzero _) (hzero _) h
          have hnat := congrArg List.length hc
          rw [List.length_replicate, List.length_replicate] at hnat
          rw [Char.toNat_inj.mp hnat, ih hcs]

theorem mem_unary {cs : List Char} {c : Char} (h : c ∈ unary cs) : c = '0' ∨ c = '1' := by
  simp only [unary, List.mem_flatMap, List.mem_append, List.mem_replicate, List.mem_singleton] at h
  obtain ⟨_, -, ⟨-, rfl⟩ | rfl⟩ := h
  · exact .inr rfl
  · exact .inl rfl

/-- A hash with hexadecimal digests that keep the text. -/
def unaryCanon : Canon where
  toStringPretty := Value.toStringPretty
  sha256
    | .text s => String.ofList (unary s.toList)
    | .other .. => ""

theorem toList_sha256_unaryCanon (s : String) :
    (unaryCanon.sha256 (.text s)).toList = unary s.toList := String.toList_ofList

theorem unaryCanon_collisionFree : unaryCanon.CollisionFree := by
  intro v w h
  have hdigests := congrArg String.toList (CanonicalHash.mk.inj h)
  rw [toList_sha256_unaryCanon, toList_sha256_unaryCanon] at hdigests
  exact Value.toStringPretty_inj (String.toList_inj.mp (unary_inj hdigests))

theorem unaryCanon_hexadecimal : unaryCanon.Hexadecimal := by
  intro bytes c hc
  cases bytes with
  | text s =>
      rw [toList_sha256_unaryCanon] at hc
      rcases mem_unary hc with rfl | rfl <;> decide
  | other raw hraw => simp [unaryCanon] at hc

theorem unaryCanon_nonBlank : unaryCanon.NonBlank := by
  intro v
  obtain ⟨c, cs, hchars, -⟩ := (sortJson v).exists_chars_eq_cons 0
  have htext : (unaryCanon.canonicalJson v).toList = c :: cs := String.toList_ofList.trans hchars
  rw [isBlank, Canon.canonicalHash, toList_sha256_unaryCanon, htext, List.all_eq_false]
  exact ⟨'0', by simp [unary], by decide⟩

/-- An executor for the sample with this hash. -/
noncomputable def unaryExecutor : Executor := { amdExecutor with canon := unaryCanon }

/-- The sample on two ranks, which share an artifact, resolved with this hash. -/
noncomputable def sharedPlan : Resolution unaryExecutor.canon unaryExecutor.vllm amdHost
    (amdRequest (.standard ⟨2, 1, 1⟩)) bodyScope :=
  amdResolution unaryCanon _ unaryCanon_collisionFree unaryCanon_nonBlank

/-- The receipts of the sample. -/
theorem receipts_kept_shared : ∃ report world',
    (unaryExecutor.execute sharedPlan.outcome bodyScope).run freshWorld = .ok report world' ∧
    (∀ record ∈ report.nodes, unaryExecutor.Recorded record world') ∧
    ∀ record ∈ report.waves, ∃ wave ∈ sharedPlan.outcome.plan.materializationGraph.waves,
      unaryExecutor.Filed sharedPlan.outcome record wave world' := by
  have hround : unaryExecutor.RoundTrip := Executor.lossless_roundTrip vendoredVllm fun _ => 0
  have hread : unaryExecutor.Readable freshWorld.cache := Executor.readable_empty
  obtain ⟨report, world', hrun⟩ := sharedPlan.execute_returns hround bodyScope hread
  have hkept := @receipts_kept unaryExecutor _ _ _ _ unaryCanon_collisionFree unaryCanon_hexadecimal
    sharedPlan.resolveScoped_eq
  exact ⟨report, world', hrun, hkept.2.2 _ _ _ _ hrun⟩

end Sock.Engine
