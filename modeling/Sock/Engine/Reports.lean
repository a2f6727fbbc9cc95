/-
  What the report of a run says.

  * `plannedView`, `plannedProof`: a report and a replay proof without what a run observes:
    dispositions, sizes and times, and the fanout that the times make preferable.
  * `RunReport.plannedView_eq`: this part is a function of the plan.
  * `Resolution.map_plannedPart_perm`: with distinct storage keys the artifacts of the report are
    those of the requirements, one for each.
  * `replay_ranks_agree_iff`: the planner counts the ranks without the replicas, the replay proof
    multiplies them in, on 16 bits.
-/
import Sock.Engine.Keys
import Sock.Engine.Valid

namespace Sock.Engine

open Lib Sock.Core Fallible

/-! ## The planned part -/

/-- A report without what a run observes. -/
def plannedView (report : MaterializationExecutionReport) : MaterializationExecutionReport :=
  { report with
    executedArtifactCount := 0
    reusedArtifactCount := 0
    wallClockMs := 0
    totalBytesWritten := 0
    totalCompileMs := 0
    totalTransferMs := 0
    totalRebuildMs := 0
    uniqueArtifactBytes := 0
    duplicateArtifactBytes := 0
    artifactDeserializationMs := 0
    duplicateRankLocalLoadCount := 0
    artifacts := report.artifacts.map plannedPart
    nodes := report.nodes.map plannedNodePart
    waves := report.waves.map Executor.plannedWavePart }

/-- A replay proof without what a run observes. -/
def plannedProof (proof : ReplayProofDocument) : ReplayProofDocument :=
  { proof with
    topologyReuse := proof.topologyReuse.map fun record =>
      { record with preferredFanoutStrategy := .none }
    realizationIdentity := ⟨""⟩
    realizationMode := .rebuiltOnly }

/-- The planned part of a proof is that of the planned part of its report. -/
theorem plannedProof_plannedView (C : Canon) (plan : ResolvedBuildPlan)
    (report : MaterializationExecutionReport) :
    plannedProof (.fromPlanAndMaterialization C plan report) =
      plannedProof (.fromPlanAndMaterialization C plan (plannedView report)) := by
  simp only [plannedProof, ReplayProofDocument.fromPlanAndMaterialization, plannedView,
    List.map_map, List.any_map, List.all_map]
  rfl

namespace Executor

variable {E : Executor} {outcome : PlanningOutcome} {scope : BuildScope}

/-- The progress without what a run observes. -/
def Progress.planned (progress : Progress) : Progress where
  completedNodes := progress.completedNodes
  artifacts := progress.artifacts.mapValues plannedPart
  nodeRecords := progress.nodeRecords.map plannedNodePart
  waveRecords := progress.waveRecords.map plannedWavePart
  totalBytesWritten := 0
  totalCompileMs := 0
  totalTransferMs := 0
  totalRebuildMs := 0
  artifactDeserializationMs := 0

/-- Observations read the scopes of the artifacts only. -/
theorem observedRuntimeJit_congr {artifacts artifacts' : List MaterializedArtifactRecord}
    (h : artifacts.map (·.scope) = artifacts'.map (·.scope)) (completed : List String) :
    observedRuntimeJit outcome artifacts completed =
      observedRuntimeJit outcome artifacts' completed := by
  unfold observedRuntimeJit
  rw [h]

/-- The planned part of a report is that of the planned part of the progress. -/
theorem plannedView_report (progress : Progress) (wallClockMs : Nat) :
    plannedView (E.report outcome scope progress wallClockMs) =
      plannedView (E.report outcome scope progress.planned 0) := by
  have hartifacts : sortBy (compareOn MaterializedArtifactRecord.storageKey)
      progress.planned.artifacts.values =
      (sortBy (compareOn MaterializedArtifactRecord.storageKey) progress.artifacts.values).map
        plannedPart := by
    rw [Progress.planned, Dict.values_mapValues, map_sortBy]
    exact fun _ _ => rfl
  have hnodes : sortBy (compareOn MaterializationNodeRecord.nodeName)
      (progress.nodeRecords.map plannedNodePart) =
      (sortBy (compareOn MaterializationNodeRecord.nodeName) progress.nodeRecords).map
        plannedNodePart := by
    rw [map_sortBy]
    exact fun _ _ => rfl
  have hwaves : sortBy (compareOn MaterializationWaveRecord.waveName)
      (progress.waveRecords.map plannedWavePart) =
      (sortBy (compareOn MaterializationWaveRecord.waveName) progress.waveRecords).map
        plannedWavePart := by
    rw [map_sortBy]
    exact fun _ _ => rfl
  have hobserved : observedRuntimeJit outcome
      ((sortBy (compareOn MaterializedArtifactRecord.storageKey) progress.artifacts.values).map
        plannedPart) progress.completedNodes = observedRuntimeJit outcome
      (sortBy (compareOn MaterializedArtifactRecord.storageKey) progress.artifacts.values)
        progress.completedNodes := by
    refine observedRuntimeJit_congr ?_ _
    rw [List.map_map]
    rfl
  unfold plannedView report
  rw [hartifacts]
  simp only [Progress.planned, hnodes, hwaves, hobserved, List.map_map, List.length_map]
  rfl

/-! ## Runs -/

/-- The records of the nodes' artifacts, as far as they are planned. -/
def plannedArtifacts (E : Executor) (outcome : PlanningOutcome) (nodes : List MaterializationNode) :
    List MaterializedArtifactRecord :=
  nodes.filterMap fun node => (E.artifactOf outcome node).map fun artifact =>
    E.plannedRecord outcome node artifact.1 artifact.2

theorem NodesRun.map_plannedPart {nodes : List MaterializationNode} {cache cache' : Cache}
    {results : List NodeExecutionResult} (h : E.NodesRun outcome nodes cache results cache') :
    (results.filterMap (·.artifact)).map plannedPart = E.plannedArtifacts outcome nodes := by
  induction h with
  | nil => rfl
  | @cons node nodes _ _ _ result results hnode _ ih =>
      unfold plannedArtifacts at ih ⊢
      cases hartifact : E.artifactOf outcome node with
      | none =>
          rw [List.filterMap_cons_none (hnode.of_none hartifact).1, ih,
            List.filterMap_cons_none (by rw [hartifact]; rfl)]
      | some artifact =>
          obtain ⟨r, _, hr, hplanned, -, -⟩ := hnode.of_some hartifact
          rw [List.filterMap_cons_some hr, List.map_cons, ih, hplanned,
            List.filterMap_cons_some (by rw [hartifact]; rfl)]

/-- The progress after all waves, as far as it is planned. -/
def plannedProgress (E : Executor) (outcome : PlanningOutcome) : Progress :=
  let nodes := executionOrder outcome.plan.materializationGraph.nodes
  { completedNodes := (nodes.map (·.name)).reverse
    artifacts := .ofEntries ((E.plannedArtifacts outcome nodes).map fun r => (r.storageKey, r))
    nodeRecords := nodes.map (E.plannedNode outcome)
    waveRecords := (buildWaves outcome.plan.materializationGraph.nodes).map plannedWave
    totalBytesWritten := 0
    totalCompileMs := 0
    totalTransferMs := 0
    totalRebuildMs := 0
    artifactDeserializationMs := 0 }

namespace RunReport

variable {cache cache' : Cache} {report : MaterializationExecutionReport}

/-- The progress after all waves. -/
def progress (run : E.RunReport outcome scope cache report cache') : Progress :=
  (run.results.foldl Progress.add .start).withWaves run.waves

section

variable (run : E.RunReport outcome scope cache report cache')

theorem artifacts_progress : run.progress.artifacts =
    .ofEntries ((run.results.filterMap (·.artifact)).map fun r => (r.storageKey, r)) :=
  artifacts_foldl_add run.results .start

theorem nodeRecords_progress : run.progress.nodeRecords = run.results.map (·.record) :=
  nodeRecords_foldl_add run.results .start

/-- Every node is completed. -/
theorem completedNodes_progress : run.progress.completedNodes =
    ((executionOrder outcome.plan.materializationGraph.nodes).map (·.name)).reverse := by
  have h := completedNodes_foldl_add run.results .start
  rw [run.nodesRun.map_nodeName] at h
  exact h.trans (List.append_nil _)

theorem planned_progress : run.progress.planned = E.plannedProgress outcome := by
  have hartifacts : run.progress.artifacts.mapValues plannedPart =
      .ofEntries ((E.plannedArtifacts outcome
        (executionOrder outcome.plan.materializationGraph.nodes)).map fun r =>
          (r.storageKey, r)) := by
    rw [run.artifacts_progress, Dict.ofEntries, Dict.mapValues_foldl_set,
      ← run.nodesRun.map_plannedPart, List.map_map, List.map_map]
    rfl
  have hwaves : run.progress.waveRecords = run.waves := rfl
  rw [Progress.planned, run.completedNodes_progress, hartifacts, run.nodeRecords_progress,
    run.nodesRun.map_record, hwaves, run.wavesRun]
  rfl

theorem nodes_eq : report.nodes =
    sortBy (compareOn MaterializationNodeRecord.nodeName) run.progress.nodeRecords :=
  congrArg (·.nodes) run.report_eq

theorem artifacts_eq : report.artifacts =
    sortBy (compareOn MaterializedArtifactRecord.storageKey) run.progress.artifacts.values :=
  congrArg (·.artifacts) run.report_eq

include run

/-- **Reports.** The planned part of a report is a function of the plan. -/
theorem plannedView_eq :
    plannedView report = plannedView (E.report outcome scope (E.plannedProgress outcome) 0) := by
  rw [← run.planned_progress, ← plannedView_report run.progress run.wallClockMs]
  exact congrArg plannedView run.report_eq

/-- Every node is reported once. -/
theorem nodeNames_perm : (report.nodes.map (·.nodeName)).Perm
    (outcome.plan.materializationGraph.nodes.map (·.name)) := by
  have hrecords : report.nodes.Perm (run.results.map (·.record)) := by
    rw [run.nodes_eq, ← run.nodeRecords_progress]
    exact sortBy_perm _ _
  refine (hrecords.map _).trans ?_
  rw [List.map_map]
  exact (List.Perm.of_eq run.nodesRun.map_nodeName).trans (executionOrder_perm.map _)

/-- With distinct storage keys every artifact is reported. -/
theorem artifacts_perm (hnodup : ((E.plannedArtifacts outcome
      (executionOrder outcome.plan.materializationGraph.nodes)).map (·.storageKey)).Nodup) :
    report.artifacts.Perm (run.results.filterMap (·.artifact)) := by
  have hkeys : (((run.results.filterMap (·.artifact)).map fun r => (r.storageKey, r)).map
      Prod.fst).Nodup := by
    rw [← run.nodesRun.map_plannedPart, List.map_map] at hnodup
    rw [List.map_map]
    exact hnodup
  have hvalues : run.progress.artifacts.values = run.results.filterMap (·.artifact) := by
    rw [run.artifacts_progress, Dict.values, Dict.entries_ofEntries hkeys, List.map_map]
    exact List.map_id _
  rw [run.artifacts_eq, ← hvalues]
  exact sortBy_perm _ _

end

end RunReport

end Executor

/-! ## Resolved plans -/

namespace Resolution

variable {E : Executor} {host : PlannerHostSnapshot} {raw : RawRequest} {scope : BuildScope}
  (r : Resolution E.canon E.vllm host raw scope)

/-- What the record of a requirement will say. -/
def planned (q : ArtifactRequirement) : MaterializedArtifactRecord :=
  E.plannedRecord r.outcome (artifactNode E.canon q) q (r.manifestIdentity q)

/-- The graph has one artifact for each requirement. -/
theorem filterMap_artifactOf {β : Type}
    (f : MaterializationNode → ArtifactRequirement × String → β) :
    r.nodes.filterMap (fun node => (E.artifactOf r.outcome node).map (f node)) =
      r.requirements.map fun q => f (artifactNode E.canon q) (q, r.manifestIdentity q) := by
  have hfanout : ∀ q, E.artifactOf r.outcome (fanoutNode E.canon raw.topology q) = none :=
    fun _ => rfl
  have hwarmup : ∀ o, E.artifactOf r.outcome (warmupNode E.canon raw.topology r.requirements o) =
      none := fun _ => rfl
  have hnodes : ∀ q ∈ r.requirements, (requirementNodes E.canon raw.topology q).filterMap
      (fun node => (E.artifactOf r.outcome node).map (f node)) =
      [f (artifactNode E.canon q) (q, r.manifestIdentity q)] := by
    intro q hq
    rw [requirementNodes, List.filterMap_cons_some (by rw [r.artifactOf_artifactNode hq]; rfl)]
    split
    · simp [hfanout]
    · simp
  rw [Assembly.nodes, graphNodes, List.filterMap_append, List.filterMap_flatMap,
    List.flatMap_congr hnodes, ← List.map_eq_flatMap, List.filterMap_map]
  simp [hwarmup]

theorem plannedArtifacts_perm :
    (E.plannedArtifacts r.outcome (executionOrder r.nodes)).Perm
      (r.requirements.map r.planned) := by
  have hnodes := r.filterMap_artifactOf fun node artifact =>
    E.plannedRecord r.outcome node artifact.1 artifact.2
  exact (executionOrder_perm.filterMap _).trans (.of_eq hnodes)

theorem nodup_requirements : r.requirements.Nodup := .of_map _ r.nodup_classScope

/-- The storage keys of a plan are distinct. -/
theorem nodup_storageKeys (hC : E.canon.CollisionFree) :
    ((E.plannedArtifacts r.outcome (executionOrder r.nodes)).map (·.storageKey)).Nodup := by
  rw [(r.plannedArtifacts_perm.map _).nodup_iff, List.map_map]
  refine r.nodup_requirements.map_on fun q hq q' hq' heq => ?_
  exact r.eq_of_artifactStorageKey hC hq hq' (congrArg CanonicalHash.mk heq)

variable {buildScope : BuildScope} {world world' : World} {report : MaterializationExecutionReport}

/-- The run of a resolved plan. -/
theorem execute_finishes (buildScope : BuildScope) (world : World) :
    Finishes (E.execute r.outcome buildScope) world
      (fun report world' =>
        Nonempty (E.RunReport r.outcome buildScope world.cache report world'.cache))
      (fun e => e.isFile = true ∧ E.Stuck r.outcome (executionOrder r.nodes) world.cache) :=
  Executor.execute_finishes rfl r.executable buildScope world

/-- With files that can be read the run returns. -/
theorem execute_returns (hround : E.RoundTrip) (buildScope : BuildScope)
    (hread : E.Readable world.cache) :
    ∃ report world', (E.execute r.outcome buildScope).run world = .ok report world' :=
  Executor.execute_returns rfl r.executable hround buildScope hread

theorem exists_runReport (h : (E.execute r.outcome buildScope).run world = .ok report world') :
    Nonempty (E.RunReport r.outcome buildScope world.cache report world'.cache) :=
  (r.execute_finishes buildScope world).of_ok h

/-- The waves run every node once, after the nodes that it depends on. -/
theorem nodeRecords_of_waves {progress : Executor.Progress}
    (h : (r.plan.materializationGraph.waves.foldlM (E.runWave r.outcome) .start).run world =
      .ok progress world') :
    (progress.nodeRecords.map (·.nodeName)).Perm (r.nodes.map (·.name)) ∧
      ∀ node ∈ r.nodes, ∀ d ∈ node.dependencyNodes,
        [d, node.name].Sublist (progress.nodeRecords.map (·.nodeName)) := by
  obtain ⟨results, records, hrun, -, rfl⟩ := (Executor.waves_finish r.executable world).of_ok h
  have hnames : ((((results.foldl Executor.Progress.add .start).withWaves
      ([] ++ records)).nodeRecords).map (·.nodeName)) =
      (executionOrder r.nodes).map (·.name) := by
    rw [Executor.Progress.withWaves, Executor.nodeRecords_foldl_add, List.map_append, List.map_map]
    exact hrun.map_nodeName
  rw [Executor.Progress.start] at hnames ⊢
  rw [hnames]
  refine ⟨executionOrder_perm.map _, fun node hnode d hd => ?_⟩
  obtain ⟨source, hsource, rfl, hwave⟩ := r.dependsEarlier node hnode d hd
  exact (sublist_executionOrder hsource hnode hwave).map (·.name)

/-- The reported artifacts are those of the requirements, one for each. -/
theorem map_plannedPart_perm (hC : E.canon.CollisionFree)
    (h : (E.execute r.outcome buildScope).run world = .ok report world') :
    (report.artifacts.map plannedPart).Perm (r.requirements.map r.planned) := by
  obtain ⟨run⟩ := r.exists_runReport h
  refine ((run.artifacts_perm (r.nodup_storageKeys hC)).map _).trans ?_
  rw [run.nodesRun.map_plannedPart]
  exact r.plannedArtifacts_perm

/-- The artifact of a requirement is reported. -/
theorem exists_plannedPart (hC : E.canon.CollisionFree)
    (h : (E.execute r.outcome buildScope).run world = .ok report world') {q : ArtifactRequirement}
    (hq : q ∈ r.requirements) : ∃ a ∈ report.artifacts, plannedPart a = r.planned q :=
  List.mem_map.mp ((r.map_plannedPart_perm hC h).mem_iff.mpr (List.mem_map_of_mem hq))

/-- Every identity of the manifest is reported. -/
theorem exists_artifact (hC : E.canon.CollisionFree)
    (h : (E.execute r.outcome buildScope).run world = .ok report world')
    {entry : ArtifactManifestEntry} (hentry : entry ∈ r.plan.guaranteeEvidence.artifactManifest) :
    ∃ a ∈ report.artifacts, a.manifestIdentity = entry.identity := by
  obtain ⟨q, hq, rfl⟩ := List.mem_map.mp hentry
  obtain ⟨a, ha, hplanned⟩ := r.exists_plannedPart hC h hq
  exact ⟨a, ha, congrArg MaterializedArtifactRecord.manifestIdentity hplanned⟩

/-- Every warmup obligation is reported. -/
theorem exists_warmup (h : (E.execute r.outcome buildScope).run world = .ok report world')
    {o : WarmupObligation} (ho : o ∈ r.obligations) :
    ∃ node ∈ report.nodes, node.nodeName = o.handle := by
  obtain ⟨run⟩ := r.exists_runReport h
  have hnode : warmupNode E.canon raw.topology r.requirements o ∈ r.nodes :=
    mem_graphNodes.mpr (.inr (.inr ⟨o, ho, rfl⟩))
  exact List.mem_map.mp (run.nodeNames_perm.mem_iff.mpr (List.mem_map_of_mem hnode))

/-- Reuse is verified if every shared artifact is for the one rank that it is recorded with. -/
theorem topologyScopedReuseVerified_eq (hC : E.canon.CollisionFree)
    (h : (E.execute r.outcome buildScope).run world = .ok report world') :
    (ReplayProofDocument.fromPlanAndMaterialization E.canon r.plan
      report).topologyScopedReuseVerified = r.requirements.all fun q =>
        match q.rankDisposition with
        | .shared => replayTotalRanks raw.topology = 1
        | .rankLocal => true := by
  have hplanned : (ReplayProofDocument.fromPlanAndMaterialization E.canon r.plan
      report).topologyScopedReuseVerified = (report.artifacts.map plannedPart).all fun a =>
        match a.rankDisposition with
        | .shared => a.rankCount = replayTotalRanks raw.topology
        | .rankLocal => 1 ≤ a.rankCount := by
    rw [List.all_map]
    rfl
  rw [hplanned, (r.map_plannedPart_perm hC h).all_eq, List.all_map]
  refine congrArg (List.all r.requirements) (funext fun q => ?_)
  show (match q.rankDisposition with
    | .shared => decide (UInt16.ofNat [0].length = replayTotalRanks raw.topology)
    | .rankLocal => decide (1 ≤ UInt16.ofNat [0].length)) = _
  cases q.rankDisposition <;> simp [eq_comm]

end Resolution

/-! ### A run of the sample -/

section Amd

/-- An executor for the sample that measures no time. -/
noncomputable def amdExecutor : Executor := .lossless vendoredVllm fun _ => 0

/-- The sample for a target, resolved. -/
noncomputable def amdPlanFor (target : AmdTarget) :
    Resolution amdExecutor.canon amdExecutor.vllm amdHost (amdRequest target) bodyScope :=
  amdResolution .ideal target Canon.ideal_collisionFree Canon.ideal_nonBlank

/-- The sample on a topology, resolved. -/
noncomputable abbrev amdPlan (topology : ExecutionTopology) :
    Resolution amdExecutor.canon amdExecutor.vllm amdHost (amdRequest (.standard topology))
      bodyScope :=
  amdPlanFor (.standard topology)

/-- No file is there yet. -/
def freshWorld : World := ⟨.empty, fun _ => none, 0⟩

/-- The run of the sample. -/
theorem execute_amd (target : AmdTarget) :
    ∃ report world', (amdExecutor.execute (amdPlanFor target).outcome bodyScope).run freshWorld =
      .ok report world' :=
  (amdPlanFor target).execute_returns (Executor.lossless_roundTrip _ _) bodyScope
    Executor.readable_empty

/-- The sample has a shared artifact. -/
theorem exists_shared_amd (target : AmdTarget) :
    ∃ q ∈ (amdPlanFor target).requirements, q.rankDisposition = .shared :=
  ⟨_, (requirements_perm_amd .ideal target).mem_iff.mpr List.mem_cons_self, rfl⟩

end Amd

section Executed

variable {E : Executor} {host : PlannerHostSnapshot} {raw : RawRequest} {scope : BuildScope}
  {outcome : PlanningOutcome}

variable {buildScope : BuildScope} {world world' : World} {report : MaterializationExecutionReport}

/-- **Replay proofs are closed.** Every warmup obligation of the plan is a node of the report, and
    every identity of the manifest is among its artifacts. -/
theorem replay_proof_closed (hC : E.canon.CollisionFree)
    (h : resolveScoped E.canon E.vllm host raw scope = .ok outcome)
    (hrun : (E.execute outcome buildScope).run world = .ok report world') :
    let proof := ReplayProofDocument.fromPlanAndMaterialization E.canon outcome.plan report
    proof.warmupClosureVerified = true ∧ proof.autotuneClosureVerified = true ∧
    proof.cacheArtifactCompatibilityVerified = true ∧
    (∀ entry ∈ outcome.plan.guaranteeEvidence.artifactManifest,
      ∃ a ∈ report.artifacts, a.manifestIdentity = entry.identity) ∧
    (∀ o ∈ outcome.plan.warmupObligations, ∃ node ∈ report.nodes, node.nodeName = o.handle) := by
  obtain ⟨r, rfl⟩ := Resolution.exists_of_ok h
  have hwarmup : ∀ o ∈ r.obligations, (report.nodes.any (·.nodeName = o.handle)) = true := by
    intro o ho
    obtain ⟨node, hnode, hname⟩ := r.exists_warmup hrun ho
    exact List.any_eq_true.mpr ⟨node, hnode, decide_eq_true hname⟩
  refine ⟨List.all_eq_true.mpr hwarmup, ?_, ?_, fun _ hentry => r.exists_artifact hC hrun hentry,
    fun _ ho => r.exists_warmup hrun ho⟩
  · exact List.all_eq_true.mpr fun o ho => hwarmup o (List.mem_of_mem_filter ho)
  · refine List.all_eq_true.mpr fun entry hentry => ?_
    obtain ⟨a, ha, hidentity⟩ := r.exists_artifact hC hrun hentry
    exact List.any_eq_true.mpr ⟨a, ha, decide_eq_true hidentity⟩

/-- The run of the sample gives a closed proof. -/
theorem replay_proof_closed_amd : ∃ report world',
    (amdExecutor.execute (amdPlan ⟨1, 1, 1⟩).outcome bodyScope).run freshWorld =
      .ok report world' ∧
    (ReplayProofDocument.fromPlanAndMaterialization amdExecutor.canon
      (amdPlan ⟨1, 1, 1⟩).outcome.plan report).warmupClosureVerified = true := by
  obtain ⟨report, world', hrun⟩ := execute_amd (.standard ⟨1, 1, 1⟩)
  exact ⟨report, world', hrun, (replay_proof_closed Canon.ideal_collisionFree
    (amdPlan ⟨1, 1, 1⟩).resolveScoped_eq hrun).1⟩

/-- **Reuse is verified for one rank only.** An artifact is recorded with the one rank of its node,
    and the proof expects the ranks of all replicas; only a plan without shared artifacts is not
    compared. -/
theorem topology_scoped_reuse_verified_iff (hC : E.canon.CollisionFree)
    (h : resolveScoped E.canon E.vllm host raw scope = .ok outcome)
    (hrun : (E.execute outcome buildScope).run world = .ok report world') :
    (ReplayProofDocument.fromPlanAndMaterialization E.canon outcome.plan
      report).topologyScopedReuseVerified = true ↔
      raw.topology.tensorParallelism * raw.topology.pipelineParallelism *
        raw.topology.replicas = 1 ∨
      ∀ q ∈ outcome.plan.artifactRequirements, q.rankDisposition = .rankLocal := by
  obtain ⟨r, rfl⟩ := Resolution.exists_of_ok h
  have heq := r.topologyScopedReuseVerified_eq hC hrun
  have hplan : r.outcome.plan.artifactRequirements = r.requirements := rfl
  rw [hplan]
  refine heq ▸ ?_
  rw [List.all_eq_true]
  constructor
  · intro hall
    refine or_iff_not_imp_left.mpr fun hranks q hq => ?_
    have hq := hall q hq
    cases hrank : q.rankDisposition with
    | rankLocal => rfl
    | shared =>
        rw [hrank] at hq
        exact absurd (of_decide_eq_true hq) hranks
  · intro hcases q hq
    cases hrank : q.rankDisposition with
    | rankLocal => rfl
    | shared =>
        rcases hcases with hranks | hlocal
        · exact decide_eq_true hranks
        · rw [hlocal q hq] at hrank
          cases hrank

/-- On one rank reuse is verified. -/
theorem topology_scoped_reuse_verified_amd : ∃ report world',
    (amdExecutor.execute (amdPlan ⟨1, 1, 1⟩).outcome bodyScope).run freshWorld =
      .ok report world' ∧
    (ReplayProofDocument.fromPlanAndMaterialization amdExecutor.canon
      (amdPlan ⟨1, 1, 1⟩).outcome.plan report).topologyScopedReuseVerified = true := by
  obtain ⟨report, world', hrun⟩ := execute_amd (.standard ⟨1, 1, 1⟩)
  exact ⟨report, world', hrun, (topology_scoped_reuse_verified_iff Canon.ideal_collisionFree
    (amdPlan ⟨1, 1, 1⟩).resolveScoped_eq hrun).mpr (.inl (by decide))⟩

/-- With two replicas it is not: the shared artifacts are recorded with one rank. -/
theorem not_topology_scoped_reuse_verified :
    resolveScoped amdExecutor.canon amdExecutor.vllm amdHost (amdRequest (.standard ⟨1, 1, 2⟩))
      bodyScope = .ok (amdPlan ⟨1, 1, 2⟩).outcome ∧
    ∃ report world', (amdExecutor.execute (amdPlan ⟨1, 1, 2⟩).outcome bodyScope).run freshWorld =
        .ok report world' ∧
      (ReplayProofDocument.fromPlanAndMaterialization amdExecutor.canon
        (amdPlan ⟨1, 1, 2⟩).outcome.plan report).topologyScopedReuseVerified = false := by
  obtain ⟨report, world', hrun⟩ := execute_amd (.standard ⟨1, 1, 2⟩)
  obtain ⟨q, hq, hshared⟩ := exists_shared_amd (.standard ⟨1, 1, 2⟩)
  refine ⟨(amdPlan ⟨1, 1, 2⟩).resolveScoped_eq, report, world', hrun, ?_⟩
  refine ((amdPlan ⟨1, 1, 2⟩).topologyScopedReuseVerified_eq
    Canon.ideal_collisionFree hrun).trans ?_
  refine List.all_eq_false.mpr ⟨q, hq, ?_⟩
  rw [hshared]
  decide

end Executed

/-! ## Counts of ranks -/

/-- The fanouts and the warmups of an assembled plan are for all its ranks. -/
theorem Assembly.rankScope_eq {C : Canon} {V : Vllm} {host : PlannerHostSnapshot}
    {raw : RawRequest} {scope : BuildScope} (r : Assembly C V host raw scope)
    {node : MaterializationNode} (hnode : node ∈ r.nodes)
    (hkind : node.kind = .transfer ∨ node.kind = .warmup) :
    node.rankScope = totalRanks raw.topology := by
  rcases mem_graphNodes.mp hnode with ⟨q, -, rfl⟩ | ⟨q, -, -, rfl⟩ | ⟨o, ho, rfl⟩
  · simp only [artifactNode] at hkind
    split at hkind <;> simp at hkind
  · rfl
  · obtain ⟨node, -, -, region, -, -, rfl⟩ := r.mem_neededWarmup.mp (r.mem_obligations.mp ho).1
    rfl

/-- The product of the replay proof, as far as 16 bits hold it, against the planner's count. -/
theorem replayTotalRanks_eq_iff {t : ExecutionTopology} (htensor : 1 ≤ t.tensorParallelism)
    (hpipeline : 1 ≤ t.pipelineParallelism) :
    (t.tensorParallelism.toNat * t.pipelineParallelism.toNat * t.replicas.toNat < 2 ^ 16 ∧
      (replayTotalRanks t).toNat = totalRankCount t) ↔
      t.replicas = 1 ∧ t.tensorParallelism.toNat * t.pipelineParallelism.toNat < 2 ^ 16 := by
  have hranks : 1 ≤ t.tensorParallelism.toNat * t.pipelineParallelism.toNat :=
    Nat.mul_pos (UInt16.le_iff_toNat_le.mp htensor) (UInt16.le_iff_toNat_le.mp hpipeline)
  have hone : t.replicas = 1 ↔ t.replicas.toNat = 1 := UInt16.toNat_inj.symm
  have hreplay : (replayTotalRanks t).toNat =
      t.tensorParallelism.toNat * t.pipelineParallelism.toNat * t.replicas.toNat % 2 ^ 16 := by
    rw [replayTotalRanks, UInt16.toNat_mul, UInt16.toNat_mul, Nat.mod_mul_mod]
  rw [hone, hreplay, totalRankCount]
  generalize t.tensorParallelism.toNat * t.pipelineParallelism.toNat = ranks at *
  generalize t.replicas.toNat = replicas at *
  constructor
  · rintro ⟨hfits, heq⟩
    rw [Nat.mod_eq_of_lt hfits] at heq
    have hreplicas : replicas ≠ 0 := by
      rintro rfl
      omega
    have hle : ranks ≤ ranks * replicas :=
      Nat.le_mul_of_pos_right ranks (Nat.pos_of_ne_zero hreplicas)
    have hmul : ranks * replicas = ranks * 1 := by omega
    exact ⟨Nat.eq_of_mul_eq_mul_left hranks hmul, by omega⟩
  · rintro ⟨rfl, hfits⟩
    rw [Nat.mul_one, Nat.mod_eq_of_lt hfits]
    omega

/-- **Counts of ranks.** The product of the replay proof fits into 16 bits and is the planner's
    count exactly when there is one replica and the ranks of one fit; the planner's count is the
    length of the rank lists of the fanouts and warmups of every plan. -/
theorem replay_ranks_agree_iff (t : ExecutionTopology) (htensor : 1 ≤ t.tensorParallelism)
    (hpipeline : 1 ≤ t.pipelineParallelism) :
    ((t.tensorParallelism.toNat * t.pipelineParallelism.toNat * t.replicas.toNat < 2 ^ 16 ∧
      (replayTotalRanks t).toNat = totalRankCount t) ↔
      t.replicas = 1 ∧ t.tensorParallelism.toNat * t.pipelineParallelism.toNat < 2 ^ 16) ∧
    ∀ {C : Canon} {V : Vllm} {host : PlannerHostSnapshot} {raw : RawRequest} {scope : BuildScope}
      {outcome : PlanningOutcome}, raw.topology = t →
      resolveScoped C V host raw scope = .ok outcome →
      ∀ node ∈ outcome.plan.materializationGraph.nodes,
        node.kind = .transfer ∨ node.kind = .warmup → node.rankScope.length = totalRankCount t := by
  refine ⟨replayTotalRanks_eq_iff htensor hpipeline, ?_⟩
  rintro C V host raw scope outcome rfl h node hnode hkind
  obtain ⟨r, rfl⟩ := Resolution.exists_of_ok h
  rw [r.rankScope_eq hnode hkind, totalRanks, List.length_range]

/-- On two ranks of one replica the counts agree, and the warmups of the sample are for two
    ranks. -/
theorem replay_ranks_agree_amd :
    (replayTotalRanks ⟨2, 1, 1⟩).toNat = totalRankCount ⟨2, 1, 1⟩ ∧
      ∀ node ∈ (amdPlan ⟨2, 1, 1⟩).outcome.plan.materializationGraph.nodes,
        node.kind = .transfer ∨ node.kind = .warmup → node.rankScope.length = 2 :=
  have h := replay_ranks_agree_iff ⟨2, 1, 1⟩ (by decide) (by decide)
  ⟨(h.1.mpr (by decide)).2, h.2 rfl (amdPlan ⟨2, 1, 1⟩).resolveScoped_eq⟩

/-- Two replicas of one rank, and ranks that 16 bits do not hold. -/
theorem replay_ranks_differ :
    (replayTotalRanks ⟨1, 1, 2⟩).toNat = 2 ∧ totalRankCount ⟨1, 1, 2⟩ = 1 ∧
      (replayTotalRanks ⟨256, 256, 1⟩).toNat = 0 ∧ totalRankCount ⟨256, 256, 1⟩ = 65535 := by
  decide

end Sock.Engine
