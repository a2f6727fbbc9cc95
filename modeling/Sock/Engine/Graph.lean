/-
  The materialization graph of a resolved plan.

  * `waveKeys`, `waveMembers`: the waves of a list of nodes; `executionOrder`: the nodes wave by
    wave, each once (`executionOrder_perm`).
  * `DependsEarlier`: every dependency names a node of an earlier wave;
    `Assembly.dependsEarlier`: the graph of an assembled plan has this property, since fanouts
    are in the wave after their artifacts and warmups after both.
  * `sublist_executionOrder`: then every node comes after its dependencies.
-/
import Sock.Engine.Resolved

namespace Sock.Engine

open Std Lib Sock.Core

/-! ## Waves -/

instance : TransOrd QueueKind := inferInstanceAs (TransCmp (compareOn QueueKind.ctorIdx))

instance : LawfulEqOrd QueueKind where
  eq_of_compare {a b} h := by revert h; cases a <;> cases b <;> decide

/-- The order of the waves: by number, then by queue. -/
def waveOrder : Nat × QueueKind → Nat × QueueKind → Ordering :=
  compareLex (compareOn Prod.fst) (compareOn Prod.snd)

instance : TransCmp waveOrder :=
  inferInstanceAs (TransCmp (compareLex (compareOn Prod.fst) (compareOn Prod.snd)))

@[simp] theorem waveOrder_self (key : Nat × QueueKind) : waveOrder key key = .eq :=
  ReflCmp.compare_self

theorem waveOrder_of_lt {key key' : Nat × QueueKind} (h : key.1 < key'.1) :
    waveOrder key key' = .lt := by
  simp [waveOrder, compareLex, compareOn, Nat.compare_eq_lt.mpr h]

instance : LawfulEqCmp waveOrder where
  compare_self := ReflCmp.compare_self
  eq_of_compare {key key'} h := by
    rw [waveOrder, compareLex, Ordering.then_eq_eq] at h
    exact Prod.ext (LawfulEqOrd.eq_of_compare h.1) (LawfulEqOrd.eq_of_compare h.2)

section Waves

variable (nodes : List MaterializationNode)

/-- The waves of the nodes, in their order. -/
def waveKeys : List (Nat × QueueKind) := dedup (sortBy waveOrder (nodes.map waveKey))

/-- The nodes of a wave. -/
def waveMembers (key : Nat × QueueKind) : List MaterializationNode :=
  nodes.filter (waveKey · = key)

/-- The wave of a key. -/
def waveOf (key : Nat × QueueKind) : MaterializationWave :=
  buildWave key.1 key.2 (waveMembers nodes key)

theorem buildWaves_eq : buildWaves nodes = (waveKeys nodes).map (waveOf nodes) := rfl

/-- The nodes wave by wave. -/
def executionOrder : List MaterializationNode := (waveKeys nodes).flatMap (waveMembers nodes)

variable {nodes}

theorem pairwise_waveKeys : (waveKeys nodes).Pairwise fun key key' => waveOrder key key' = .lt :=
  pairwise_lt_dedup_sortBy waveOrder _

theorem nodup_waveKeys : (waveKeys nodes).Nodup :=
  pairwise_waveKeys.imp fun h heq => by simp [heq] at h

theorem waveKey_mem {node : MaterializationNode} (h : node ∈ nodes) :
    waveKey node ∈ waveKeys nodes := by
  rw [waveKeys, mem_dedup, (sortBy_perm _ _).mem_iff]
  exact List.mem_map_of_mem h

theorem mem_waveMembers {node : MaterializationNode} {key : Nat × QueueKind} :
    node ∈ waveMembers nodes key ↔ node ∈ nodes ∧ waveKey node = key := by
  simp [waveMembers]

/-- Every node is in the order once. -/
theorem executionOrder_perm : (executionOrder nodes).Perm nodes :=
  flatMap_filter_perm nodup_waveKeys fun _ => waveKey_mem

/-- A node of an earlier wave is in the waves before. -/
theorem mem_before {keys later : List (Nat × QueueKind)} {key : Nat × QueueKind}
    (hsplit : waveKeys nodes = keys ++ key :: later) {node : MaterializationNode}
    (h : node ∈ nodes) (hlt : waveOrder (waveKey node) key = .lt) :
    node ∈ keys.flatMap (waveMembers nodes) := by
  have hpairwise := @pairwise_waveKeys nodes
  have hmem := waveKey_mem h
  rw [hsplit] at hpairwise hmem
  have hkeys : waveKey node ∈ keys := by
    refine (List.mem_append.mp hmem).resolve_right fun hlater => ?_
    -- a wave from here on is not before this one
    have hnot : ¬ waveOrder key key = .lt := by simp
    rcases List.mem_cons.mp hlater with heq | hlater
    · rw [heq] at hlt
      exact hnot hlt
    · have hgt := List.rel_of_pairwise_cons (List.pairwise_append.mp hpairwise).2.1 hlater
      exact hnot (TransCmp.lt_trans hgt hlt)
  exact List.mem_flatMap.mpr ⟨_, hkeys, mem_waveMembers.mpr ⟨h, rfl⟩⟩

end Waves

/-! ## Dependencies -/

/-- Every dependency names a node of an earlier wave. -/
def DependsEarlier (nodes : List MaterializationNode) : Prop :=
  ∀ node ∈ nodes, ∀ d ∈ node.dependencyNodes,
    ∃ source ∈ nodes, source.name = d ∧ source.wave < node.wave

/-- A node comes after the nodes that it depends on. -/
theorem sublist_executionOrder {nodes : List MaterializationNode}
    {source node : MaterializationNode}
    (hsource : source ∈ nodes) (hnode : node ∈ nodes) (hwave : source.wave < node.wave) :
    [source, node].Sublist (executionOrder nodes) := by
  obtain ⟨keys, later, hsplit⟩ := List.append_of_mem (waveKey_mem hnode)
  rw [executionOrder, hsplit]
  exact sublist_flatMap (mem_before hsplit hsource (waveOrder_of_lt hwave)) List.mem_cons_self
    (mem_waveMembers.mpr ⟨hnode, rfl⟩)

/-- Nodes of one wave run in the order of the graph. -/
theorem sublist_executionOrder_of_waveKey {nodes : List MaterializationNode}
    {node node' : MaterializationNode} (h : [node, node'].Sublist nodes)
    (hkey : waveKey node = waveKey node') : [node, node'].Sublist (executionOrder nodes) := by
  have hmembers : [node, node'].Sublist (waveMembers nodes (waveKey node)) := by
    have hfilter := h.filter (waveKey · = waveKey node)
    rw [List.filter_eq_self.mpr (by simp [hkey])] at hfilter
    exact hfilter
  have hwave : [waveKey node].Sublist (waveKeys nodes) :=
    List.singleton_sublist.mpr (waveKey_mem (h.subset List.mem_cons_self))
  have horder := hwave.flatMap (waveMembers nodes)
  rw [List.flatMap_singleton] at horder
  exact hmembers.trans horder

/-- The wave of a node: no other has it, and its dependencies are in waves before. -/
theorem exists_wave {nodes : List MaterializationNode} (hnames : (nodes.map (·.name)).Nodup)
    (hdepends : DependsEarlier nodes) {node : MaterializationNode} (hnode : node ∈ nodes) :
    ∃ before wave after, buildWaves nodes = before ++ wave :: after ∧
      wave.nodeNames.count node.name = 1 ∧
      (∀ other ∈ before ++ after, node.name ∉ other.nodeNames) ∧
      ∀ d ∈ node.dependencyNodes, ∃ source ∈ nodes, source.name = d ∧
        ∃ earlier ∈ before, d ∈ earlier.nodeNames := by
  obtain ⟨keys, later, hsplit⟩ := List.append_of_mem (waveKey_mem hnode)
  refine ⟨keys.map (waveOf nodes), waveOf nodes (waveKey node), later.map (waveOf nodes),
    ?_, ?_, ?_, ?_⟩
  · rw [buildWaves_eq, hsplit, List.map_append, List.map_cons]
  · have hnodup : ((waveMembers nodes (waveKey node)).map (·.name)).Nodup :=
      hnames.sublist (List.filter_sublist.map _)
    exact List.count_eq_one_of_mem hnodup (List.mem_map_of_mem (mem_waveMembers.mpr ⟨hnode, rfl⟩))
  · intro other hother hname
    rw [← List.map_append] at hother
    obtain ⟨key, hkey, rfl⟩ := List.mem_map.mp hother
    obtain ⟨node', hnode', heq⟩ := List.mem_map.mp hname
    obtain ⟨hmem, rfl⟩ := mem_waveMembers.mp hnode'
    -- a node of that name is this node, and its wave is this wave
    rw [List.inj_on_of_nodup_map hnames hmem hnode heq] at hkey
    have hnodup := @nodup_waveKeys nodes
    rw [hsplit, List.nodup_middle, List.nodup_cons] at hnodup
    exact hnodup.1 hkey
  · intro d hd
    obtain ⟨source, hsource, rfl, hlt⟩ := hdepends node hnode d hd
    obtain ⟨key, hkey, hmember⟩ :=
      List.mem_flatMap.mp (mem_before hsplit hsource (waveOrder_of_lt hlt))
    exact ⟨source, hsource, rfl, _, List.mem_map_of_mem hkey, List.mem_map_of_mem hmember⟩

section Graph

variable {C : Canon} {topology : ExecutionTopology} {requirements : List ArtifactRequirement}
  {obligations : List WarmupObligation}

theorem mem_graphNodes {node : MaterializationNode} :
    node ∈ graphNodes C topology requirements obligations ↔
      (∃ q ∈ requirements, node = artifactNode C q) ∨
      (∃ q ∈ requirements, needsFanout topology q = true ∧ node = fanoutNode C topology q) ∨
      ∃ o ∈ obligations, node = warmupNode C topology requirements o := by
  have hnodes : ∀ q, node ∈ requirementNodes C topology q ↔
      node = artifactNode C q ∨
        (needsFanout topology q = true ∧ node = fanoutNode C topology q) := by
    intro q
    rw [requirementNodes]
    split <;> simp [*]
  simp only [graphNodes, List.mem_append, List.mem_flatMap, hnodes, List.mem_map, and_or_left,
    exists_or, or_assoc, eq_comm]

theorem artifactNode_mem {q : ArtifactRequirement} (h : q ∈ requirements) :
    artifactNode C q ∈ graphNodes C topology requirements obligations :=
  mem_graphNodes.mpr (.inl ⟨q, h, rfl⟩)

/-- Every dependency of a warmup is an artifact of its scope or its fanout. -/
theorem dependency_of_warmup {names : List String} {d : String}
    (h : d ∈ warmupDependencyNodes C topology requirements names) :
    ∃ source ∈ graphNodes C topology requirements obligations, source.name = d ∧
      source.wave ≤ 2 := by
  simp only [warmupDependencyNodes, List.mem_flatMap, List.mem_map, List.mem_filter] at h
  obtain ⟨name, -, q, ⟨hq, -⟩, rfl⟩ := h
  split
  case isTrue hfanout =>
    exact ⟨_, mem_graphNodes.mpr (.inr (.inl ⟨q, hq, hfanout, rfl⟩)), rfl, Nat.le_refl 2⟩
  case isFalse =>
    refine ⟨_, artifactNode_mem hq, rfl, ?_⟩
    rw [artifactNode]
    split <;> simp

/-- No capture is shared, so a fanout comes after its artifact. -/
theorem dependsEarlier_graphNodes
    (hshared : ∀ q ∈ requirements, q.rankDisposition = .shared →
      q.artifactClass ≠ .cudaGraphCapture) :
    DependsEarlier (graphNodes C topology requirements obligations) := by
  intro node hnode d hd
  rcases mem_graphNodes.mp hnode with ⟨q, hq, rfl⟩ | ⟨q, hq, hfanout, rfl⟩ | ⟨o, ho, rfl⟩
  · cases hd
  · cases List.mem_singleton.mp hd
    have hclass := hshared q hq (of_decide_eq_true hfanout).1
    refine ⟨_, artifactNode_mem hq, rfl, ?_⟩
    simp [artifactNode, fanoutNode, hclass]
  · obtain ⟨source, hsource, hname, hwave⟩ := @dependency_of_warmup _ _ _ obligations _ _ hd
    refine ⟨source, hsource, hname, Nat.lt_of_le_of_lt hwave ?_⟩
    rw [warmupNode]
    split <;> simp

end Graph

namespace Assembly

variable {C : Canon} {V : Vllm} {host : PlannerHostSnapshot} {raw : RawRequest}
  {scope : BuildScope} (r : Assembly C V host raw scope)

/-- The graph of an assembled plan can be run in the order of its waves. -/
theorem dependsEarlier : DependsEarlier r.nodes := by
  refine dependsEarlier_graphNodes fun q hq hshared hclass => ?_
  obtain ⟨region, -, -, hq | rfl⟩ := r.mem_requirements hq
  · rw [regionRequirements, List.mem_pair] at hq
    rcases hq with rfl | rfl <;> cases hclass
  · cases hshared

end Assembly

end Sock.Engine
