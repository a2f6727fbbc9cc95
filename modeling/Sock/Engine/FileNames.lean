/-
  The names of a plan's files (engine/src/executor.rs, `safe_name`).

  A file is named by the slug of a node or wave, which forgets the case of letters and tells no
  sign from another.

  * `ShapeName`: the names of the shapes that are warmed up. Their words are a prefix code
    (`ShapeName.words_append_inj`), so a slug still tells the shape from the region.
  * `Assembly.name_of_slug`: nodes with equal slugs have equal names.
  * `Assembly.distinctFiles`: nodes have distinct slugs, and so do waves and fanouts.
-/
import Sock.Engine.Coverage

namespace Sock.Engine

open Lib Sock.Core

/-! ## Names of shapes -/

/-- The names of the shape nodes that are warmed up. -/
inductive ShapeName
  | correctness
  | performance
  | hot (batchSize sequenceLength : Nat)
  | cudaGraph (batchSize sequenceLength : Nat)

namespace ShapeName

def text : ShapeName → String
  | .correctness => "correctness-range"
  | .performance => "performance-range"
  | .hot b s => "hot" ++ "-b" ++ toString b ++ "-s" ++ toString s
  | .cudaGraph b s => "cuda-graph" ++ "-b" ++ toString b ++ "-s" ++ toString s

theorem exists_text {normalized : NormalizedRequest} {selected : BackendSelection}
    {optimization : OptimizationEnvelope} {node : ShapeEnvelopeNode}
    (h : node ∈ (shapeEnvelope normalized selected optimization).nodes)
    (hintent : node.intent ≠ .uncoveredResidual) : ∃ shape : ShapeName, node.name = shape.text := by
  rcases mem_shapeEnvelope.mp h with
    rfl | ⟨-, rfl | ⟨shape, -, rfl⟩⟩ | ⟨-, shape, -, rfl⟩ | ⟨-, rfl⟩
  · exact ⟨.correctness, rfl⟩
  · exact ⟨.performance, rfl⟩
  · exact ⟨.hot shape.batchSize shape.sequenceLength, rfl⟩
  · exact ⟨.cudaGraph shape.batchSize shape.sequenceLength, rfl⟩
  · exact absurd rfl hintent

/-- A letter before a number belongs to its word. -/
theorem words_cons_toDigits {c : Char} (hc : slugChar c = c ∧ c ≠ '_') (n : Nat) :
    words (c :: Nat.toDigits 10 n) = [c :: Nat.toDigits 10 n] :=
  Plain.words_eq (List.forall_mem_cons.mpr ⟨hc, plain_toDigits n⟩)

theorem words_exact (label : String) (b s : Nat) :
    words (label ++ "-b" ++ toString b ++ "-s" ++ toString s).toList =
      words label.toList ++ ['b' :: Nat.toDigits 10 b, 's' :: Nat.toDigits 10 s] := by
  have htext : (label ++ "-b" ++ toString b ++ "-s" ++ toString s).toList =
      label.toList ++ '-' :: (('b' :: Nat.toDigits 10 b) ++ '-' :: 's' :: Nat.toDigits 10 s) := by
    simp [String.toList_append]
  rw [htext, words_append (by decide), words_append (by decide), words_cons_toDigits (by decide),
    words_cons_toDigits (by decide)]
  rfl

theorem words_text (shape : ShapeName) : words shape.text.toList = match shape with
    | .correctness => ["correctness".toList, "range".toList]
    | .performance => ["performance".toList, "range".toList]
    | .hot b s => ["hot".toList, 'b' :: Nat.toDigits 10 b, 's' :: Nat.toDigits 10 s]
    | .cudaGraph b s => ["cuda".toList, "graph".toList, 'b' :: Nat.toDigits 10 b,
        's' :: Nat.toDigits 10 s] := by
  cases shape with
  | correctness => decide
  | performance => decide
  | hot b s => exact words_exact "hot" b s
  | cudaGraph b s => exact words_exact "cuda-graph" b s

/-- The words of a shape end where they end, whatever follows. -/
theorem words_append_inj {shape shape' : ShapeName} {rest rest' : List (List Char)}
    (h : words shape.text.toList ++ rest = words shape'.text.toList ++ rest') :
    shape = shape' ∧ rest = rest' := by
  rw [words_text, words_text] at h
  cases shape <;> cases shape' <;> simp_all [toDigits_inj]

end ShapeName

/-! ## Names of files -/

section Names

variable {C : Canon}

/-- The words of a requirement's node: its kind, its class and its hash. -/
theorem words_handle (hhex : C.Hexadecimal) {kind : List Char} (hkind : words kind = [kind])
    (q : ArtifactRequirement) :
    words (kind ++ ':' :: (q.artifactClass.asStr.toList ++ ':' ::
        (C.canonicalHash q).asStr.toList)) =
      kind :: (words q.artifactClass.asStr.toList ++ [(C.canonicalHash q).asStr.toList]) := by
  rw [words_append (by decide), words_append (by decide), hkind, (hhex.plain q).words_eq]
  rfl

theorem words_artifactNodeHandle (hhex : C.Hexadecimal) (q : ArtifactRequirement) :
    words (artifactNodeHandle C q).toList = "artifact".toList ::
      (words q.artifactClass.asStr.toList ++ [(C.canonicalHash q).asStr.toList]) := by
  rw [← words_handle hhex (by decide) q]
  simp [artifactNodeHandle, String.toList_append]

theorem words_fanoutNodeHandle (hhex : C.Hexadecimal) (q : ArtifactRequirement) :
    words (fanoutNodeHandle C q).toList = "fanout".toList ::
      (words q.artifactClass.asStr.toList ++ [(C.canonicalHash q).asStr.toList]) := by
  rw [← words_handle hhex (by decide) q]
  simp [fanoutNodeHandle, String.toList_append]

theorem words_warmupHandle (o : WarmupObligation) :
    words o.handle.toList =
      "warmup".toList :: (words o.nodeName.toList ++ words o.regionName.toList) := by
  have htext : o.handle.toList =
      "warmup".toList ++ ':' :: (o.nodeName.toList ++ ':' :: o.regionName.toList) := by
    simp [WarmupObligation.handle, String.toList_append]
  rw [htext, words_append (by decide), words_append (by decide)]
  rfl

theorem words_waveName (wave : Nat) (queue : QueueKind) :
    words (waveName wave queue).toList =
      "wave".toList :: Nat.toDigits 10 wave :: words queue.debug.toList := by
  have htext : (waveName wave queue).toList =
      "wave".toList ++ '-' :: (Nat.toDigits 10 wave ++ '-' :: queue.debug.toList) := by
    simp [waveName, String.toList_append]
  rw [htext, words_append (by decide), words_append (by decide), (plain_toDigits wave).words_eq]
  rfl

/-- The hash is the last word. -/
theorem eq_of_words (hC : C.CollisionFree) {q q' : ArtifactRequirement}
    (h : words q.artifactClass.asStr.toList ++ [(C.canonicalHash q).asStr.toList] =
      words q'.artifactClass.asStr.toList ++ [(C.canonicalHash q').asStr.toList]) : q = q' := by
  have hhash := congrArg List.getLast? h
  rw [List.getLast?_concat, List.getLast?_concat, Option.some_inj] at hhash
  exact hC.eq_of_canonicalHash (congrArg CanonicalHash.mk (String.toList_inj.mp hhash))

/-- A wave's slug has its number and its queue. -/
theorem waveName_of_slug {wave wave' : Nat} {queue queue' : QueueKind}
    (h : slug (waveName wave queue) = slug (waveName wave' queue')) :
    (wave, queue) = (wave', queue') := by
  have hqueue : words queue.debug.toList = words queue'.debug.toList → queue = queue' := by
    cases queue <;> cases queue' <;> decide
  have hwords := words_eq_iff.mpr h
  rw [words_waveName, words_waveName] at hwords
  obtain ⟨-, hrest⟩ := List.cons.inj hwords
  obtain ⟨hwave, hdebug⟩ := List.cons.inj hrest
  exact Prod.ext (toDigits_inj.mp hwave) (hqueue hdebug)

/-- The slug of a fanout is not that of a wave. -/
theorem slug_waveName_ne (hhex : C.Hexadecimal) (wave : Nat) (queue : QueueKind)
    (q : ArtifactRequirement) : slug (waveName wave queue) ≠ slug (fanoutNodeHandle C q) := by
  intro h
  have hwords := words_eq_iff.mpr h
  rw [words_waveName, words_fanoutNodeHandle hhex] at hwords
  exact absurd (List.cons.inj hwords).1 (by decide)

end Names

/-- The files of a plan: no two nodes share one, and neither do waves and fanouts. -/
structure DistinctFiles (graph : MaterializationGraph) : Prop where
  nodes : (graph.nodes.map fun node => slug node.name).Nodup
  waves : (graph.waves.map fun wave => slug wave.name).Nodup
  fanouts : ∀ wave ∈ graph.waves, ∀ node ∈ graph.nodes, node.kind = .transfer →
    slug wave.name ≠ slug node.name

namespace Assembly

variable {C : Canon} {V : Vllm} {host : PlannerHostSnapshot} {raw : RawRequest}
  {scope : BuildScope} (r : Assembly C V host raw scope)

theorem slug_regionName {region : CompileRegion} (h : region ∈ r.regions) :
    slug region.name = region.name := by
  obtain ⟨seam, hseam, hcanonical, -⟩ := r.exists_seam h
  have hnames : ∀ seam ∈ regionSeams, slug seam.canonicalName = seam.canonicalName := by decide
  rw [← hcanonical]
  exact hnames seam hseam

/-- The shape of an obligation, and the region that is warmed up for it. -/
theorem exists_shapeName {o : WarmupObligation} (h : o ∈ r.obligations) :
    ∃ shape : ShapeName, o.nodeName = shape.text ∧ slug o.regionName = o.regionName := by
  obtain ⟨node, hnode, hintent, region, hregion, -, rfl⟩ :=
    r.mem_neededWarmup.mp (r.mem_obligations.mp h).1
  obtain ⟨shape, hshape⟩ := ShapeName.exists_text (r.mem_envelope.mp hnode).1 hintent
  exact ⟨shape, hshape, r.slug_regionName hregion⟩

theorem handle_of_slug {o o' : WarmupObligation} (ho : o ∈ r.obligations) (ho' : o' ∈ r.obligations)
    (h : slug o.handle = slug o'.handle) : o.handle = o'.handle := by
  obtain ⟨shape, hshape, hregion⟩ := r.exists_shapeName ho
  obtain ⟨shape', hshape', hregion'⟩ := r.exists_shapeName ho'
  have hwords := words_eq_iff.mpr h
  rw [words_warmupHandle, words_warmupHandle, hshape, hshape'] at hwords
  obtain ⟨rfl, hregions⟩ := ShapeName.words_append_inj (List.cons.inj hwords).2
  have hname : o.regionName = o'.regionName := by
    rw [← hregion, ← hregion', words_eq_iff.mp hregions]
  rw [WarmupObligation.handle, WarmupObligation.handle, hshape, hshape', hname]

/-- Nodes with equal slugs have equal names. -/
theorem name_of_slug (hC : C.CollisionFree) (hhex : C.Hexadecimal)
    {node node' : MaterializationNode}
    (hnode : node ∈ r.nodes) (hnode' : node' ∈ r.nodes) (h : slug node.name = slug node'.name) :
    node.name = node'.name := by
  have hartifact : ∀ q, (artifactNode C q).name = artifactNodeHandle C q := fun _ => rfl
  have hfanout : ∀ q, (fanoutNode C raw.topology q).name = fanoutNodeHandle C q := fun _ => rfl
  have hwarmup : ∀ o, (warmupNode C raw.topology r.requirements o).name = o.handle := fun _ => rfl
  have hwords := words_eq_iff.mpr h
  -- the first word tells the kind of node
  rcases mem_graphNodes.mp hnode with ⟨q, -, rfl⟩ | ⟨q, -, -, rfl⟩ | ⟨o, ho, rfl⟩ <;>
    rcases mem_graphNodes.mp hnode' with ⟨q', -, rfl⟩ | ⟨q', -, -, rfl⟩ | ⟨o', ho', rfl⟩ <;>
    simp only [hartifact, hfanout, hwarmup, words_artifactNodeHandle hhex,
      words_fanoutNodeHandle hhex, words_warmupHandle] at h hwords ⊢ <;>
    obtain ⟨hkind, hrest⟩ := List.cons.inj hwords
  case inl.inl => rw [eq_of_words hC hrest]
  case inr.inl.inr.inl => rw [eq_of_words hC hrest]
  case inr.inr.inr.inr => exact r.handle_of_slug ho ho' h
  all_goals exact absurd hkind (by decide)

/-- The nodes that fan an artifact out. -/
theorem exists_fanout {topology : ExecutionTopology} {requirements : List ArtifactRequirement}
    {obligations : List WarmupObligation} {node : MaterializationNode}
    (h : node ∈ graphNodes C topology requirements obligations) (hkind : node.kind = .transfer) :
    ∃ q, node = fanoutNode C topology q := by
  rcases mem_graphNodes.mp h with ⟨q, -, rfl⟩ | ⟨q, -, -, rfl⟩ | ⟨o, -, rfl⟩
  · simp only [artifactNode] at hkind
    split at hkind <;> cases hkind
  · exact ⟨q, rfl⟩
  · cases hkind

theorem waves_eq :
    r.plan.materializationGraph.waves = (waveKeys r.nodes).map (waveOf r.nodes) := rfl

/-- **File names.** No two nodes of a plan share a file, and neither do its waves and fanouts. -/
theorem distinctFiles (hC : C.CollisionFree) (hhex : C.Hexadecimal)
    (hnames : (r.nodes.map (·.name)).Nodup) : DistinctFiles r.plan.materializationGraph where
  nodes := by
    have hnodup : r.nodes.Nodup := .of_map _ hnames
    refine hnodup.map_on fun node hnode node' hnode' h => ?_
    exact List.inj_on_of_nodup_map hnames hnode hnode' (r.name_of_slug hC hhex hnode hnode' h)
  waves := by
    rw [r.waves_eq, List.map_map]
    exact nodup_waveKeys.map fun key key' h => waveName_of_slug h
  fanouts := by
    intro wave hwave node hnode hkind
    rw [r.waves_eq] at hwave
    obtain ⟨key, -, rfl⟩ := List.mem_map.mp hwave
    obtain ⟨q, rfl⟩ := exists_fanout hnode hkind
    exact slug_waveName_ne hhex key.1 key.2 q

end Assembly

end Sock.Engine
