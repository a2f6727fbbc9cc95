/-
  Early and late layers: where the cache specs and where the policy draw the line (`attention.py`,
  `tmh_policy.py`).

  A worker builds the spec of a layer from its name: late when the last numeric component of the
  name reaches two thirds of the hidden layers of the worker's pipeline stage. The scheduler's
  policy has the layers of the first stage, sorted by the last number in the name, and the last
  third of that list is late. `fidelity_agrees_iff` says for which names and splits the two agree.

  * `getKvCacheSpec`: the spec of a layer.
  * `PipelineStage`: a stage with its layers and the cache config of its workers.

  Not modelled: digits other than 0 to 9. The workers of one stage have equal configs, so there is
  one config for each stage.
-/
import Mathlib.Data.String.Basic
import Sock.Lib.Sorting
import Sock.Tmh.Stages

namespace Sock.Tmh

open Lib

/-! ## The specs -/

/-- `_tmh_layer_index`: the last component that is a number, or zero. -/
def tmhLayerIndex (layerName : String) : Nat :=
  let isDigit (part : List Char) : Bool := !part.isEmpty && part.all Char.isDigit
  match (layerName.toList.splitOn '.').reverse.find? isDigit with
  | some part => part.foldl (fun n c => n * 10 + (c.toNat - '0'.toNat)) 0
  | none => 0

/-- `Attention`, as far as its spec is built from it. -/
structure AttentionLayer where
  layerName : String
  numKvHeads : Nat
  headSize : Nat
  headSizeV : Nat
  kvCacheDtypeSize : Nat

/-- `VllmConfig`, as far as specs are built from it. -/
structure SpecConfig where
  blockSize : Nat
  tmhHotBudgetPct : ℚ := 25
  maxNumSeqs : Nat
  maxModelLen : Nat
  kvQuantMode : KVQuantMode := .none

/-- `late_layer_start`, in a stage of `numHiddenLayers` hidden layers. -/
def stageLateLayerStart (numHiddenLayers : Int) : Int := numHiddenLayers * 2 / 3

/-- `Attention.get_kv_cache_spec`, on a worker whose stage has `numHiddenLayers` hidden layers. -/
def getKvCacheSpec (config : SpecConfig) (numHiddenLayers : Int) (layer : AttentionLayer) :
    SizedSpec :=
  let maxModelPages := (config.maxModelLen + config.blockSize - 1) / config.blockSize
  { blockSize := config.blockSize
    tmhHotBudgetPct := config.tmhHotBudgetPct
    tmhLateLayer :=
      decide ((tmhLayerIndex layer.layerName : Int) ≥ stageLateLayerStart numHiddenLayers)
    tmhMaxNumSeqs := config.maxNumSeqs
    tmhMaxModelPages := max 1 maxModelPages
    numKvHeads := layer.numKvHeads
    headSize := layer.headSize
    headSizeV := layer.headSizeV
    dtypeSize := layer.kvCacheDtypeSize
    kvQuantMode := config.kvQuantMode }

/-- A pipeline stage: the number of its hidden layers, its attention layers, and the cache config
    of its workers, which has the spec of each of them. -/
structure PipelineStage (config : SpecConfig) where
  numHiddenLayers : Int
  layers : List AttentionLayer
  kvCacheConfig : KVCacheConfig
  names : kvCacheConfig.layerNames.Perm (layers.map AttentionLayer.layerName)
  specs : ∀ layer ∈ layers, (specsOfGroups kvCacheConfig.kvCacheGroups).get? layer.layerName =
    some (getKvCacheSpec config numHiddenLayers layer)

/-- A config with one group has the group's specs. -/
theorem get?_specsOfGroups_singleton {group : KVCacheGroupSpec} {name : String}
    (hname : name ∈ group.layerNames) {spec : SizedSpec}
    (h : group.specByLayer.get? name = some spec) :
    (specsOfGroups [group]).get? name = some spec := by
  have hkey : name ∈ (specsOfGroups [group]).keys :=
    mem_keys_specsOfGroups.mpr (List.mem_flatMap.mpr ⟨group, List.mem_singleton_self _, hname⟩)
  obtain ⟨found, hfound⟩ := Dict.mem_keys.mp hkey
  obtain ⟨group', hg, he⟩ := List.mem_flatMap.mp (Dict.mem_of_get?_ofEntries hfound)
  cases List.mem_singleton.mp hg
  obtain ⟨name', -, he⟩ := List.mem_filterMap.mp he
  obtain ⟨spec', hspec', he⟩ := Option.map_eq_some_iff.mp he
  cases he
  rw [hfound, ← hspec', h]

namespace PipelineStage

variable {config : SpecConfig}

def layerNames (stage : PipelineStage config) : List String :=
  stage.layers.map AttentionLayer.layerName

/-- The specs of the stage are late for layers of the name. -/
def late (stage : PipelineStage config) (layerName : String) : Bool :=
  decide ((tmhLayerIndex layerName : Int) ≥ stageLateLayerStart stage.numHiddenLayers)

/-- A stage with one group, which has a spec for each layer. -/
def ofLayers (config : SpecConfig) (numBlocks : Nat) (numHiddenLayers : Int)
    (layers : List AttentionLayer) (hn : (layers.map AttentionLayer.layerName).Nodup) :
    PipelineStage config where
  numHiddenLayers
  layers
  kvCacheConfig :=
    { numBlocks
      kvCacheGroups :=
        [{ layerNames := layers.map AttentionLayer.layerName
           kvCacheSpec := .uniformType (.ofEntries (layers.map fun layer =>
             (layer.layerName, getKvCacheSpec config numHiddenLayers layer)))
           known := by
             intro specs hspecs name hname
             cases hspecs
             rw [Dict.mem_keys_ofEntries, List.map_map]
             exact hname }]
      tmhKvPolicy := .physical
      tmhHotBudgetPct := config.tmhHotBudgetPct }
  names := by simp [KVCacheConfig.layerNames]
  specs := by
    intro layer hlayer
    have hkeys : (layers.map fun layer =>
        (layer.layerName, getKvCacheSpec config numHiddenLayers layer)).map Prod.fst =
          layers.map AttentionLayer.layerName := by
      rw [List.map_map]
      rfl
    refine get?_specsOfGroups_singleton (List.mem_map_of_mem hlayer) ?_
    exact Dict.get?_ofEntries (hkeys ▸ hn) (List.mem_map_of_mem hlayer)

end PipelineStage

/-! ## The order of the policy's layers -/

/-- `_extract_layers` puts the first name before the second. -/
def NameBefore (a b : String) : Prop :=
  layerIndex a < layerIndex b ∨ layerIndex a = layerIndex b ∧ a < b

instance : DecidableRel NameBefore := fun a b =>
  inferInstanceAs (Decidable (layerIndex a < layerIndex b ∨ _))

theorem NameBefore.asymm (a b : String) (h : NameBefore a b) : ¬ NameBefore b a := by
  rintro (h' | ⟨h', hba⟩) <;> rcases h with h | ⟨h, hab⟩
  · exact absurd h (Nat.lt_asymm h')
  · exact absurd h' (Nat.lt_irrefl _ <| h ▸ ·)
  · exact absurd h (Nat.lt_irrefl _ <| h' ▸ ·)
  · exact absurd hab (lt_asymm hba)

instance : Std.Total LayerShape.le where
  total a b := by
    unfold LayerShape.le
    rcases Nat.lt_trichotomy a.layerIndex b.layerIndex with h | h | h
    · exact .inl (.inl h)
    · exact (le_total a.layerName b.layerName).imp (fun hn => .inr ⟨h, hn⟩)
        fun hn => .inr ⟨h.symm, hn⟩
    · exact .inr (.inl h)

instance : IsTrans (LayerShape String) LayerShape.le where
  trans a b c := by
    rintro (hab | ⟨hab, hn⟩) (hbc | ⟨hbc, hn'⟩)
    · exact .inl (hab.trans hbc)
    · exact .inl (hbc ▸ hab)
    · exact .inl (hab ▸ hbc)
    · exact .inr ⟨hab.trans hbc, hn.trans hn'⟩

theorem layerIndex_of_mem_extractLayers {groups : List KVCacheGroupSpec} {layer : LayerShape String}
    (h : layer ∈ extractLayers groups) : layer.layerIndex = layerIndex layer.layerName := by
  unfold extractLayers at h
  rw [List.mem_insertionSort] at h
  obtain ⟨entry, -, rfl⟩ := List.mem_map.mp h
  rfl

/-- The names of the policy's layers are in strict order. -/
theorem pairwise_layerNames {config : KVCacheConfig} {blockSize : Nat} {hpos : 0 < blockSize}
    {policy : PolicyConfig String} (h : fromKvCacheConfig config blockSize hpos = some policy) :
    policy.layerNames.Pairwise NameBefore := by
  have hnodup := (layerNames_fromKvCacheConfig h).1
  unfold fromKvCacheConfig at h
  obtain ⟨bytes, -, h⟩ := Option.bind_eq_some_iff.mp h
  cases h
  unfold PolicyConfig.layerNames at hnodup ⊢
  have hsorted : (extractLayers config.kvCacheGroups).Pairwise LayerShape.le :=
    List.pairwise_insertionSort _ _
  rw [List.pairwise_map]
  refine ((hsorted.and (List.pairwise_map.mp hnodup)).imp_of_mem ?_)
  rintro a b ha hb ⟨hle, hne⟩
  unfold NameBefore
  rw [← layerIndex_of_mem_extractLayers ha, ← layerIndex_of_mem_extractLayers hb]
  exact hle.imp_right fun ⟨hindex, hname⟩ => ⟨hindex, lt_of_le_of_ne hname hne⟩

/-- The scheduler's policy has the layers of the first stage. -/
theorem layerNames_perm_first {config : SpecConfig} {first : PipelineStage config}
    {rest : List KVCacheConfig} {scheduler : KVCacheConfig}
    (hs : generateSchedulerKvCacheConfig (first.kvCacheConfig :: rest) = some scheduler)
    {blockSize : Nat} {hpos : 0 < blockSize} {policy : PolicyConfig String}
    (hp : fromKvCacheConfig scheduler blockSize hpos = some policy)
    (hnodup : first.layerNames.Nodup) : policy.layerNames.Perm first.layerNames := by
  obtain ⟨hn, hmem⟩ := layerNames_fromKvCacheConfig hp
  refine (List.perm_ext_iff_of_nodup hn hnodup).mpr fun name => ?_
  rw [hmem, layerNames_generate_cons hs]
  exact first.names.mem_iff

theorem map_lateLayers (policy : PolicyConfig String) :
    policy.lateLayers.map LayerShape.layerName =
      policy.layerNames.drop (policy.layerNames.length * 2 / 3) := by
  unfold PolicyConfig.lateLayers PolicyConfig.lateLayerStart PolicyConfig.layerNames
  rw [List.map_drop, List.length_map]

/-! ## The result -/

/-- **The specs and the policy agree on the late layers** exactly when, in the first stage, the
    layers with late specs are as many as the last third and come last in the order of the
    policy, and no later stage has one. -/
theorem fidelity_agrees_iff (config : SpecConfig) (first : PipelineStage config)
    (rest : List (PipelineStage config))
    (hnodup : ((first :: rest).flatMap PipelineStage.layerNames).Nodup) {scheduler : KVCacheConfig}
    (hs : generateSchedulerKvCacheConfig ((first :: rest).map PipelineStage.kvCacheConfig) =
      some scheduler) {blockSize : Nat} {hpos : 0 < blockSize} {policy : PolicyConfig String}
    (hp : fromKvCacheConfig scheduler blockSize hpos = some policy) :
    (∀ stage ∈ first :: rest, ∀ layer ∈ stage.layers,
        layer.layerName ∈ policy.lateLayers.map LayerShape.layerName ↔
          (getKvCacheSpec config stage.numHiddenLayers layer).tmhLateLayer = true) ↔
      (first.layerNames.countP first.late =
          first.layerNames.length - first.layerNames.length * 2 / 3 ∧
        ∀ a ∈ first.layerNames, ∀ b ∈ first.layerNames, first.late a = true →
          first.late b = false → NameBefore b a) ∧
      ∀ stage ∈ rest, ∀ name ∈ stage.layerNames, stage.late name = false := by
  rw [List.flatMap_cons, List.nodup_append] at hnodup
  obtain ⟨hfirst, -, hapart⟩ := hnodup
  have hperm := layerNames_perm_first hs hp hfirst
  rw [map_lateLayers]
  have hsplit := mem_drop_iff_of_pairwise NameBefore.asymm (pairwise_layerNames hp)
    (policy.layerNames.length * 2 / 3) first.late
  rw [hperm.countP_eq] at hsplit
  simp only [hperm.length_eq, hperm.mem_iff] at hsplit ⊢
  rw [← hsplit, List.forall_mem_cons]
  refine and_congr ?_ (forall₂_congr fun stage hstage => ?_)
  · unfold PipelineStage.layerNames
    rw [List.forall_mem_map]
    rfl
  · -- a layer of another stage is not in the policy at all
    have hnot : ∀ name ∈ stage.layerNames,
        name ∉ policy.layerNames.drop (first.layerNames.length * 2 / 3) := fun name hname hd =>
      hapart name (hperm.mem_iff.mp (List.mem_of_mem_drop hd)) name
        (List.mem_flatMap.mpr ⟨stage, hstage, hname⟩) rfl
    unfold PipelineStage.layerNames at hnot ⊢
    rw [List.forall_mem_map] at hnot ⊢
    refine forall₂_congr fun layer hlayer => ?_
    rw [← Bool.not_eq_true]
    exact (iff_comm.trans (iff_false_right (hnot layer hlayer)))

/-- Pages of 16 tokens, for two requests of at most four pages. -/
def fourPageRequests : SpecConfig where
  blockSize := 16
  maxNumSeqs := 2
  maxModelLen := 64

/-- A layer with one head of one byte. -/
def byteLayer (layerName : String) : AttentionLayer where
  layerName
  numKvHeads := 1
  headSize := 2
  headSizeV := 2
  kvCacheDtypeSize := 1

/-- A stage of layers with one byte. -/
def byteStage (numHiddenLayers : Int) (layerNames : List String) (hn : layerNames.Nodup) :
    PipelineStage fourPageRequests :=
  .ofLayers fourPageRequests 4 numHiddenLayers (layerNames.map byteLayer) (by
    rw [List.map_map]
    exact (List.map_id layerNames).symm ▸ hn)

/-- The only stage of a model with three layers. -/
def threeLayers : PipelineStage fourPageRequests :=
  byteStage 3 ["layers.0.attn", "layers.1.attn", "layers.2.attn"] (by decide)

/-- The stages of a model with four layers. -/
def twoAndTwo : List (PipelineStage fourPageRequests) :=
  [byteStage 2 ["layers.0.attn", "layers.1.attn"] (by decide),
    byteStage 2 ["layers.2.attn", "layers.3.attn"] (by decide)]

theorem fidelity_agrees_threeLayers :
    ∃ policy, schedulerPolicy [threeLayers.kvCacheConfig] = some policy ∧
      ∀ layer ∈ threeLayers.layers,
        layer.layerName ∈ policy.lateLayers.map LayerShape.layerName ↔
          (getKvCacheSpec fourPageRequests 3 layer).tmhLateLayer = true := by
  have hsome : (schedulerPolicy [threeLayers.kvCacheConfig]).isSome := by decide +kernel
  obtain ⟨policy, hpolicy⟩ := Option.isSome_iff_exists.mp hsome
  obtain ⟨scheduler, hs, hp⟩ := Option.bind_eq_some_iff.mp hpolicy
  refine ⟨policy, hpolicy, ((fidelity_agrees_iff fourPageRequests threeLayers [] ?_ hs hp).mpr ?_)
    threeLayers List.mem_cons_self⟩
  · decide
  · decide +kernel

/-- A model with four layers in two stages of two: both layers of the second stage have late
    specs, and the policy has neither. -/
theorem fidelity_agrees_fails :
    ∃ policy, schedulerPolicy (twoAndTwo.map PipelineStage.kvCacheConfig) = some policy ∧
      policy.lateLayers.map LayerShape.layerName = ["layers.1.attn"] ∧
      (twoAndTwo.map fun stage => stage.layers.map fun layer => (layer.layerName,
          (getKvCacheSpec fourPageRequests stage.numHiddenLayers layer).tmhLateLayer)) =
        [[("layers.0.attn", false), ("layers.1.attn", true)],
          [("layers.2.attn", true), ("layers.3.attn", true)]] := by
  have hsome : (schedulerPolicy (twoAndTwo.map PipelineStage.kvCacheConfig)).any (fun policy =>
      policy.lateLayers.map LayerShape.layerName = ["layers.1.attn"]) := by decide +kernel
  obtain ⟨policy, hpolicy, hlate⟩ := Option.any_eq_true _ _ |>.mp hsome
  exact ⟨policy, hpolicy, of_decide_eq_true hlate, by decide +kernel⟩

end Sock.Tmh
