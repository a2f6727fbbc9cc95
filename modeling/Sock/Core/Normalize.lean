/-
  What the normal form of a request depends on (core/src/request.rs).

  * `Rearranged`: a list with its items permuted and repeated; a request with its architectures,
    families, shapes and entries so rearranged and its layers permuted.
  * `canonicalLayers_eq`: the layers of the normal form are sorted by precedence and name only, so
    layers that agree in both keep the order in which the caller gave them.
  * `canonicalize_canonicalize`: the normal form is its own normal form.
  * `normalize_rearranged_iff`: the requests whose normal form no rearrangement changes.
-/
import Mathlib.Data.List.Perm.Subperm
import Sock.Core.Pretty
import Sock.Core.Request

namespace Sock.Core

open Std Lib

/-! ## The orders of the items -/

instance : LawfulEqOrd BackendFamily where
  eq_of_compare {a b} h := by revert h; cases a <;> cases b <;> decide

instance : TransOrd CoveragePlane := inferInstanceAs (TransCmp (compareOn CoveragePlane.ctorIdx))

instance : LawfulEqOrd CoveragePlane where
  eq_of_compare {a b} h := by revert h; cases a <;> cases b <;> decide

theorem ShapePoint.compare_eq :
    (compare : ShapePoint → ShapePoint → Ordering) =
      compareLex (compareOn (·.batchSize))
        (compareLex (compareOn (·.sequenceLength)) (compareOn (·.plane))) := by
  funext a b
  rcases a
  rcases b
  simp [compareLex, compareOn, compare, instOrdShapePoint.ord]

instance : TransOrd ShapePoint := by
  unfold TransOrd
  rw [ShapePoint.compare_eq]
  infer_instance

instance : LawfulEqOrd ShapePoint where
  eq_of_compare {a b} h := by
    rw [ShapePoint.compare_eq] at h
    simp only [compareLex, compareOn, Ordering.then_eq_eq, LawfulEqOrd.compare_eq_iff_eq] at h
    obtain ⟨hbatch, hlength, hplane⟩ := h
    cases a
    cases b
    simp_all

theorem ConfigEntry.compare_eq :
    (compare : ConfigEntry → ConfigEntry → Ordering) =
      compareLex (compareOn (·.key)) (compareOn (·.value)) := by
  funext a b
  rcases a
  rcases b
  simp [compareLex, compareOn, compare, instOrdConfigEntry.ord]

instance : TransOrd ConfigEntry := by
  unfold TransOrd
  rw [ConfigEntry.compare_eq]
  infer_instance

instance : LawfulEqOrd ConfigEntry where
  eq_of_compare {a b} h := by
    rw [ConfigEntry.compare_eq] at h
    simp only [compareLex, compareOn, Ordering.then_eq_eq, LawfulEqOrd.compare_eq_iff_eq] at h
    obtain ⟨hkey, hvalue⟩ := h
    cases a
    cases b
    simp_all

/-! ## Configuration layers -/

/-- The order of the layers, which does not look at their entries. -/
def layerOrder : ConfigLayer → ConfigLayer → Ordering :=
  compareLex (compareOn ConfigLayer.precedence) (compareOn ConfigLayer.name)

instance : TransCmp layerOrder :=
  inferInstanceAs (TransCmp
    (compareLex (compareOn ConfigLayer.precedence) (compareOn ConfigLayer.name)))

theorem layerOrder_eq_iff {l l' : ConfigLayer} :
    layerOrder l l' = .eq ↔ l.precedence = l'.precedence ∧ l.name = l'.name := by
  simp only [layerOrder, compareLex, compareOn, Ordering.then_eq_eq, LawfulEqOrd.compare_eq_iff_eq]

namespace ConfigLayer

/-- The layers agree in precedence and name, and one has the entries of the other. -/
theorem canonicalize_eq_iff {l l' : ConfigLayer} :
    l.canonicalize = l'.canonicalize ↔
      layerOrder l l' = .eq ∧ ∀ e, e ∈ l.entries ↔ e ∈ l'.entries := by
  rw [layerOrder_eq_iff, ← dedup_sort_eq_iff]
  cases l
  cases l'
  simp only [canonicalize, ConfigLayer.mk.injEq]
  tauto

@[simp] theorem canonicalize_canonicalize (l : ConfigLayer) :
    l.canonicalize.canonicalize = l.canonicalize := by
  simp [canonicalize]

end ConfigLayer

/-- The layers of the normal form. -/
def canonicalLayers (layers : List ConfigLayer) : List ConfigLayer :=
  (sortBy layerOrder layers).map ConfigLayer.canonicalize

/-- Whether the entries are sorted before or after the layers makes no difference. -/
theorem canonicalLayers_eq (layers : List ConfigLayer) :
    canonicalLayers layers = sortBy layerOrder (layers.map ConfigLayer.canonicalize) := by
  apply map_sortBy
  intro l l'
  rfl

/-- The layers whose normal form does not depend on their order. -/
theorem canonicalLayers_perm_iff {layers : List ConfigLayer} :
    (∀ reordered, reordered.Perm layers → canonicalLayers reordered = canonicalLayers layers) ↔
      ∀ l ∈ layers, ∀ l' ∈ layers, layerOrder l l' = .eq → l.canonicalize = l'.canonicalize := by
  constructor
  · intro h l hl l' hl' htied
    -- either layer in front: the sort keeps it in front of the layers that it is tied with
    have hfront : canonicalLayers (l :: layers.erase l) = canonicalLayers (l' :: layers.erase l') :=
      (h _ (List.perm_cons_erase hl).symm).trans (h _ (List.perm_cons_erase hl').symm).symm
    rw [canonicalLayers_eq, canonicalLayers_eq, List.map_cons, List.map_cons] at hfront
    have hself : layerOrder l.canonicalize l.canonicalize = .eq := layerOrder_eq_iff.mpr ⟨rfl, rfl⟩
    have htied' : layerOrder l.canonicalize l'.canonicalize = .eq := htied
    have hheads := congrArg (List.filter fun b => layerOrder l.canonicalize b = .eq) hfront
    rw [filter_sortBy, filter_sortBy, List.filter_cons_of_pos (by simpa using hself),
      List.filter_cons_of_pos (by simpa using htied')] at hheads
    exact (List.cons.inj hheads).1
  · intro h reordered hperm
    rw [canonicalLayers_eq, canonicalLayers_eq]
    apply sortBy_eq_of_perm (hperm.map _)
    intro l hl l' hl' htied
    obtain ⟨k, hk, rfl⟩ := List.mem_map.mp hl
    obtain ⟨k', hk', rfl⟩ := List.mem_map.mp hl'
    exact h k (hperm.mem_iff.mp hk) k' (hperm.mem_iff.mp hk') htied

/-! ## Rearranged requests -/

/-- The list with its items permuted, some of them repeated. -/
def Rearranged {α : Type} (l l' : List α) : Prop := l.Subperm l' ∧ l' ⊆ l

theorem Rearranged.mem_iff {α : Type} {l l' : List α} (h : Rearranged l l') (a : α) :
    a ∈ l' ↔ a ∈ l :=
  ⟨fun ha => h.2 ha, fun ha => h.1.subset ha⟩

theorem Rearranged.refl {α : Type} (l : List α) : Rearranged l l :=
  ⟨List.Subperm.refl l, List.Subset.refl l⟩

/-- The layer with its entries rearranged. -/
structure ConfigLayer.Rearranged (l l' : ConfigLayer) : Prop where
  precedence : l.precedence = l'.precedence
  name : l.name = l'.name
  entries : Core.Rearranged l.entries l'.entries

theorem ConfigLayer.Rearranged.canonicalize_eq {l l' : ConfigLayer} (h : l.Rearranged l') :
    l.canonicalize = l'.canonicalize :=
  canonicalize_eq_iff.mpr
    ⟨layerOrder_eq_iff.mpr ⟨h.precedence, h.name⟩, fun e => (h.entries.mem_iff e).symm⟩

theorem map_canonicalize_of_rearranged {layers layers' : List ConfigLayer}
    (h : List.Forall₂ ConfigLayer.Rearranged layers layers') :
    layers'.map ConfigLayer.canonicalize = layers.map ConfigLayer.canonicalize := by
  induction h with
  | nil => rfl
  | cons hl _ ih => rw [List.map_cons, List.map_cons, hl.canonicalize_eq, ih]

namespace RawRequest

/-- The request with its architectures, preferred families, hot shapes, graph shapes and the
    entries of its layers rearranged, and with its layers permuted. -/
structure Rearranged (r r' : RawRequest) : Prop where
  others : r' = { r with
    environment := { r.environment with gpuArches := r'.environment.gpuArches }
    backendPolicy := { r.backendPolicy with
      preferredFamilies := r'.backendPolicy.preferredFamilies }
    shapePolicy := { r.shapePolicy with
      hotShapes := r'.shapePolicy.hotShapes
      cudaGraphShapes := r'.shapePolicy.cudaGraphShapes }
    layeredConfig := r'.layeredConfig }
  gpuArches : Core.Rearranged r.environment.gpuArches r'.environment.gpuArches
  preferredFamilies :
    Core.Rearranged r.backendPolicy.preferredFamilies r'.backendPolicy.preferredFamilies
  hotShapes : Core.Rearranged r.shapePolicy.hotShapes r'.shapePolicy.hotShapes
  cudaGraphShapes : Core.Rearranged r.shapePolicy.cudaGraphShapes r'.shapePolicy.cudaGraphShapes
  layeredConfig : ∃ reordered, reordered.Perm r.layeredConfig ∧
    List.Forall₂ ConfigLayer.Rearranged reordered r'.layeredConfig

/-- Permuting the layers alone. -/
theorem rearranged_of_perm (r : RawRequest) {layers : List ConfigLayer}
    (h : layers.Perm r.layeredConfig) : r.Rearranged { r with layeredConfig := layers } where
  others := rfl
  gpuArches := .refl _
  preferredFamilies := .refl _
  hotShapes := .refl _
  cudaGraphShapes := .refl _
  layeredConfig := ⟨layers, h, List.forall₂_same.mpr fun _ _ => ⟨rfl, rfl, .refl _⟩⟩

/-- The normal form: what is sorted and deduplicated is determined by its members, the layers are
    not. -/
theorem canonicalize_eq_of_rearranged {r r' : RawRequest} (h : r.Rearranged r')
    (hlayers : canonicalLayers r'.layeredConfig = canonicalLayers r.layeredConfig) :
    r'.canonicalize = r.canonicalize := by
  have harches := dedup_sort_eq_iff.mpr h.gpuArches.mem_iff
  have hfamilies := dedup_sort_eq_iff.mpr h.preferredFamilies.mem_iff
  have hhot := dedup_sort_eq_iff.mpr h.hotShapes.mem_iff
  have hgraph := dedup_sort_eq_iff.mpr h.cudaGraphShapes.mem_iff
  simp only [canonicalLayers, layerOrder] at hlayers
  rw [canonicalize, canonicalize, RequestedEnvironment.canonicalize,
    RequestedEnvironment.canonicalize, BackendPolicy.canonicalize, BackendPolicy.canonicalize,
    ShapePolicy.canonicalize, ShapePolicy.canonicalize, harches, hfamilies, hhot, hgraph, hlayers,
    h.others]

/-- The normal form is its own normal form. -/
@[simp] theorem canonicalize_canonicalize (r : RawRequest) :
    r.canonicalize.canonicalize = r.canonicalize := by
  have hlayers : canonicalLayers (canonicalLayers r.layeredConfig) =
      canonicalLayers r.layeredConfig := by
    have hmap : (canonicalLayers r.layeredConfig).map ConfigLayer.canonicalize =
        canonicalLayers r.layeredConfig := by simp [canonicalLayers]
    rw [canonicalLayers_eq (canonicalLayers _), hmap, canonicalLayers_eq, sortBy_sortBy]
  simp only [canonicalLayers, layerOrder] at hlayers
  simp only [canonicalize, RequestedEnvironment.canonicalize, BackendPolicy.canonicalize,
    ShapePolicy.canonicalize, dedup_sort_dedup_sort, hlayers]
  cases hkv : r.kvLayoutPolicy.layout <;> simp [KvLayoutPolicy.canonicalize, hkv]

end RawRequest

/-- **Normalization.** Rearranging a request leaves its normal form, identity included, as it is
    exactly when layers with one precedence and name have the same entries; normalizing a normal
    form changes nothing. -/
theorem normalize_rearranged_iff (C : Canon) (r : RawRequest) :
    ((∀ r', r.Rearranged r' → r'.normalize C = r.normalize C) ↔
      ∀ l ∈ r.layeredConfig, ∀ l' ∈ r.layeredConfig, l.precedence = l'.precedence →
        l.name = l'.name → ∀ e, e ∈ l.entries ↔ e ∈ l'.entries) ∧
      (r.normalize C).toRawRequest.normalize C = r.normalize C := by
  constructor
  · have hcondition : (∀ l ∈ r.layeredConfig, ∀ l' ∈ r.layeredConfig,
        l.precedence = l'.precedence → l.name = l'.name → ∀ e, e ∈ l.entries ↔ e ∈ l'.entries) ↔
        ∀ l ∈ r.layeredConfig, ∀ l' ∈ r.layeredConfig, layerOrder l l' = .eq →
          l.canonicalize = l'.canonicalize := by
      simp only [ConfigLayer.canonicalize_eq_iff, layerOrder_eq_iff, and_imp]
      constructor
      · intro h l hl l' hl' hprecedence hname
        exact ⟨⟨hprecedence, hname⟩, h l hl l' hl' hprecedence hname⟩
      · intro h l hl l' hl' hprecedence hname
        exact (h l hl l' hl' hprecedence hname).2
    rw [hcondition, ← canonicalLayers_perm_iff]
    constructor
    · intro h layers hperm
      have heq := h _ (r.rearranged_of_perm hperm)
      exact congrArg (fun n => n.toRawRequest.layeredConfig) heq
    · intro h r' hr
      obtain ⟨reordered, hperm, hentries⟩ := hr.layeredConfig
      have hmap : canonicalLayers r'.layeredConfig = canonicalLayers reordered := by
        rw [canonicalLayers_eq, canonicalLayers_eq, map_canonicalize_of_rearranged hentries]
      rw [RawRequest.normalize, RawRequest.normalize,
        RawRequest.canonicalize_eq_of_rearranged hr (hmap.trans (h reordered hperm))]
  · show RawRequest.normalize C r.canonicalize = r.normalize C
    rw [RawRequest.normalize, RawRequest.canonicalize_canonicalize]
    rfl

/-- A layer that sets one key. -/
def override (value : String) : ConfigLayer :=
  ⟨"project", 10, [⟨"gpu_memory_utilization", value⟩]⟩

/-- A request with two layers of one name and precedence. -/
def overridden (first second : String) : RawRequest :=
  { sampleRequest with layeredConfig := [override first, override second] }

/-- Two layers of one name and precedence, in either order: two normal forms, two identities. -/
theorem normalize_overridden_ne :
    (overridden "0.8" "0.9").Rearranged (overridden "0.9" "0.8") ∧
      ((overridden "0.9" "0.8").normalize .ideal).layeredConfig ≠
        ((overridden "0.8" "0.9").normalize .ideal).layeredConfig ∧
      ((overridden "0.9" "0.8").normalize .ideal).identity ≠
        ((overridden "0.8" "0.9").normalize .ideal).identity := by
  have hne : ((overridden "0.9" "0.8").normalize .ideal).layeredConfig ≠
      ((overridden "0.8" "0.9").normalize .ideal).layeredConfig := by decide
  refine ⟨RawRequest.rearranged_of_perm (overridden "0.8" "0.9") (List.Perm.swap ..), hne, ?_⟩
  intro hidentity
  have hbody := Canon.ideal_collisionFree.eq_of_canonicalHash hidentity
  exact hne (congrArg RawRequest.layeredConfig hbody)

end Sock.Core
