/-
  Which JSON values have one canonical text (core/src/canonical.rs).

  * `Value.DistinctKeys`: the keys of every object are distinct, as those of a `serde_json::Map`.
  * `Value.Same`: equality up to the order of the keys, at every depth; items keep their order.
  * `sortJson_eq_iff`: key sorting picks one value of each class of the same values;
    `sortJson_sortJson`: it keeps the value that it picks.
  * `canonicalJson_eq_iff`: so does the canonical text, for a printer that tells key-sorted values
    apart.
-/
import Mathlib.Data.List.Perm.Basic
import Sock.Core.Pretty

namespace Sock.Core

open Lib

/-! ## Values and their order of keys -/

mutual

/-- The keys of every object in the value are distinct. -/
def Value.DistinctKeys : Value → Prop
  | .array items => DistinctKeysItems items
  | .object entries => (entries.map Prod.fst).Nodup ∧ DistinctKeysEntries entries
  | _ => True

def DistinctKeysItems : List Value → Prop
  | [] => True
  | v :: vs => v.DistinctKeys ∧ DistinctKeysItems vs

def DistinctKeysEntries : List (String × Value) → Prop
  | [] => True
  | (_, v) :: es => v.DistinctKeys ∧ DistinctKeysEntries es

end

mutual

/-- The values are equal up to the order of the keys of their objects, at every depth. -/
def Value.Same : Value → Value → Prop
  | .null, .null => True
  | .bool b, .bool b' => b = b'
  | .number n, .number n' => n = n'
  | .string s, .string s' => s = s'
  | .array items, .array items' => SameItems items items'
  | .object entries, .object entries' =>
      ∃ reordered, reordered.Perm entries' ∧ SameEntries entries reordered
  | _, _ => False

/-- Item by item. -/
def SameItems : List Value → List Value → Prop
  | [], [] => True
  | v :: vs, w :: ws => v.Same w ∧ SameItems vs ws
  | _, _ => False

/-- Entry by entry. -/
def SameEntries : List (String × Value) → List (String × Value) → Prop
  | [], [] => True
  | (key, v) :: es, (key', w) :: fs => key = key' ∧ v.Same w ∧ SameEntries es fs
  | _, _ => False

end

/-! ## Key sorting -/

/-- The order of the entries of an object. -/
theorem sortJson_object (entries : List (String × Value)) :
    sortJson (.object entries) = .object (sortBy (compareOn Prod.fst) (sortEntries entries)) := rfl

theorem keys_sortEntries (entries : List (String × Value)) :
    (sortEntries entries).map Prod.fst = entries.map Prod.fst := by
  rw [sortEntries_eq_map, List.map_map]
  rfl

/-- Entries with distinct keys are sorted to one list, whatever their order. -/
theorem sortBy_key_eq_iff {es fs : List (String × Value)} (h : (es.map Prod.fst).Nodup) :
    sortBy (compareOn Prod.fst) es = sortBy (compareOn Prod.fst) fs ↔ es.Perm fs := by
  constructor
  · intro heq
    have hperm := (sortBy_perm (compareOn Prod.fst) es).symm
    rw [heq] at hperm
    exact hperm.trans (sortBy_perm _ fs)
  · intro hperm
    apply sortBy_eq_of_perm hperm
    intro e he e' he' hkey
    exact List.inj_on_of_nodup_map h he he' (Std.LawfulEqCmp.eq_of_compare hkey)

/-- The entries that a permutation of the key-sorted ones comes from. -/
theorem exists_perm_of_sortEntries {es fs : List (String × Value)}
    (h : (sortEntries es).Perm (sortEntries fs)) :
    ∃ reordered, reordered.Perm fs ∧ sortEntries es = sortEntries reordered := by
  have hsorted : List.Forall₂ (fun e' e => e' = (e.1, sortJson e.2)) (sortEntries fs) fs := by
    rw [sortEntries_eq_map, List.forall₂_map_left_iff]
    exact List.forall₂_same.mpr fun _ _ => rfl
  obtain ⟨reordered, hmap, hperm⟩ := List.perm_comp_forall₂ h hsorted
  refine ⟨reordered, hperm, ?_⟩
  rw [sortEntries_eq_map reordered]
  exact List.forall₂_eq_eq_eq ▸ List.forall₂_map_right_iff.mpr hmap

mutual

/-- **Representatives.** Key sorting takes two values to one exactly when they are the same up to
    the order of their keys. -/
theorem sortJson_eq_iff : ∀ (v w : Value), v.DistinctKeys →
    (sortJson v = sortJson w ↔ v.Same w)
  | .array items, .array items', h => by
      rw [sortJson, sortJson, Value.array.injEq, Value.Same]
      exact sortItems_eq_iff items items' h
  | .object entries, .object entries', h => by
      have hkeys : ((sortEntries entries).map Prod.fst).Nodup := by
        rw [keys_sortEntries]
        exact h.1
      rw [sortJson_object, sortJson_object, Value.object.injEq, sortBy_key_eq_iff hkeys, Value.Same]
      constructor
      · intro hperm
        obtain ⟨reordered, hre, heq⟩ := exists_perm_of_sortEntries hperm
        exact ⟨reordered, hre, (sortEntries_eq_iff entries reordered h.2).mp heq⟩
      · rintro ⟨reordered, hre, hsame⟩
        rw [(sortEntries_eq_iff entries reordered h.2).mpr hsame, sortEntries_eq_map,
          sortEntries_eq_map]
        exact hre.map _
  | .null, w, _ => by cases w <;> simp [sortJson, Value.Same]
  | .bool b, w, _ => by cases w <;> simp [sortJson, Value.Same]
  | .number n, w, _ => by cases w <;> simp [sortJson, Value.Same]
  | .string s, w, _ => by cases w <;> simp [sortJson, Value.Same]
  | .array items, .null, _ => by simp [sortJson, Value.Same]
  | .array items, .bool b, _ => by simp [sortJson, Value.Same]
  | .array items, .number n, _ => by simp [sortJson, Value.Same]
  | .array items, .string s, _ => by simp [sortJson, Value.Same]
  | .array items, .object entries, _ => by simp [sortJson, Value.Same]
  | .object entries, .null, _ => by simp [sortJson, Value.Same]
  | .object entries, .bool b, _ => by simp [sortJson, Value.Same]
  | .object entries, .number n, _ => by simp [sortJson, Value.Same]
  | .object entries, .string s, _ => by simp [sortJson, Value.Same]
  | .object entries, .array items, _ => by simp [sortJson, Value.Same]

theorem sortItems_eq_iff : ∀ (vs ws : List Value), DistinctKeysItems vs →
    (sortItems vs = sortItems ws ↔ SameItems vs ws)
  | [], ws, _ => by cases ws <;> simp [sortItems, SameItems]
  | v :: vs, [], _ => by simp [sortItems, SameItems]
  | v :: vs, w :: ws, h => by
      rw [sortItems, sortItems, List.cons.injEq, SameItems, sortJson_eq_iff v w h.1,
        sortItems_eq_iff vs ws h.2]

theorem sortEntries_eq_iff : ∀ (es fs : List (String × Value)), DistinctKeysEntries es →
    (sortEntries es = sortEntries fs ↔ SameEntries es fs)
  | [], fs, _ => by cases fs <;> simp [sortEntries, SameEntries]
  | (key, v) :: es, [], _ => by simp [sortEntries, SameEntries]
  | (key, v) :: es, (key', w) :: fs, h => by
      rw [sortEntries, sortEntries, List.cons.injEq, Prod.mk.injEq, SameEntries, and_assoc,
        sortJson_eq_iff v w h.1, sortEntries_eq_iff es fs h.2]

end

mutual

/-- Sorting the keys again changes nothing. -/
theorem sortJson_sortJson : ∀ v : Value, sortJson (sortJson v) = sortJson v
  | .array items => by
      rw [sortJson, sortJson, sortItems_sortItems items]
  | .object entries => by
      have hmap : (sortBy (compareOn Prod.fst) (sortEntries entries)).map
          (fun e => (e.1, sortJson e.2)) =
          sortBy (compareOn Prod.fst) ((sortEntries entries).map fun e => (e.1, sortJson e.2)) := by
        apply map_sortBy
        intro e e'
        rfl
      rw [sortJson_object, sortJson_object, sortEntries_eq_map (sortBy _ _), hmap,
        ← sortEntries_eq_map (sortEntries entries), sortEntries_sortEntries entries, sortBy_sortBy]
  | .null => rfl
  | .bool _ => rfl
  | .number _ => rfl
  | .string _ => rfl

theorem sortItems_sortItems : ∀ vs : List Value, sortItems (sortItems vs) = sortItems vs
  | [] => rfl
  | v :: vs => by rw [sortItems, sortItems, sortJson_sortJson v, sortItems_sortItems vs]

theorem sortEntries_sortEntries : ∀ es : List (String × Value),
    sortEntries (sortEntries es) = sortEntries es
  | [] => rfl
  | (key, v) :: es => by
      rw [sortEntries, sortEntries, sortJson_sortJson v, sortEntries_sortEntries es]

end

/-! ## Canonical texts -/

/-- The printer tells values with sorted keys apart. -/
def Canon.PrintsApart (C : Canon) : Prop :=
  ∀ v w : Value, C.toStringPretty (sortJson v) = C.toStringPretty (sortJson w) →
    sortJson v = sortJson w

/-- **Canonical JSON.** Two values have one canonical text exactly when they are equal up to the
    order of their keys at every depth, and key sorting applied twice is key sorting. -/
theorem canonicalJson_eq_iff {C : Canon} (hC : C.PrintsApart) {v : Value}
    (hv : v.DistinctKeys) (w : Value) :
    (C.canonicalJson v = C.canonicalJson w ↔ v.Same w) ∧
      sortJson (sortJson v) = sortJson v := by
  refine ⟨?_, sortJson_sortJson v⟩
  rw [← sortJson_eq_iff v w hv]
  constructor
  · intro htext
    exact hC v w htext
  · intro heq
    unfold Canon.canonicalJson
    exact congrArg C.toStringPretty heq

/-- An object with its keys in two orders. -/
theorem canonicalJson_eq_reordered :
    (Canon.ideal.canonicalJson (Value.object [("b", .array [.bool true, .null]), ("a", .null)]) =
        Canon.ideal.canonicalJson
          (Value.object [("a", .null), ("b", .array [.bool true, .null])]) ↔
      (Value.object [("b", .array [.bool true, .null]), ("a", .null)]).Same
        (.object [("a", .null), ("b", .array [.bool true, .null])])) ∧
      sortJson (sortJson (.object [("b", .array [.bool true, .null]), ("a", .null)])) =
        sortJson (.object [("b", .array [.bool true, .null]), ("a", .null)]) :=
  canonicalJson_eq_iff (fun _ _ h => Value.toStringPretty_inj h)
    (by simp [Value.DistinctKeys, DistinctKeysEntries, DistinctKeysItems]) _

end Sock.Core
