/-
  Canonical JSON and canonical hashes (core/src/canonical.rs).

  * `Value`: JSON values, an object as the list of its entries; `sortJson` sorts the keys at
    every depth.
  * `Serialize`: the JSON value of a datum, field by field as serde derives it;
    `LawfulSerialize` for data that the value determines (`of_fields`, `of_names`).
  * `Canon`: the two functions of other libraries, the pretty printer of serde_json and SHA-256
    of sha2; `canonicalJson`, `canonicalHash`.
  * `CollisionFree`: equal hashes have equal key-sorted values. `CollisionFree.items_eq`: what
    equal hashes say about the items.

  Not modelled: failures of serialization; no datum that is hashed here has a map with keys
  other than texts.
-/
import Sock.Lib.Sorting
import Sock.Lib.Text

namespace Sock.Core

open Lib

/-! ## Values -/

/-- `serde_json::Number`. -/
inductive Number
  | posInt (n : Nat)
  | negInt (n : Nat)
  | float (bits : UInt64)
  deriving DecidableEq

/-- `serde_json::Value`. -/
inductive Value
  | null
  | bool (b : Bool)
  | number (n : Number)
  | string (s : String)
  | array (items : List Value)
  | object (entries : List (String × Value))

/-- Entries in the order of their keys. -/
def keyLE (e e' : String × Value) : Prop := (compare e.1 e'.1).isLE

instance : DecidableRel keyLE := fun e e' => inferInstanceAs (Decidable ((compare e.1 e'.1).isLE))

mutual

def sortJson : Value → Value
  | .array items => .array (sortItems items)
  | .object entries => .object ((sortEntries entries).insertionSort keyLE)
  | other => other

def sortItems : List Value → List Value
  | [] => []
  | v :: vs => sortJson v :: sortItems vs

def sortEntries : List (String × Value) → List (String × Value)
  | [] => []
  | (key, v) :: es => (key, sortJson v) :: sortEntries es

end

theorem sortItems_eq_map (items : List Value) : sortItems items = items.map sortJson := by
  induction items with
  | nil => rfl
  | cons v vs ih => rw [sortItems, ih, List.map_cons]

theorem sortEntries_eq_map (entries : List (String × Value)) :
    sortEntries entries = entries.map fun e => (e.1, sortJson e.2) := by
  induction entries with
  | nil => rfl
  | cons e es ih => rw [sortEntries, ih, List.map_cons]

/-- The value under a key. -/
def Value.field? (key : String) : Value → Option Value
  | .object entries => entries.lookup key
  | _ => none

theorem lookup_eq_some_iff_mem {entries : List (String × Value)}
    (h : (entries.map Prod.fst).Nodup) {key : String} {v : Value} :
    entries.lookup key = some v ↔ (key, v) ∈ entries := by
  induction entries with
  | nil => simp
  | cons e es ih =>
      obtain ⟨key', v'⟩ := e
      rw [List.map_cons, List.nodup_cons] at h
      by_cases hkey : key = key'
      · subst hkey
        have hnot : (key, v) ∉ es := fun hmem => h.1 (List.mem_map.mpr ⟨_, hmem, rfl⟩)
        simp [hnot, eq_comm]
      · have hne : (key == key') = false := by simpa using hkey
        simp only [List.lookup_cons, hne, ih h.2, List.mem_cons, Prod.mk.injEq, hkey, false_and,
          false_or]

/-- Sorting the keys keeps the value under each key. -/
theorem field?_sortJson {entries : List (String × Value)} (h : (entries.map Prod.fst).Nodup)
    (key : String) :
    (sortJson (.object entries)).field? key =
      ((Value.object entries).field? key).map sortJson := by
  have hperm := List.perm_insertionSort keyLE (sortEntries entries)
  have hkeys : (sortEntries entries).map Prod.fst = entries.map Prod.fst := by
    rw [sortEntries_eq_map, List.map_map]
    rfl
  have hnodup : (((sortEntries entries).insertionSort keyLE).map Prod.fst).Nodup :=
    (hperm.map Prod.fst).nodup_iff.mpr (hkeys ▸ h)
  apply Option.ext
  intro w
  rw [sortJson, Value.field?, Value.field?, lookup_eq_some_iff_mem hnodup, hperm.mem_iff,
    sortEntries_eq_map]
  simp only [List.mem_map, Prod.mk.injEq, Option.map_eq_some_iff]
  constructor
  · rintro ⟨⟨key', v⟩, hmem, rfl, rfl⟩
    exact ⟨v, (lookup_eq_some_iff_mem h).mpr hmem, rfl⟩
  · rintro ⟨v, hlookup, rfl⟩
    exact ⟨(key, v), (lookup_eq_some_iff_mem h).mp hlookup, rfl, rfl⟩

/-- Equal key-sorted objects have equal key-sorted values under every key. -/
theorem lookup_of_sortJson_eq {entries entries' : List (String × Value)}
    (h : sortJson (.object entries) = sortJson (.object entries'))
    (hnodup : (entries.map Prod.fst).Nodup) (hnodup' : (entries'.map Prod.fst).Nodup)
    (key : String) :
    (entries.lookup key).map sortJson = (entries'.lookup key).map sortJson := by
  have hfield := congrArg (Value.field? key) h
  rw [field?_sortJson hnodup, field?_sortJson hnodup'] at hfield
  exact hfield

theorem map_lookup_keys {entries : List (String × Value)} (h : (entries.map Prod.fst).Nodup) :
    (entries.map Prod.fst).map (fun key => (entries.lookup key).map sortJson) =
      (entries.map fun e => sortJson e.2).map some := by
  rw [List.map_map, List.map_map]
  refine List.map_congr_left fun e he => ?_
  simp [(lookup_eq_some_iff_mem h).mpr he]

/-- Equal key-sorted objects with the same keys have the same key-sorted values, in order. -/
theorem values_of_sortJson_eq {entries entries' : List (String × Value)}
    (h : sortJson (.object entries) = sortJson (.object entries'))
    (hkeys : entries.map Prod.fst = entries'.map Prod.fst)
    (hnodup : (entries.map Prod.fst).Nodup) :
    (entries.map fun e => sortJson e.2) = entries'.map fun e => sortJson e.2 := by
  have hlookup := lookup_of_sortJson_eq h hnodup (hkeys ▸ hnodup)
  refine List.map_injective_iff.mpr (Option.some_injective _) ?_
  rw [← map_lookup_keys hnodup, ← map_lookup_keys (hkeys ▸ hnodup), hkeys]
  exact List.map_congr_left fun key _ => hlookup key

/-! ## Serialization -/

/-- `serde::Serialize`, into a JSON value. -/
class Serialize (α : Type) where
  toValue : α → Value

export Serialize (toValue)

instance : Serialize Value := ⟨id⟩
instance : Serialize String := ⟨.string⟩
instance : Serialize Bool := ⟨.bool⟩
instance : Serialize Nat := ⟨fun n => .number (.posInt n)⟩
instance : Serialize UInt8 := ⟨fun n => .number (.posInt n.toNat)⟩
instance : Serialize UInt16 := ⟨fun n => .number (.posInt n.toNat)⟩

instance {α : Type} [Serialize α] : Serialize (Option α) :=
  ⟨fun
    | none => .null
    | some a => toValue a⟩

instance {α : Type} [Serialize α] : Serialize (List α) := ⟨fun as => .array (as.map toValue)⟩

instance {α β : Type} [Serialize α] [Serialize β] : Serialize (α × β) :=
  ⟨fun p => .array [toValue p.1, toValue p.2]⟩

/-- Data with equal key-sorted values are equal. -/
class LawfulSerialize (α : Type) [Serialize α] : Prop where
  eq_of_sortJson_eq : ∀ {a b : α}, sortJson (toValue a) = sortJson (toValue b) → a = b

export LawfulSerialize (eq_of_sortJson_eq)

@[simp] theorem sortJson_toValue_inj {α : Type} [Serialize α] [LawfulSerialize α] {a b : α} :
    sortJson (toValue a) = sortJson (toValue b) ↔ a = b :=
  ⟨eq_of_sortJson_eq, fun h => h ▸ rfl⟩

theorem toValue_inj {α : Type} [Serialize α] [LawfulSerialize α] {a b : α} :
    toValue a = toValue b ↔ a = b :=
  ⟨fun h => eq_of_sortJson_eq (congrArg sortJson h), fun h => h ▸ rfl⟩

/-- A record is lawful when its fields determine it. -/
theorem LawfulSerialize.of_fields {α : Type} [Serialize α] {fields : α → List (String × Value)}
    (hvalue : ∀ a, toValue a = .object (fields a))
    (hkeys : ∀ a b, (fields a).map Prod.fst = (fields b).map Prod.fst := by exact fun _ _ => rfl)
    (hnodup : ∀ a, ((fields a).map Prod.fst).Nodup := by exact fun _ => by simp)
    (hinj : ∀ a b, ((fields a).map fun e => sortJson e.2) = (fields b).map (fun e => sortJson e.2) →
      a = b := by rintro ⟨⟩ ⟨⟩; simp) : LawfulSerialize α := ⟨fun {a b} h => by
  rw [hvalue, hvalue] at h
  exact hinj a b (values_of_sortJson_eq h (hkeys a b) (hnodup a))⟩

/-- The text of a value that is one. -/
def Value.str : Value → String
  | .string s => s
  | _ => ""

/-- An enumeration is lawful when its names determine it. -/
theorem LawfulSerialize.of_names {α : Type} [Serialize α]
    (hvalue : ∀ a : α, toValue a = .string (toValue a).str := by rintro ⟨⟩ <;> rfl)
    (hinj : ∀ a b : α, (toValue a).str = (toValue b).str → a = b := by
      rintro ⟨⟩ ⟨⟩ <;> decide) : LawfulSerialize α :=
  ⟨fun {a b} h => by
    rw [hvalue a, hvalue b] at h
    exact hinj a b (Value.string.inj h)⟩

instance : LawfulSerialize String := ⟨Value.string.inj⟩

instance : LawfulSerialize Bool := ⟨Value.bool.inj⟩

instance : LawfulSerialize Nat := ⟨fun h => Number.posInt.inj (Value.number.inj h)⟩

instance : LawfulSerialize UInt8 := ⟨fun h =>
  UInt8.toNat_inj.mp (Number.posInt.inj (Value.number.inj h))⟩

instance : LawfulSerialize UInt16 := ⟨fun h =>
  UInt16.toNat_inj.mp (Number.posInt.inj (Value.number.inj h))⟩

/-- Data whose value is not `null`, so that an optional one can be told from none. -/
class NonNull (α : Type) [Serialize α] : Prop where
  sortJson_ne_null : ∀ a : α, sortJson (toValue a) ≠ .null

instance : NonNull String := ⟨fun _ h => by cases h⟩
instance : NonNull Nat := ⟨fun _ h => by cases h⟩

instance {α : Type} [Serialize α] [LawfulSerialize α] [NonNull α] :
    LawfulSerialize (Option α) := ⟨fun {a b} h => by
  cases a with
  | none =>
      cases b with
      | none => rfl
      | some b => exact absurd h.symm (NonNull.sortJson_ne_null b)
  | some a =>
      cases b with
      | none => exact absurd h (NonNull.sortJson_ne_null a)
      | some b => exact congrArg some (eq_of_sortJson_eq h)⟩

instance {α β : Type} [Serialize α] [LawfulSerialize α] [Serialize β] [LawfulSerialize β] :
    LawfulSerialize (α × β) := ⟨fun {p q} h => by
  have hitems := Value.array.inj h
  rw [sortItems_eq_map, sortItems_eq_map] at hitems
  simp only [List.map_cons, List.map_nil, List.cons.injEq, sortJson_toValue_inj, and_true] at hitems
  exact Prod.ext hitems.1 hitems.2⟩

instance {α : Type} [Serialize α] [LawfulSerialize α] : LawfulSerialize (List α) := ⟨by
  intro as bs h
  have hitems : (as.map toValue).map sortJson = (bs.map toValue).map sortJson := by
    rw [← sortItems_eq_map, ← sortItems_eq_map]
    exact Value.array.inj h
  rw [List.map_map, List.map_map] at hitems
  exact List.map_injective_iff.mpr (fun _ _ => eq_of_sortJson_eq) hitems⟩

/-! ## Canonical texts and hashes -/

/-- `CanonicalHash`: a digest, as a hexadecimal text. -/
structure CanonicalHash where
  asStr : String
  deriving DecidableEq, Ord

instance : Serialize CanonicalHash := ⟨fun h => .string h.asStr⟩

instance : LawfulSerialize CanonicalHash :=
  ⟨fun h => congrArg CanonicalHash.mk (Value.string.inj h)⟩

instance : NonNull CanonicalHash := ⟨fun _ h => by cases h⟩

/-- The functions of other libraries: `serde_json::to_string_pretty`, and the hexadecimal
    SHA-256 digest. -/
structure Canon where
  toStringPretty : Value → String
  sha256 : Bytes → String

namespace Canon

variable {α β : Type} [Serialize α] [Serialize β] (C : Canon)

def canonicalJson (a : α) : String := C.toStringPretty (sortJson (toValue a))

def canonicalHash (a : α) : CanonicalHash := ⟨C.sha256 (.text (C.canonicalJson a))⟩

/-- Equal hashes come from equal key-sorted values. -/
def CollisionFree : Prop :=
  ∀ v w : Value, C.canonicalHash v = C.canonicalHash w → sortJson v = sortJson w

/-- Digests are texts that show: a hexadecimal digest has no white space and is not empty. -/
def NonBlank : Prop := ∀ v : Value, isBlank (C.canonicalHash v).asStr = false

/-- Digests are written as `hex::encode` does. -/
def Hexadecimal : Prop :=
  ∀ bytes : Bytes, ∀ c ∈ (C.sha256 bytes).toList, c ∈ "0123456789abcdef".toList

variable {C}

theorem Hexadecimal.plain (hC : C.Hexadecimal) (a : α) :
    Plain (C.canonicalHash a).asStr.toList := by
  have hdigits : "0123456789abcdef".toList.all (fun c => slugChar c = c ∧ c ≠ '_') = true := by
    decide
  exact fun c hc => of_decide_eq_true (List.all_eq_true.mp hdigits c (hC _ c hc))

theorem CollisionFree.sortJson_eq (hC : C.CollisionFree) {a : α} {b : β}
    (h : C.canonicalHash a = C.canonicalHash b) :
    sortJson (toValue a) = sortJson (toValue b) :=
  hC (toValue a) (toValue b) h

theorem CollisionFree.eq_of_canonicalHash (hC : C.CollisionFree) [LawfulSerialize α] {a b : α}
    (h : C.canonicalHash a = C.canonicalHash b) : a = b :=
  eq_of_sortJson_eq (hC.sortJson_eq h)

/-- Equal hashes of arrays: equal key-sorted items. -/
theorem CollisionFree.items_eq (hC : C.CollisionFree) {items items' : List Value}
    (h : C.canonicalHash (Value.array items) = C.canonicalHash (Value.array items')) :
    items.map sortJson = items'.map sortJson := by
  have hsort := hC _ _ h
  rw [sortJson, sortJson, sortItems_eq_map, sortItems_eq_map] at hsort
  exact Value.array.inj hsort

end Canon

end Sock.Core
