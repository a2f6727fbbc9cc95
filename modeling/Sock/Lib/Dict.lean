/-
  LIBRARY. Insertion-ordered dictionaries, over arbitrary keys and values.

  A `Dict` is a list of entries with duplicate-free keys. `set` on a new key appends,
  `set` on a present key keeps the key's place, `erase` closes the gap: the iteration
  order is the order of first insertion. The order is observable (`entries`, `keys`,
  `select`), lookups are not affected by it.

  * `get?_set`, `get?_erase`: lookups after an update.
  * `count_set_of_none`, `count_set_of_some`, `count_erase`: how an update moves the number
    of entries with a property.
  * `select_set`, `select_erase_perm`: how an update moves the values under selected keys.
  * `get?_foldl_set`, `mem_keys_ofEntries`: entering entries one by one.
-/
import Mathlib.Data.List.Nodup
import Mathlib.Data.List.Perm.Basic
import Mathlib.Data.List.Count

namespace Lib

/-- A dictionary: entries in order of insertion, no key twice. -/
structure Dict (κ : Type) (ν : Type) where
  entries : List (κ × ν)
  nodup : (entries.map Prod.fst).Nodup

namespace Dict

variable {κ ν : Type}

/-- The dictionary without entries. -/
def empty : Dict κ ν := ⟨[], List.nodup_nil⟩

/-- The keys, in order of insertion. -/
def keys (d : Dict κ ν) : List κ := d.entries.map Prod.fst

/-- The values, in order of insertion of their keys. -/
def values (d : Dict κ ν) : List ν := d.entries.map Prod.snd

/-- The values under the keys that satisfy `f`, in order. -/
def select (f : κ → Bool) (d : Dict κ ν) : List ν :=
  (d.entries.filter fun e => f e.1).map Prod.snd

/-- `len(d)`. -/
def length (d : Dict κ ν) : Nat := d.entries.length

/-- The number of entries with the property `p`. -/
def count (p : κ → ν → Bool) (d : Dict κ ν) : Nat := d.entries.countP fun e => p e.1 e.2

/-- The same keys, in the same order, with changed values. -/
def mapValues {μ : Type} (f : ν → μ) (d : Dict κ ν) : Dict κ μ :=
  ⟨d.entries.map fun e => (e.1, f e.2), by
    rw [List.map_map]
    exact d.nodup⟩

@[simp] theorem values_mapValues {μ : Type} (f : ν → μ) (d : Dict κ ν) :
    (d.mapValues f).values = d.values.map f := by
  simp [values, mapValues]

@[ext] theorem ext {d d' : Dict κ ν} (h : d.entries = d'.entries) : d = d' := by
  cases d; cases d'; cases h; rfl

theorem mem_keys_of_mem {d : Dict κ ν} {k : κ} {v : ν} (h : (k, v) ∈ d.entries) :
    k ∈ d.keys := List.mem_map.mpr ⟨(k, v), h, rfl⟩

theorem eq_of_mem_entries {d : Dict κ ν} {k : κ} {v w : ν} (hv : (k, v) ∈ d.entries)
    (hw : (k, w) ∈ d.entries) : v = w :=
  (Prod.mk.inj (List.inj_on_of_nodup_map d.nodup hv hw rfl)).2

variable [DecidableEq κ]

instance [DecidableEq ν] : DecidableEq (Dict κ ν) := fun d d' =>
  decidable_of_iff (d.entries = d'.entries) ⟨ext, fun h => h ▸ rfl⟩

/-- `d.get(k)`. -/
def get? (d : Dict κ ν) (k : κ) : Option ν :=
  (d.entries.find? fun e => decide (e.1 = k)).map Prod.snd

/-- The entry list of `set`: replace in place, or append. -/
def setList (entries : List (κ × ν)) (k : κ) (v : ν) : List (κ × ν) :=
  if k ∈ entries.map Prod.fst then entries.map fun e => if e.1 = k then (k, v) else e
  else entries ++ [(k, v)]

theorem map_fst_replace (entries : List (κ × ν)) (k : κ) (v : ν) :
    (entries.map fun e => if e.1 = k then (k, v) else e).map Prod.fst =
      entries.map Prod.fst := by
  rw [List.map_map]
  apply List.map_congr_left
  intro e _
  by_cases h : e.1 = k <;> simp [h]

theorem nodup_setList (entries : List (κ × ν)) (k : κ) (v : ν)
    (h : (entries.map Prod.fst).Nodup) : ((setList entries k v).map Prod.fst).Nodup := by
  unfold setList
  split
  · rw [map_fst_replace]
    exact h
  · next hk =>
      rw [List.map_append, List.map_singleton, ← List.concat_eq_append]
      exact h.concat hk

/-- `d[k] = v`. -/
def set (d : Dict κ ν) (k : κ) (v : ν) : Dict κ ν :=
  ⟨setList d.entries k v, nodup_setList d.entries k v d.nodup⟩

/-- `d.pop(k, None)`, without the popped value. -/
def erase (d : Dict κ ν) (k : κ) : Dict κ ν :=
  ⟨d.entries.filter fun e => decide (e.1 ≠ k),
    d.nodup.sublist (List.filter_sublist.map Prod.fst)⟩

/-! ## Lookups -/

@[simp] theorem get?_empty (k : κ) : (empty : Dict κ ν).get? k = none := rfl

theorem get?_eq_some {d : Dict κ ν} {k : κ} {v : ν} :
    d.get? k = some v ↔ (k, v) ∈ d.entries := by
  unfold get?
  constructor
  · intro h
    obtain ⟨e, he, rfl⟩ := Option.map_eq_some_iff.mp h
    have hk : e.1 = k := by simpa using List.find?_some he
    rw [← hk]
    exact List.mem_of_find?_eq_some he
  · intro h
    cases hf : d.entries.find? fun e => decide (e.1 = k) with
    | none =>
        have := List.find?_eq_none.mp hf (k, v) h
        simp at this
    | some e =>
        have hk : e.1 = k := by simpa using List.find?_some hf
        have he : (k, e.2) ∈ d.entries := by rw [← hk]; exact List.mem_of_find?_eq_some hf
        rw [Option.map_some, eq_of_mem_entries he h]

theorem get?_eq_none {d : Dict κ ν} {k : κ} : d.get? k = none ↔ k ∉ d.keys := by
  constructor
  · intro h hk
    obtain ⟨⟨k', v⟩, he, rfl⟩ := List.mem_map.mp hk
    rw [get?_eq_some.mpr he] at h
    cases h
  · intro h
    cases hg : d.get? k with
    | none => rfl
    | some v => exact absurd (mem_keys_of_mem (get?_eq_some.mp hg)) h

@[simp] theorem get?_mapValues {μ : Type} (f : ν → μ) (d : Dict κ ν) (k : κ) :
    (d.mapValues f).get? k = (d.get? k).map f := by
  simp [get?, mapValues, List.find?_map, Function.comp_def]

theorem mem_keys {d : Dict κ ν} {k : κ} : k ∈ d.keys ↔ ∃ v, d.get? k = some v := by
  constructor
  · intro h
    obtain ⟨⟨k', v⟩, he, rfl⟩ := List.mem_map.mp h
    exact ⟨v, get?_eq_some.mpr he⟩
  · rintro ⟨v, h⟩
    exact mem_keys_of_mem (get?_eq_some.mp h)

theorem mem_values {d : Dict κ ν} {v : ν} : v ∈ d.values ↔ ∃ k, d.get? k = some v := by
  constructor
  · intro h
    obtain ⟨⟨k, v'⟩, he, rfl⟩ := List.mem_map.mp h
    exact ⟨k, get?_eq_some.mpr he⟩
  · rintro ⟨k, h⟩
    exact List.mem_map.mpr ⟨(k, v), get?_eq_some.mp h, rfl⟩

theorem mem_entries_set {d : Dict κ ν} {k k' : κ} {v v' : ν} :
    (k', v') ∈ (d.set k v).entries ↔
      (k' = k ∧ v' = v) ∨ (k' ≠ k ∧ (k', v') ∈ d.entries) := by
  show (k', v') ∈ setList d.entries k v ↔ _
  unfold setList
  split
  · next hk =>
      simp only [List.mem_map, Prod.exists]
      constructor
      · rintro ⟨a, b, hm, he⟩
        by_cases ha : a = k
        · rw [if_pos ha] at he
          exact Or.inl ⟨(Prod.mk.inj he).1.symm, (Prod.mk.inj he).2.symm⟩
        · rw [if_neg ha] at he
          obtain ⟨rfl, rfl⟩ := Prod.mk.inj he
          exact Or.inr ⟨ha, hm⟩
      · rintro (⟨rfl, rfl⟩ | ⟨hne, hm⟩)
        · obtain ⟨⟨a, b⟩, hm, rfl⟩ := List.mem_map.mp hk
          exact ⟨a, b, hm, if_pos rfl⟩
        · exact ⟨k', v', hm, if_neg hne⟩
  · next hk =>
      rw [List.mem_append, List.mem_singleton]
      constructor
      · rintro (hm | he)
        · refine Or.inr ⟨?_, hm⟩
          rintro rfl
          exact hk (List.mem_map.mpr ⟨_, hm, rfl⟩)
        · exact Or.inl (Prod.mk.inj he)
      · rintro (⟨rfl, rfl⟩ | ⟨_, hm⟩)
        · exact Or.inr rfl
        · exact Or.inl hm

@[simp] theorem get?_set (d : Dict κ ν) (k k' : κ) (v : ν) :
    (d.set k v).get? k' = if k' = k then some v else d.get? k' := by
  apply Option.ext
  intro w
  rw [get?_eq_some, mem_entries_set]
  by_cases h : k' = k
  · simp [h, eq_comm]
  · simp [h, get?_eq_some]

theorem get?_set_self (d : Dict κ ν) (k : κ) (v : ν) : (d.set k v).get? k = some v := by
  rw [get?_set, if_pos rfl]

@[simp] theorem get?_erase (d : Dict κ ν) (k k' : κ) :
    (d.erase k).get? k' = if k' = k then none else d.get? k' := by
  apply Option.ext
  intro w
  rw [get?_eq_some]
  by_cases h : k' = k
  · simp [erase, h]
  · simp [erase, h, get?_eq_some]

theorem get?_foldl_erase (ks : List κ) (d : Dict κ ν) (k : κ) :
    (ks.foldl erase d).get? k = if k ∈ ks then none else d.get? k := by
  induction ks generalizing d with
  | nil => rfl
  | cons k' ks ih =>
      rw [List.foldl_cons, ih, get?_erase]
      by_cases h : k = k' <;> by_cases hm : k ∈ ks <;> simp [h, hm]

theorem erase_eq_self {d : Dict κ ν} {k : κ} (h : d.get? k = none) : d.erase k = d := by
  apply ext
  refine List.filter_eq_self.mpr ?_
  intro e he
  rw [decide_eq_true_eq]
  rintro rfl
  exact get?_eq_none.mp h (mem_keys_of_mem (v := e.2) he)

theorem set_eq_append {d : Dict κ ν} {k : κ} (h : d.get? k = none) (v : ν) :
    (d.set k v).entries = d.entries ++ [(k, v)] :=
  if_neg (get?_eq_none.mp h)

theorem get?_foldl_set_of_notMem {μ : Type} (f : ν → μ) (es : List (κ × ν)) (acc : Dict κ μ)
    {k : κ} (h : k ∉ es.map Prod.fst) :
    (es.foldl (fun acc e => acc.set e.1 (f e.2)) acc).get? k = acc.get? k := by
  induction es generalizing acc with
  | nil => rfl
  | cons e es ih =>
      rw [List.map_cons, List.mem_cons, not_or] at h
      rw [List.foldl_cons, ih _ h.2, get?_set, if_neg h.1]

theorem get?_foldl_set_of_mem {μ : Type} (f : ν → μ) (es : List (κ × ν)) (acc : Dict κ μ)
    (hn : (es.map Prod.fst).Nodup) {k : κ} {v : ν} (h : (k, v) ∈ es) :
    (es.foldl (fun acc e => acc.set e.1 (f e.2)) acc).get? k = some (f v) := by
  induction es generalizing acc with
  | nil => cases h
  | cons e es ih =>
      rw [List.map_cons, List.nodup_cons] at hn
      rw [List.foldl_cons]
      rcases List.mem_cons.mp h with rfl | h
      · rw [get?_foldl_set_of_notMem f es _ hn.1, get?_set, if_pos rfl]
      · exact ih _ hn.2 h

/-- Entering a dictionary's entries, one by one, into an empty one. -/
theorem get?_foldl_set {μ : Type} (f : ν → μ) (d : Dict κ ν) (k : κ) :
    (d.entries.foldl (fun acc e => acc.set e.1 (f e.2)) empty).get? k = (d.get? k).map f := by
  cases h : d.get? k with
  | none => exact get?_foldl_set_of_notMem f d.entries _ (get?_eq_none.mp h)
  | some v => exact get?_foldl_set_of_mem f d.entries _ d.nodup (get?_eq_some.mp h)

/-- The dictionary of a list of entries: a later entry replaces an earlier one. -/
def ofEntries (es : List (κ × ν)) : Dict κ ν := es.foldl (fun d e => d.set e.1 e.2) empty

theorem mem_keys_foldl_set (es : List (κ × ν)) (acc : Dict κ ν) {k : κ} :
    k ∈ (es.foldl (fun d e => d.set e.1 e.2) acc).keys ↔ k ∈ acc.keys ∨ k ∈ es.map Prod.fst := by
  induction es generalizing acc with
  | nil => simp
  | cons e es ih =>
      rw [List.foldl_cons, ih, List.map_cons, List.mem_cons, ← or_assoc]
      refine or_congr_left ?_
      rw [mem_keys, mem_keys, get?_set]
      by_cases h : k = e.1 <;> simp [h]

theorem mem_keys_ofEntries {es : List (κ × ν)} {k : κ} :
    k ∈ (ofEntries es).keys ↔ k ∈ es.map Prod.fst := by
  rw [ofEntries, mem_keys_foldl_set]
  simp [keys, empty]

theorem mem_of_get?_foldl_set (es : List (κ × ν)) (acc : Dict κ ν) {k : κ} {v : ν}
    (h : (es.foldl (fun d e => d.set e.1 e.2) acc).get? k = some v) :
    acc.get? k = some v ∨ (k, v) ∈ es := by
  induction es generalizing acc with
  | nil => exact .inl h
  | cons e es ih =>
      rcases ih _ h with h | h
      · rw [get?_set] at h
        split at h
        · next hk =>
            cases h
            exact .inr (hk ▸ List.mem_cons_self)
        · exact .inl h
      · exact .inr (List.mem_cons_of_mem _ h)

theorem mem_of_get?_ofEntries {es : List (κ × ν)} {k : κ} {v : ν}
    (h : (ofEntries es).get? k = some v) : (k, v) ∈ es := by
  rcases mem_of_get?_foldl_set es empty h with h | h
  · cases h
  · exact h

theorem get?_ofEntries {es : List (κ × ν)} (hn : (es.map Prod.fst).Nodup) {k : κ} {v : ν}
    (h : (k, v) ∈ es) : (ofEntries es).get? k = some v :=
  get?_foldl_set_of_mem id es empty hn h

theorem entries_foldl_set (es : List (κ × ν)) (acc : Dict κ ν)
    (hn : ((acc.entries ++ es).map Prod.fst).Nodup) :
    (es.foldl (fun d e => d.set e.1 e.2) acc).entries = acc.entries ++ es := by
  induction es generalizing acc with
  | nil => rw [List.foldl_nil, List.append_nil]
  | cons e es ih =>
      have hnew : acc.get? e.1 = none := by
        rw [List.map_append, List.map_cons, List.nodup_middle, List.nodup_cons] at hn
        exact get?_eq_none.mpr fun h => hn.1 (List.mem_append_left _ h)
      have hset := set_eq_append hnew e.2
      have happend : acc.entries ++ e :: es = (acc.set e.1 e.2).entries ++ es := by simp [hset]
      rw [happend] at hn ⊢
      exact ih _ hn

/-- Entries under distinct keys are the entries of their dictionary. -/
theorem entries_ofEntries {es : List (κ × ν)} (hn : (es.map Prod.fst).Nodup) :
    (ofEntries es).entries = es :=
  entries_foldl_set es empty hn

theorem mapValues_set {μ : Type} (f : ν → μ) (d : Dict κ ν) (k : κ) (v : ν) :
    (d.set k v).mapValues f = (d.mapValues f).set k (f v) := by
  have hkeys : (d.entries.map fun e => (e.1, f e.2)).map Prod.fst = d.entries.map Prod.fst := by
    simp
  apply ext
  show (setList d.entries k v).map (fun e => (e.1, f e.2)) =
    setList (d.entries.map fun e => (e.1, f e.2)) k (f v)
  unfold setList
  rw [hkeys]
  by_cases hk : k ∈ d.entries.map Prod.fst
  · rw [if_pos hk, if_pos hk, List.map_map, List.map_map]
    refine List.map_congr_left fun e _ => ?_
    by_cases he : e.1 = k <;> simp [he]
  · rw [if_neg hk, if_neg hk, List.map_append]
    rfl

theorem mapValues_foldl_set {μ : Type} (f : ν → μ) (es : List (κ × ν)) (acc : Dict κ ν) :
    (es.foldl (fun d e => d.set e.1 e.2) acc).mapValues f =
      (es.map fun e => (e.1, f e.2)).foldl (fun d e => d.set e.1 e.2) (acc.mapValues f) := by
  induction es generalizing acc with
  | nil => rfl
  | cons e es ih => rw [List.map_cons, List.foldl_cons, List.foldl_cons, ih, mapValues_set]

/-- Splitting the entries at a present key. -/
theorem entries_split {d : Dict κ ν} {k : κ} {v : ν} (h : d.get? k = some v) :
    ∃ xs ys, d.entries = xs ++ (k, v) :: ys ∧
      (∀ w, (d.set k w).entries = xs ++ (k, w) :: ys) ∧ (d.erase k).entries = xs ++ ys := by
  have hm := get?_eq_some.mp h
  obtain ⟨xs, ys, hs⟩ := List.append_of_mem hm
  have hn := d.nodup
  rw [hs, List.map_append, List.map_cons, List.nodup_middle, List.nodup_cons] at hn
  have hout : ∀ e ∈ xs ++ ys, e.1 ≠ k := by
    intro e he hk
    apply hn.1
    rw [← List.map_append]
    exact List.mem_map.mpr ⟨e, he, hk⟩
  have hx : ∀ e ∈ xs, e.1 ≠ k := fun e he => hout e (List.mem_append_left _ he)
  have hy : ∀ e ∈ ys, e.1 ≠ k := fun e he => hout e (List.mem_append_right _ he)
  refine ⟨xs, ys, hs, ?_, ?_⟩
  · intro w
    have hk : k ∈ d.entries.map Prod.fst := List.mem_map.mpr ⟨_, hm, rfl⟩
    have hid : ∀ zs : List (κ × ν), (∀ e ∈ zs, e.1 ≠ k) →
        zs.map (fun e => if e.1 = k then (k, w) else e) = zs := by
      intro zs hz
      have : zs.map (fun e => if e.1 = k then (k, w) else e) = zs.map id :=
        List.map_congr_left fun e he => if_neg (hz e he)
      rw [this, List.map_id]
    show setList d.entries k w = _
    unfold setList
    rw [if_pos hk, hs, List.map_append, List.map_cons, hid xs hx, hid ys hy, if_pos rfl]
  · show d.entries.filter _ = _
    rw [hs, List.filter_append, List.filter_cons_of_neg (by simp),
      List.filter_eq_self.mpr (by simpa using hx), List.filter_eq_self.mpr (by simpa using hy)]

/-! ## Counting and selecting -/

theorem count_pos {d : Dict κ ν} {p : κ → ν → Bool} :
    0 < d.count p ↔ ∃ k v, d.get? k = some v ∧ p k v = true := by
  unfold count
  rw [List.countP_pos_iff]
  constructor
  · rintro ⟨⟨k, v⟩, hm, hp⟩
    exact ⟨k, v, get?_eq_some.mpr hm, hp⟩
  · rintro ⟨k, v, h, hp⟩
    exact ⟨(k, v), get?_eq_some.mp h, hp⟩

theorem count_set_of_none {d : Dict κ ν} {k : κ} (h : d.get? k = none) (v : ν)
    (p : κ → ν → Bool) : (d.set k v).count p = d.count p + if p k v then 1 else 0 := by
  unfold count
  rw [set_eq_append h, List.countP_append]
  simp [List.countP_cons]

theorem count_set_of_some {d : Dict κ ν} {k : κ} {w : ν} (h : d.get? k = some w) (v : ν)
    (p : κ → ν → Bool) :
    (d.set k v).count p + (if p k w then 1 else 0) = d.count p + if p k v then 1 else 0 := by
  obtain ⟨xs, ys, hs, hset, _⟩ := entries_split h
  unfold count
  rw [hset v, hs]
  simp only [List.countP_append, List.countP_cons]
  omega

theorem count_erase {d : Dict κ ν} {k : κ} {w : ν} (h : d.get? k = some w)
    (p : κ → ν → Bool) : (d.erase k).count p + (if p k w then 1 else 0) = d.count p := by
  obtain ⟨xs, ys, hs, _, her⟩ := entries_split h
  unfold count
  rw [her, hs]
  simp only [List.countP_append, List.countP_cons]
  omega

theorem mem_select {d : Dict κ ν} {f : κ → Bool} {v : ν} :
    v ∈ d.select f ↔ ∃ k, f k = true ∧ d.get? k = some v := by
  unfold select
  simp only [List.mem_map, List.mem_filter, Prod.exists, exists_eq_right]
  constructor
  · rintro ⟨k, hm, hf⟩
    exact ⟨k, hf, get?_eq_some.mpr hm⟩
  · rintro ⟨k, hf, h⟩
    exact ⟨k, get?_eq_some.mp h, hf⟩

theorem select_set {d : Dict κ ν} {k : κ} (h : d.get? k = none) (v : ν) (f : κ → Bool) :
    (d.set k v).select f = d.select f ++ if f k then [v] else [] := by
  unfold select
  rw [set_eq_append h, List.filter_append, List.map_append]
  cases hf : f k <;> simp [hf]

theorem select_erase_perm {d : Dict κ ν} {k : κ} {v : ν} (h : d.get? k = some v)
    (f : κ → Bool) : (d.select f).Perm ((if f k then [v] else []) ++ (d.erase k).select f) := by
  obtain ⟨xs, ys, hs, _, her⟩ := entries_split h
  unfold select
  rw [her, hs]
  cases hf : f k
  · simp [hf]
  · simp only [List.filter_append, List.filter_cons, hf, if_true, List.map_append, List.map_cons,
      List.cons_append, List.nil_append]
    exact List.perm_middle

/-- Distinct selected keys with one value make the selection repeat it. -/
theorem eq_of_select_nodup {d : Dict κ ν} {f : κ → Bool} (hn : (d.select f).Nodup)
    {k k' : κ} {v : ν} (hk : f k = true) (hk' : f k' = true) (h : d.get? k = some v)
    (h' : d.get? k' = some v) : k = k' := by
  by_contra hne
  have hp := (select_erase_perm h f).nodup_iff.mp hn
  rw [if_pos hk, List.singleton_append, List.nodup_cons] at hp
  apply hp.1
  rw [mem_select]
  exact ⟨k', hk', by rw [get?_erase, if_neg (Ne.symm hne), h']⟩

omit [DecidableEq κ] in
theorem length_select (d : Dict κ ν) (f : κ → Bool) :
    (d.select f).length = (d.keys.filter f).length := by
  rw [select, keys, List.length_map, List.filter_map, List.length_map]
  rfl

/-- Distinct values are injective. -/
theorem eq_of_values_nodup {d : Dict κ ν} (hn : d.values.Nodup) {k k' : κ} {v : ν}
    (h : d.get? k = some v) (h' : d.get? k' = some v) : k = k' := by
  have he := List.inj_on_of_nodup_map hn (get?_eq_some.mp h) (get?_eq_some.mp h') rfl
  exact congrArg Prod.fst he

theorem values_nodup {d : Dict κ ν}
    (h : ∀ k k' v, d.get? k = some v → d.get? k' = some v → k = k') : d.values.Nodup := by
  refine List.Nodup.map_on ?_ (List.Nodup.of_map _ d.nodup)
  intro e he e' he' hv
  have hk := h e.1 e'.1 e.2 (get?_eq_some.mpr he) (get?_eq_some.mpr (by rw [hv]; exact he'))
  exact Prod.ext hk hv

omit [DecidableEq κ] in
/-- Dictionaries with the same keys have them in some order. -/
theorem keys_perm {μ : Type} {d : Dict κ ν} {d' : Dict κ μ} (h : ∀ k, k ∈ d.keys ↔ k ∈ d'.keys) :
    d.keys.Perm d'.keys := (List.perm_ext_iff_of_nodup d.nodup d'.nodup).mpr h

omit [DecidableEq κ] in
@[simp] theorem length_keys (d : Dict κ ν) : d.keys.length = d.length := List.length_map _

theorem length_set_of_none {d : Dict κ ν} {k : κ} (h : d.get? k = none) (v : ν) :
    (d.set k v).length = d.length + 1 := by
  rw [length, length, set_eq_append h, List.length_append, List.length_singleton]

theorem length_set_of_some {d : Dict κ ν} {k : κ} {w : ν} (h : d.get? k = some w) (v : ν) :
    (d.set k v).length = d.length := by
  obtain ⟨xs, ys, he, hs, -⟩ := entries_split h
  rw [length, length, hs v, he, List.length_append, List.length_append, List.length_cons,
    List.length_cons]

theorem length_erase {d : Dict κ ν} {k : κ} {w : ν} (h : d.get? k = some w) :
    (d.erase k).length + 1 = d.length := by
  obtain ⟨xs, ys, he, -, hr⟩ := entries_split h
  rw [length, length, hr, he, List.length_append, List.length_append, List.length_cons]
  omega

end Dict

end Lib
