/-
  LIBRARY. Reference counts over a dictionary of tagged items.

  Every item `v` carries at most one tag `f v`. An `Index` keeps the items and, beside them,
  a table of how many items carry each tag. `step` puts or drops one item: it releases the
  old item when the table says that the item was the last one with its tag.

  The specification does not read the table. `releases` asks how many items carry the tag
  (`tagCount`), `effects` is the plain dictionary update.

  * `run_exact`: from an exact table, every run of puts and drops leaves an exact table (no
    zero count is stored) and releases what `releases` says.
  * `releases_tag`, `releases_complete`, `releases_unshared`: for a batch that touches each
    key at most once, a released item was there before the batch; a tag that dies is
    released; an item the batch keeps never has a released tag.
-/
import Sock.Lib.Dict

namespace Lib.RefCount

variable {κ ν χ : Type}

/-- Items, and the number of items under each tag. -/
structure Index (κ ν χ : Type) where
  items : Dict κ ν
  counts : Dict χ Nat

/-- One update of the items. -/
inductive Op (κ ν : Type) where
  | put (k : κ) (v : ν)
  | drop (k : κ)

/-- The key an update touches. -/
def Op.key : Op κ ν → κ
  | .put k _ => k
  | .drop k => k

variable [DecidableEq χ] (f : ν → Option χ)

/-- Count one more item with the tag of `v`. -/
def track (counts : Dict χ Nat) (v : ν) : Dict χ Nat :=
  match f v with
  | none => counts
  | some c => counts.set c ((counts.get? c).getD 0 + 1)

/-- Count one item less with the tag of `v`; `true` when it was the last. -/
def untrack (counts : Dict χ Nat) (v : ν) : Bool × Dict χ Nat :=
  match f v with
  | none => (false, counts)
  | some c =>
      if (counts.get? c).getD 0 ≤ 1 then (true, counts.erase c)
      else (false, counts.set c ((counts.get? c).getD 0 - 1))

section Counts

theorem track_getD (counts : Dict χ Nat) (v : ν) (c : χ) :
    ((track f counts v).get? c).getD 0 =
      (counts.get? c).getD 0 + if f v = some c then 1 else 0 := by
  unfold track
  cases hv : f v with
  | none => simp
  | some c' =>
      dsimp only
      by_cases hcc : c = c'
      · subst hcc; simp
      · have hne : ¬ some c' = some c := fun he => hcc (Option.some.inj he).symm
        simp [hcc, hne]

theorem track_ne_zero {counts : Dict χ Nat} (hz : ∀ c, counts.get? c ≠ some 0) (v : ν) (c : χ) :
    (track f counts v).get? c ≠ some 0 := by
  unfold track
  cases f v with
  | none => exact hz c
  | some c' =>
      dsimp only
      by_cases hcc : c = c'
      · simp [hcc]
      · simp [hcc, hz c]

theorem untrack_ne_zero {counts : Dict χ Nat} (hz : ∀ c, counts.get? c ≠ some 0) (o : ν)
    (c : χ) : (untrack f counts o).2.get? c ≠ some 0 := by
  unfold untrack
  cases f o with
  | none => exact hz c
  | some c' =>
      dsimp only
      by_cases hcc : c = c'
      · subst hcc
        split
        · simp
        · simp; omega
      · split <;> simp [hcc, hz c]

/-- How many items carry the tag `c`. -/
def tagCount (items : Dict κ ν) (c : χ) : Nat := items.count fun _ v => decide (f v = some c)

/-- The table says how many items carry each tag, and stores no zero. -/
def Exact (s : Index κ ν χ) : Prop :=
  ∀ c, s.counts.get? c = if tagCount f s.items c = 0 then none else some (tagCount f s.items c)

theorem exact_empty : Exact f (⟨Dict.empty, Dict.empty⟩ : Index κ ν χ) := fun _ => rfl

theorem Exact.getD {s : Index κ ν χ} (h : Exact f s) (c : χ) :
    (s.counts.get? c).getD 0 = tagCount f s.items c := by
  rw [h c]
  split
  · next h0 => simp [h0]
  · rfl

theorem Exact.ne_zero {s : Index κ ν χ} (h : Exact f s) (c : χ) : s.counts.get? c ≠ some 0 := by
  rw [h c]
  split
  · simp
  · next hn => simpa using hn

theorem exact_of_getD {s : Index κ ν χ} (h : ∀ c, (s.counts.get? c).getD 0 = tagCount f s.items c)
    (hz : ∀ c, s.counts.get? c ≠ some 0) : Exact f s := by
  intro c
  have hc := h c
  have hzc := hz c
  cases hg : s.counts.get? c with
  | none => rw [hg] at hc; simp at hc; simp [← hc]
  | some n =>
      rw [hg] at hc hzc
      have hn : n ≠ 0 := fun h0 => hzc (by rw [h0])
      simp only [Option.getD_some] at hc
      rw [← hc, if_neg hn]

theorem untrack_get? {s : Index κ ν χ} (h : Exact f s) (o : ν) (c : χ) :
    ((untrack f s.counts o).2.get? c).getD 0 =
      tagCount f s.items c - if f o = some c then 1 else 0 := by
  unfold untrack
  cases ho : f o with
  | none => simp [h.getD f c]
  | some c' =>
      dsimp only
      have hc := h.getD f c
      have hc' := h.getD f c'
      by_cases hcc : c = c'
      · subst hcc
        split <;> simp <;> omega
      · have hne : ¬ some c' = some c := fun he => hcc (Option.some.inj he).symm
        rw [if_neg hne]
        split <;> simp [hcc, hc]

end Counts

variable [DecidableEq κ]

/-- One update of an index, with the items it releases. A put of an item with the tag of the
    item it replaces leaves the table alone. -/
def step (s : Index κ ν χ) : Op κ ν → Index κ ν χ × List ν
  | .put k v =>
      match s.items.get? k with
      | none => (⟨s.items.set k v, track f s.counts v⟩, [])
      | some o =>
          if f o = f v then (⟨s.items.set k v, s.counts⟩, [])
          else
            (⟨s.items.set k v, track f (untrack f s.counts o).2 v⟩,
              if (untrack f s.counts o).1 then [o] else [])
  | .drop k =>
      match s.items.get? k with
      | none => (s, [])
      | some o =>
          (⟨s.items.erase k, (untrack f s.counts o).2⟩,
            if (untrack f s.counts o).1 then [o] else [])

/-- A run of updates, with everything it releases, in order. -/
def run (s : Index κ ν χ) : List (Op κ ν) → Index κ ν χ × List ν
  | [] => (s, [])
  | op :: ops =>
      ((run (step f s op).1 ops).1, (step f s op).2 ++ (run (step f s op).1 ops).2)

/-! ## The specification: items only -/

/-- `v` carries a tag, and no other item carries it. -/
def isLast (items : Dict κ ν) (v : ν) : Bool :=
  match f v with
  | none => false
  | some c => decide (tagCount f items c = 1)

/-- The items after one update. -/
def effect (items : Dict κ ν) : Op κ ν → Dict κ ν
  | .put k v => items.set k v
  | .drop k => items.erase k

/-- The items after a run of updates. -/
def effects (items : Dict κ ν) (ops : List (Op κ ν)) : Dict κ ν := ops.foldl effect items

/-- The item under the key of an update, when the update takes the number of items with its
    tag from one to zero. -/
def release (items : Dict κ ν) (op : Op κ ν) : List ν :=
  match items.get? op.key with
  | none => []
  | some o =>
      match f o with
      | none => []
      | some c =>
          if tagCount f items c = 1 ∧ tagCount f (effect items op) c = 0 then [o] else []

/-- The items a run of updates takes the tag count of from one to zero, in order. -/
def releases (items : Dict κ ν) : List (Op κ ν) → List ν
  | [] => []
  | op :: ops => release f items op ++ releases (effect items op) ops

/-! ## Tag counts under an update -/

theorem tagCount_set_of_none {items : Dict κ ν} {k : κ} (h : items.get? k = none) (v : ν)
    (c : χ) : tagCount f (items.set k v) c =
      tagCount f items c + if f v = some c then 1 else 0 := by
  unfold tagCount
  rw [Dict.count_set_of_none h]
  simp

theorem tagCount_set_of_some {items : Dict κ ν} {k : κ} {o : ν} (h : items.get? k = some o)
    (v : ν) (c : χ) : tagCount f (items.set k v) c + (if f o = some c then 1 else 0) =
      tagCount f items c + if f v = some c then 1 else 0 := by
  have := Dict.count_set_of_some h v fun _ v => decide (f v = some c)
  simpa [tagCount] using this

theorem tagCount_erase {items : Dict κ ν} {k : κ} {o : ν} (h : items.get? k = some o) (c : χ) :
    tagCount f (items.erase k) c + (if f o = some c then 1 else 0) = tagCount f items c := by
  have := Dict.count_erase h fun _ v => decide (f v = some c)
  simpa [tagCount] using this

theorem tagCount_pos {items : Dict κ ν} {c : χ} :
    0 < tagCount f items c ↔ ∃ k v, items.get? k = some v ∧ f v = some c := by
  unfold tagCount
  rw [Dict.count_pos]
  simp

/-- Two items with one tag count at least twice. -/
theorem two_le_tagCount {items : Dict κ ν} {k k' : κ} {v v' : ν} {c : χ} (hne : k ≠ k')
    (h : items.get? k = some v) (h' : items.get? k' = some v') (hv : f v = some c)
    (hv' : f v' = some c) : 2 ≤ tagCount f items c := by
  have he := tagCount_erase f h c
  have hp : 0 < tagCount f (items.erase k) c :=
    (tagCount_pos f).mpr ⟨k', v', by rw [Dict.get?_erase, if_neg (Ne.symm hne), h'], hv'⟩
  rw [if_pos hv] at he
  omega

/-- A put releases the item it replaces when that was the last with its tag and the new item
    has another one. -/
theorem release_put (items : Dict κ ν) (k : κ) (v : ν) : release f items (.put k v) =
    match items.get? k with
    | none => []
    | some o => if f o ≠ f v ∧ isLast f items o = true then [o] else [] := by
  simp only [release, Op.key, effect, isLast]
  cases hk : items.get? k with
  | none => rfl
  | some o =>
      cases ho : f o with
      | none => simp [ho]
      | some c =>
          have hs := tagCount_set_of_some f hk v c
          rw [if_pos ho] at hs
          have hiff : (tagCount f items c = 1 ∧ tagCount f (items.set k v) c = 0) ↔
              (some c ≠ f v ∧ decide (tagCount f items c = 1) = true) := by
            rw [decide_eq_true_eq, and_comm, and_congr_left_iff]
            intro h1
            rw [h1] at hs
            by_cases hv : f v = some c
            · rw [if_pos hv] at hs
              simp [hv]
              omega
            · rw [if_neg hv] at hs
              simp only [ne_eq, eq_comm, hv, not_false_eq_true, iff_true]
              omega
          simp only [ho, hiff]

/-- A drop releases the item it drops when that was the last with its tag. -/
theorem release_drop (items : Dict κ ν) (k : κ) : release f items (.drop k) =
    match items.get? k with
    | none => []
    | some o => if isLast f items o = true then [o] else [] := by
  simp only [release, Op.key, effect, isLast]
  cases hk : items.get? k with
  | none => rfl
  | some o =>
      cases ho : f o with
      | none => simp [ho]
      | some c =>
          have hs := tagCount_erase f hk c
          rw [if_pos ho] at hs
          have hiff : (tagCount f items c = 1 ∧ tagCount f (items.erase k) c = 0) ↔
              decide (tagCount f items c = 1) = true := by
            rw [decide_eq_true_eq]
            omega
          simp only [ho, hiff]

/-! ## One step -/

theorem step_items (s : Index κ ν χ) (op : Op κ ν) : (step f s op).1.items = effect s.items op := by
  cases op with
  | put k v =>
      simp only [step, effect]
      cases s.items.get? k with
      | none => rfl
      | some o => dsimp only; split <;> rfl
  | drop k =>
      simp only [step, effect]
      cases hk : s.items.get? k with
      | none => exact (Dict.erase_eq_self hk).symm
      | some o => rfl

theorem untrack_fst {s : Index κ ν χ} (h : Exact f s) {k : κ} {o : ν}
    (hk : s.items.get? k = some o) : (untrack f s.counts o).1 = isLast f s.items o := by
  unfold untrack isLast
  cases ho : f o with
  | none => rfl
  | some c =>
      have hpos : 0 < tagCount f s.items c := (tagCount_pos f).mpr ⟨k, o, hk, ho⟩
      dsimp only
      rw [h.getD f c]
      split
      · next hle => rw [eq_comm, decide_eq_true_eq]; omega
      · next hle => rw [eq_comm, decide_eq_false_iff_not]; omega

theorem step_exact {s : Index κ ν χ} (h : Exact f s) (op : Op κ ν) : Exact f (step f s op).1 := by
  cases op with
  | put k v =>
      simp only [step]
      cases hk : s.items.get? k with
      | none =>
          refine exact_of_getD f (fun c => ?_) fun c => track_ne_zero f (h.ne_zero f) v c
          rw [track_getD, h.getD f c, tagCount_set_of_none f hk]
      | some o =>
          dsimp only
          split
          · next he =>
              refine exact_of_getD f (fun c => ?_) (h.ne_zero f)
              have := tagCount_set_of_some f hk v c
              rw [he] at this
              dsimp only
              rw [h.getD f c]
              omega
          · refine exact_of_getD f (fun c => ?_)
              fun c => track_ne_zero f (untrack_ne_zero f (h.ne_zero f) o) v c
            have h1 := tagCount_set_of_some f hk v c
            have h2 := tagCount_erase f hk c
            rw [track_getD, untrack_get? f h]
            dsimp only
            omega
  | drop k =>
      simp only [step]
      cases hk : s.items.get? k with
      | none => exact h
      | some o =>
          refine exact_of_getD f (fun c => ?_) (untrack_ne_zero f (h.ne_zero f) o)
          have h2 := tagCount_erase f hk c
          dsimp only
          rw [untrack_get? f h]
          omega

theorem step_released {s : Index κ ν χ} (h : Exact f s) (op : Op κ ν) :
    (step f s op).2 = release f s.items op := by
  cases op with
  | put k v =>
      simp only [step, release_put]
      cases hk : s.items.get? k with
      | none => rfl
      | some o =>
          dsimp only
          rw [untrack_fst f h hk]
          by_cases he : f o = f v <;> simp [he]
  | drop k =>
      simp only [step, release_drop]
      cases hk : s.items.get? k with
      | none => rfl
      | some o =>
          dsimp only
          rw [untrack_fst f h hk]

/-- Every run from an exact table leaves an exact table over the updated items, and releases
    exactly the items whose tag count it took from one to zero. -/
theorem run_exact (ops : List (Op κ ν)) (s : Index κ ν χ) (h : Exact f s) :
    Exact f (run f s ops).1 ∧ (run f s ops).1.items = effects s.items ops ∧
      (run f s ops).2 = releases f s.items ops := by
  induction ops generalizing s with
  | nil => exact ⟨h, rfl, rfl⟩
  | cons op ops ih =>
      obtain ⟨h1, h2, h3⟩ := ih (step f s op).1 (step_exact f h op)
      rw [step_items] at h2 h3
      refine ⟨h1, h2, ?_⟩
      show (step f s op).2 ++ _ = release f s.items op ++ _
      rw [step_released f h, h3]

/-! ## Batches: each key at most once -/

theorem effect_get?_ne (items : Dict κ ν) (op : Op κ ν) {k : κ} (h : k ≠ op.key) :
    (effect items op).get? k = items.get? k := by
  cases op <;> simp only [effect, Dict.get?_set, Dict.get?_erase] <;> exact if_neg h

theorem effects_get?_of_notMem (ops : List (Op κ ν)) (items : Dict κ ν) {k : κ}
    (h : k ∉ ops.map Op.key) : (effects items ops).get? k = items.get? k := by
  induction ops generalizing items with
  | nil => rfl
  | cons op ops ih =>
      simp only [List.map_cons, List.mem_cons, not_or] at h
      show (effects (effect items op) ops).get? k = _
      rw [ih _ h.2, effect_get?_ne items op h.1]

theorem effects_get?_of_mem (ops : List (Op κ ν)) (items : Dict κ ν)
    (hn : (ops.map Op.key).Nodup) {op : Op κ ν} (hop : op ∈ ops) :
    (effects items ops).get? op.key = (effect items op).get? op.key := by
  induction ops generalizing items with
  | nil => simp at hop
  | cons op' ops ih =>
      simp only [List.map_cons, List.nodup_cons] at hn
      show (effects (effect items op') ops).get? _ = _
      rcases List.mem_cons.mp hop with rfl | hop
      · exact effects_get?_of_notMem ops _ hn.1
      · rw [ih _ hn.2 hop]
        cases op <;> simp [effect, Op.key]

/-- An item was there before the batch, or the batch put it. -/
theorem effects_get?_some (ops : List (Op κ ν)) (items : Dict κ ν) {k : κ} {v : ν}
    (h : (effects items ops).get? k = some v) : items.get? k = some v ∨ .put k v ∈ ops := by
  induction ops generalizing items with
  | nil => exact .inl h
  | cons op ops ih =>
      rcases ih (effect items op) h with hold | hput
      · by_cases hk : k = op.key
        · cases op with
          | put k' v' =>
              simp only [effect, Dict.get?_set, Op.key] at hold hk
              rw [if_pos hk] at hold
              cases hold
              exact .inr (hk ▸ List.mem_cons_self)
          | drop k' =>
              simp only [effect, Dict.get?_erase, Op.key] at hold hk
              rw [if_pos hk] at hold
              cases hold
        · rw [effect_get?_ne items op hk] at hold
          exact .inl hold
      · exact .inr (List.mem_cons_of_mem _ hput)

theorem release_tag {items : Dict κ ν} {op : Op κ ν} {o : ν} (h : o ∈ release f items op) :
    items.get? op.key = some o ∧ isLast f items o = true ∧
      ∀ v, (effect items op).get? op.key = some v → f v ≠ f o := by
  cases op with
  | put k v =>
      rw [release_put] at h
      cases hk : items.get? k with
      | none => simp [hk] at h
      | some o' =>
          simp only [hk] at h
          split at h
          · next hc =>
              rw [List.mem_singleton] at h
              subst h
              refine ⟨hk, hc.2, ?_⟩
              intro w hw
              simp only [effect, Op.key, Dict.get?_set, if_true, Option.some.injEq] at hw
              exact hw ▸ hc.1.symm
          · simp at h
  | drop k =>
      rw [release_drop] at h
      cases hk : items.get? k with
      | none => simp [hk] at h
      | some o' =>
          simp only [hk] at h
          split at h
          · next hc =>
              rw [List.mem_singleton] at h
              subst h
              exact ⟨hk, hc, by simp [effect, Op.key]⟩
          · simp at h

/-- What a batch releases was an item before it, and the batch replaced it by an item with
    another tag, or dropped it. -/
theorem releases_tag (ops : List (Op κ ν)) (items : Dict κ ν) (hn : (ops.map Op.key).Nodup)
    {o : ν} (h : o ∈ releases f items ops) :
    ∃ op ∈ ops, items.get? op.key = some o ∧ (∃ c, f o = some c) ∧
      ∀ v, (effects items ops).get? op.key = some v → f v ≠ f o := by
  induction ops generalizing items with
  | nil => simp [releases] at h
  | cons op ops ih =>
      simp only [List.map_cons, List.nodup_cons] at hn
      rcases List.mem_append.mp h with h | h
      · obtain ⟨hk, hl, hv⟩ := release_tag f h
        refine ⟨op, List.mem_cons_self, hk, ?_, ?_⟩
        · unfold isLast at hl
          cases ho : f o with
          | none => simp [ho] at hl
          | some c => exact ⟨c, rfl⟩
        · intro v hv'
          refine hv v ?_
          rw [← hv']
          exact (effects_get?_of_notMem ops _ hn.1).symm
      · obtain ⟨op', hop, hk, hc, hv⟩ := ih (effect items op) hn.2 h
        have hne : op'.key ≠ op.key := by
          intro he
          exact hn.1 (he ▸ List.mem_map_of_mem hop)
        rw [effect_get?_ne items op hne] at hk
        exact ⟨op', List.mem_cons_of_mem _ hop, hk, hc, hv⟩

theorem tagCount_effect {items : Dict κ ν} {op : Op κ ν} {c : χ} (h : 0 < tagCount f items c)
    (h0 : tagCount f (effect items op) c = 0) : ∃ o ∈ release f items op, f o = some c := by
  cases op with
  | put k v =>
      simp only [effect] at h0
      cases hk : items.get? k with
      | none => rw [tagCount_set_of_none f hk] at h0; omega
      | some o =>
          have hs := tagCount_set_of_some f hk v c
          rw [h0] at hs
          have hv : f v ≠ some c := by
            intro hv
            rw [if_pos hv] at hs
            split at hs <;> omega
          have ho : f o = some c := by
            by_contra ho
            rw [if_neg ho, if_neg hv] at hs
            omega
          rw [if_pos ho, if_neg hv] at hs
          refine ⟨o, ?_, ho⟩
          have hl : isLast f items o = true := by
            simp only [isLast, ho, decide_eq_true_eq]
            omega
          have hne : f o ≠ f v := fun he => hv (he ▸ ho)
          simp only [release_put, hk]
          rw [if_pos ⟨hne, hl⟩]
          exact List.mem_singleton_self o
  | drop k =>
      simp only [effect] at h0
      cases hk : items.get? k with
      | none =>
          -- nothing was dropped, so the count cannot have changed
          rw [Dict.erase_eq_self hk] at h0
          omega
      | some o =>
          have hs := tagCount_erase f hk c
          rw [h0] at hs
          have ho : f o = some c := by
            by_contra ho
            rw [if_neg ho] at hs
            omega
          rw [if_pos ho] at hs
          refine ⟨o, ?_, ho⟩
          have hl : isLast f items o = true := by
            simp only [isLast, ho, decide_eq_true_eq]
            omega
          simp only [release_drop, hk]
          rw [if_pos hl]
          exact List.mem_singleton_self o

/-- A tag that had items before the batch and has none after it was released. -/
theorem releases_complete (ops : List (Op κ ν)) (items : Dict κ ν) {c : χ}
    (h : 0 < tagCount f items c) (h0 : tagCount f (effects items ops) c = 0) :
    ∃ o ∈ releases f items ops, f o = some c := by
  induction ops generalizing items with
  | nil =>
      have : tagCount f items c = 0 := h0
      omega
  | cons op ops ih =>
      by_cases hz : tagCount f (effect items op) c = 0
      · obtain ⟨o, ho, hc⟩ := tagCount_effect f h hz
        exact ⟨o, List.mem_append_left _ ho, hc⟩
      · obtain ⟨o, ho, hc⟩ := ih (effect items op) (Nat.pos_of_ne_zero hz) h0
        exact ⟨o, List.mem_append_right _ ho, hc⟩

/-- An item that a batch keeps has no tag the batch releases: while it is there, no item of
    its tag is the last one. -/
theorem releases_unshared (ops : List (Op κ ν)) (items : Dict κ ν) (hn : (ops.map Op.key).Nodup)
    {o : ν} (h : o ∈ releases f items ops) {k : κ} {v : ν} (hk : items.get? k = some v)
    (hk' : (effects items ops).get? k = some v) : f v ≠ f o := by
  induction ops generalizing items with
  | nil => simp [releases] at h
  | cons op ops ih =>
      simp only [List.map_cons, List.nodup_cons] at hn
      have hkeep : (effect items op).get? k = some v := by
        by_cases he : k = op.key
        · rw [he] at hk' ⊢
          rw [← hk']
          exact (effects_get?_of_notMem ops _ hn.1).symm
        · rw [effect_get?_ne items op he, hk]
      rcases List.mem_append.mp h with h | h
      · obtain ⟨ho, hl, hv⟩ := release_tag f h
        intro hvo
        have hne : op.key ≠ k := by
          rintro rfl
          exact hv v hkeep hvo
        unfold isLast at hl
        cases hc : f o with
        | none => simp [hc] at hl
        | some c =>
            simp only [hc, decide_eq_true_eq] at hl
            have := two_le_tagCount f hne ho hk hc (hvo.trans hc)
            omega
      · exact ih (effect items op) hn.2 h hkeep hk'

end Lib.RefCount
