/-
  What a node of the graph does to the cache.

  * `evicted`: the cache without the stale siblings of a document; `evictInvalidatedSiblings_ok`.
  * `realized`: reuse or rebuild of a document as one function of the cache, none if a file
    cannot be read; `realize_run` says that the executor computes it.
  * `NodeRun`: what the run of a node gives, for every kind of node; `executeNode_finishes`: every
    node that the executor can look up runs like this, or fails on a file.
-/
import Sock.Engine.Executor

namespace Sock.Engine

open Lib Sock.Core Fallible

/-- An error of reading or parsing a file. -/
def MaterializationError.isFile : MaterializationError → Bool
  | .io _ | .json _ => true
  | .missingDependency _ | .unknownArtifactNode _ | .panicked _ | .outOfFuel => false

/-- The cache root as a map from entries to contents. -/
abbrev Cache := Dict CacheKey Bytes

namespace Executor

variable (E : Executor)

/-! ## Eviction -/

/-- The document that the bytes of an entry hold. -/
def read? (bytes : Bytes) : Option MaterializedArtifactDocument :=
  bytes.toStr.bind fun text => (E.fromStr text).toOption

/-- The entry holds a document that `document` invalidates. -/
def stale (document : MaterializedArtifactDocument) (entry : CacheKey × Bytes) : Bool :=
  (E.read? entry.2).any (invalidates document)

/-- The cache without the entries that are stale. -/
def without (document : MaterializedArtifactDocument) (entries : List (CacheKey × Bytes))
    (cache : Cache) : Cache :=
  ((entries.filter (E.stale document)).map Prod.fst).foldl Dict.erase cache

/-- The cache without the stale siblings of the document. -/
def evicted (document : MaterializedArtifactDocument) (cache : Cache) : Cache :=
  E.without document (siblings document cache) cache

/-- Every sibling of the document can be read. -/
def SiblingsReadable (document : MaterializedArtifactDocument) (cache : Cache) : Prop :=
  ∀ entry ∈ siblings document cache, (E.read? entry.2).isSome

instance (document : MaterializedArtifactDocument) (cache : Cache) :
    Decidable (E.SiblingsReadable document cache) :=
  inferInstanceAs (Decidable (∀ entry ∈ siblings document cache, (E.read? entry.2).isSome))

variable {E}

theorem parse_of_read {bytes : Bytes} {existing : MaterializedArtifactDocument}
    (h : E.read? bytes = some existing) (world : World) :
    (E.parse bytes).run world = .ok existing world := by
  obtain ⟨text, htext, hparse⟩ := Option.bind_eq_some_iff.mp h
  cases hfrom : E.fromStr text with
  | error message =>
      rw [hfrom] at hparse
      cases hparse
  | ok document =>
      rw [hfrom] at hparse
      cases hparse
      simp [parse, htext, hfrom]

theorem parse_of_not_read {bytes : Bytes} (h : E.read? bytes = none) (world : World) :
    ∃ e, e.isFile = true ∧ (E.parse bytes).run world = .error e world := by
  cases htext : bytes.toStr with
  | none => exact ⟨.io .invalidData, rfl, by rw [parse, htext]; rfl⟩
  | some text =>
      cases hfrom : E.fromStr text with
      | error message =>
          refine ⟨.json message, rfl, ?_⟩
          rw [parse, htext]
          dsimp only
          rw [hfrom]
          rfl
      | ok document => simp [read?, htext, hfrom, Except.toOption] at h

/-- One entry: read, and removed if it is stale. -/
theorem evictEntry_of_read {document existing : MaterializedArtifactDocument}
    {entry : CacheKey × Bytes} (h : E.read? entry.2 = some existing) (world : World) :
    (E.evictEntry document entry).run world =
      .ok ⟨⟩ { world with cache := E.without document [entry] world.cache } := by
  unfold evictEntry
  refine run_bind_ok.mpr ⟨existing, world, parse_of_read h world, ?_⟩
  by_cases hinvalid : invalidates document existing = true
  · rw [if_pos hinvalid]
    simp [without, stale, h, hinvalid]
  · rw [if_neg hinvalid]
    simp [without, stale, h, hinvalid]

theorem without_cons (document : MaterializedArtifactDocument) (entry : CacheKey × Bytes)
    (entries : List (CacheKey × Bytes)) (cache : Cache) :
    E.without document (entry :: entries) cache =
      E.without document entries (E.without document [entry] cache) := by
  unfold without
  by_cases h : E.stale document entry = true <;> simp [h]

theorem forM_evictEntry {document : MaterializedArtifactDocument}
    {entries : List (CacheKey × Bytes)} (h : ∀ entry ∈ entries, (E.read? entry.2).isSome)
    (world : World) :
    (forM entries (E.evictEntry document)).run world =
      .ok ⟨⟩ { world with cache := E.without document entries world.cache } := by
  induction entries generalizing world with
  | nil => rfl
  | cons entry entries ih =>
      obtain ⟨existing, hread⟩ := Option.isSome_iff_exists.mp (h entry List.mem_cons_self)
      rw [List.forM_cons, without_cons]
      exact run_bind_ok.mpr ⟨⟨⟩, _, evictEntry_of_read hread world,
        ih (fun e he => h e (List.mem_cons_of_mem _ he)) _⟩

theorem forM_evictEntry_error {document : MaterializedArtifactDocument}
    {entries : List (CacheKey × Bytes)} (h : ¬ ∀ entry ∈ entries, (E.read? entry.2).isSome)
    (world : World) :
    ∃ e world', e.isFile = true ∧
      (forM entries (E.evictEntry document)).run world = .error e world' := by
  induction entries generalizing world with
  | nil => exact absurd (fun _ h => by cases h) h
  | cons entry entries ih =>
      rw [List.forM_cons]
      cases hread : E.read? entry.2 with
      | none =>
          obtain ⟨e, he, hparse⟩ := parse_of_not_read hread world
          exact ⟨e, world, he, run_bind_error.mpr (.inl (run_bind_error.mpr (.inl hparse)))⟩
      | some existing =>
          have hrest : ¬ ∀ entry ∈ entries, (E.read? entry.2).isSome := fun hall =>
            h (List.forall_mem_cons.mpr ⟨by simp [hread], hall⟩)
          obtain ⟨e, world', he, hrun⟩ := ih hrest { world with
            cache := E.without document [entry] world.cache }
          exact ⟨e, world', he, run_bind_error.mpr
            (.inr ⟨⟨⟩, _, evictEntry_of_read hread world, hrun⟩)⟩

theorem evictInvalidatedSiblings_ok {document : MaterializedArtifactDocument} {world : World}
    (h : E.SiblingsReadable document world.cache) :
    (E.evictInvalidatedSiblings document).run world =
      .ok ⟨⟩ { world with cache := E.evicted document world.cache } :=
  run_bind_ok.mpr ⟨world, world, rfl, forM_evictEntry h world⟩

theorem evictInvalidatedSiblings_error {document : MaterializedArtifactDocument} {world : World}
    (h : ¬ E.SiblingsReadable document world.cache) :
    ∃ e world', e.isFile = true ∧
      (E.evictInvalidatedSiblings document).run world = .error e world' := by
  obtain ⟨e, world', he, hrun⟩ := forM_evictEntry_error h world
  exact ⟨e, world', he, run_bind_error.mpr (.inr ⟨world, world, rfl, hrun⟩)⟩

theorem mem_siblings {document : MaterializedArtifactDocument} {cache : Cache} {key : CacheKey}
    {bytes : Bytes} : (key, bytes) ∈ siblings document cache ↔
      cache.get? key = some bytes ∧ key.1 = slug document.cacheNamespace ∧
        key.2 ≠ document.storageKey := by
  simp [siblings, Dict.get?_eq_some]

/-- An entry is evicted exactly when it is a stale sibling. -/
theorem get?_evicted (document : MaterializedArtifactDocument) (cache : Cache) (key : CacheKey) :
    (E.evicted document cache).get? key =
      if key.1 = slug document.cacheNamespace ∧ key.2 ≠ document.storageKey ∧
        (cache.get? key).any (fun bytes => E.stale document (key, bytes)) then none
      else cache.get? key := by
  have hmem : key ∈ ((siblings document cache).filter (E.stale document)).map Prod.fst ↔
      key.1 = slug document.cacheNamespace ∧ key.2 ≠ document.storageKey ∧
        (cache.get? key).any (fun bytes => E.stale document (key, bytes)) := by
    simp only [List.mem_map, List.mem_filter, Prod.exists, exists_and_right, exists_eq_right,
      mem_siblings, Option.any_eq_true]
    constructor
    · rintro ⟨bytes, ⟨hget, hdir, hkey⟩, hstale⟩
      exact ⟨hdir, hkey, bytes, hget, hstale⟩
    · rintro ⟨hdir, hkey, bytes, hget, hstale⟩
      exact ⟨bytes, ⟨hget, hdir, hkey⟩, hstale⟩
  rw [evicted, without, Dict.get?_foldl_erase]
  by_cases h : key ∈ ((siblings document cache).filter (E.stale document)).map Prod.fst
  · rw [if_pos h, if_pos (hmem.mp h)]
  · rw [if_neg h, if_neg (mt hmem.mpr h)]

/-- The document's own entry is not evicted. -/
theorem get?_evicted_cacheKey (document : MaterializedArtifactDocument) (cache : Cache) :
    (E.evicted document cache).get? document.cacheKey = cache.get? document.cacheKey := by
  rw [get?_evicted, if_neg]
  exact fun h => h.2.1 rfl

/-- What is left is what was there. -/
theorem get?_of_evicted {document : MaterializedArtifactDocument} {cache : Cache} {key : CacheKey}
    {bytes : Bytes} (h : (E.evicted document cache).get? key = some bytes) :
    cache.get? key = some bytes := by
  rw [get?_evicted] at h
  split at h
  · cases h
  · exact h

theorem siblingsReadable_evicted {document document' : MaterializedArtifactDocument}
    {cache : Cache} (h : E.SiblingsReadable document cache) :
    E.SiblingsReadable document (E.evicted document' cache) := by
  rintro ⟨key, bytes⟩ hentry
  obtain ⟨hget, hkey⟩ := mem_siblings.mp hentry
  exact h (key, bytes) (mem_siblings.mpr ⟨get?_of_evicted hget, hkey⟩)

theorem evicted_of_none_stale {document : MaterializedArtifactDocument} {cache : Cache}
    (h : ∀ entry ∈ siblings document cache, E.stale document entry = false) :
    E.evicted document cache = cache := by
  have hnil : (siblings document cache).filter (E.stale document) = [] :=
    List.filter_eq_nil_iff.mpr fun entry hentry => by simp [h entry hentry]
  rw [evicted, without, hnil]
  rfl

/-- Nothing is stale after an eviction. -/
theorem stale_of_evicted {document : MaterializedArtifactDocument} {cache : Cache}
    {entry : CacheKey × Bytes} (h : entry ∈ siblings document (E.evicted document cache)) :
    E.stale document entry = false := by
  obtain ⟨key, bytes⟩ := entry
  obtain ⟨hget, hdir, hkey⟩ := mem_siblings.mp h
  by_contra hstale
  have hany : (cache.get? key).any (fun bytes => E.stale document (key, bytes)) = true := by
    simpa [get?_of_evicted hget] using hstale
  have hnone : (E.evicted document cache).get? key = none := by
    rw [get?_evicted, if_pos ⟨hdir, hkey, hany⟩]
  rw [hnone] at hget
  cases hget

@[simp] theorem evicted_evicted (document : MaterializedArtifactDocument) (cache : Cache) :
    E.evicted document (E.evicted document cache) = E.evicted document cache :=
  evicted_of_none_stale fun _ => stale_of_evicted

/-! ## Reuse or rebuild -/

/-- A document that was reused or rebuilt, with the cache behind it. -/
structure Realized where
  disposition : MaterializationDisposition
  rebuildMs : Nat
  cache : Cache

variable (E)

/-- What becomes of the cache when the document is realized, or none if a file cannot be
    read. -/
def realized (document rebuilt : MaterializedArtifactDocument) (cache : Cache) : Option Realized :=
  let written : Realized := ⟨.executed, rebuilt.observedRebuildMs,
    (E.evicted document cache).set rebuilt.cacheKey (.text (E.canon.canonicalJson rebuilt))⟩
  if E.SiblingsReadable document cache then
    match cache.get? document.cacheKey with
    | none => some written
    | some bytes => (E.read? bytes).map fun existing =>
        if sameArtifactDocumentIdentity existing document then
          ⟨.reused, (reuse document existing 0).rebuildMs, E.evicted document cache⟩
        else written
  else none

variable {E}

theorem loadExistingDocument_of_read {key : CacheKey} {bytes : Bytes} {world : World}
    {existing : MaterializedArtifactDocument} (hget : world.cache.get? key = some bytes)
    (hread : E.read? bytes = some existing) :
    (E.loadExistingDocument key).run world =
      .ok (existing, E.elapsed world.tick) { world with tick := world.tick + 1 } := by
  unfold loadExistingDocument
  refine run_bind_ok.mpr ⟨world, world, rfl, ?_⟩
  rw [hget]
  exact run_bind_ok.mpr ⟨existing, world, parse_of_read hread world, rfl⟩

theorem loadExistingDocument_error {key : CacheKey} {bytes : Bytes} {world : World}
    (hget : world.cache.get? key = some bytes) (hread : E.read? bytes = none) :
    ∃ e, e.isFile = true ∧ (E.loadExistingDocument key).run world = .error e world := by
  obtain ⟨e, he, hparse⟩ := parse_of_not_read hread world
  refine ⟨e, he, run_bind_error.mpr (.inr ⟨world, world, rfl, ?_⟩)⟩
  rw [hget]
  exact run_bind_error.mpr (.inl hparse)

/-- The realization of a document that is written. -/
def rebuiltAs (E : Executor) (rebuilt : MaterializedArtifactDocument) : Realization :=
  ⟨.executed, (E.canon.canonicalJson rebuilt).utf8ByteSize, rebuilt.observedRebuildMs, 0, rebuilt⟩

section Realize

variable {document rebuilt existing : MaterializedArtifactDocument} {world : World} {bytes : Bytes}

/-- The world with the stale siblings gone and the rebuilt document written. -/
def writtenTo (E : Executor) (document rebuilt : MaterializedArtifactDocument) (world : World) :
    World :=
  { world with
    cache := (E.evicted document world.cache).set rebuilt.cacheKey
      (.text (E.canon.canonicalJson rebuilt)) }

/-- Without an entry the document is built. -/
theorem realize_absent (hsiblings : E.SiblingsReadable document world.cache)
    (hget : world.cache.get? document.cacheKey = none) :
    (E.realize document rebuilt).run world =
      .ok (E.rebuiltAs rebuilt) (E.writtenTo document rebuilt world) := by
  refine run_bind_ok.mpr ⟨world, world, rfl, ?_⟩
  rw [hget]
  exact run_bind_ok.mpr ⟨⟨⟩, _, evictInvalidatedSiblings_ok hsiblings, rfl⟩

theorem get?_evicted_of_get? (hget : world.cache.get? document.cacheKey = some bytes) :
    (E.evicted document world.cache).get? document.cacheKey = some bytes := by
  rw [get?_evicted_cacheKey, hget]

/-- An entry with the identity of the document is reused. -/
theorem realize_reused (hsiblings : E.SiblingsReadable document world.cache)
    (hget : world.cache.get? document.cacheKey = some bytes)
    (hread : E.read? bytes = some existing)
    (hsame : sameArtifactDocumentIdentity existing document = true) :
    (E.realize document rebuilt).run world =
      .ok (reuse document existing (E.elapsed world.tick))
        { world with cache := E.evicted document world.cache, tick := world.tick + 1 } := by
  refine run_bind_ok.mpr ⟨world, world, rfl, ?_⟩
  rw [hget]
  refine run_bind_ok.mpr ⟨⟨⟩, _, evictInvalidatedSiblings_ok hsiblings, ?_⟩
  refine run_bind_ok.mpr ⟨_, _, loadExistingDocument_of_read (get?_evicted_of_get? hget) hread, ?_⟩
  dsimp only
  rw [if_pos hsame]
  rfl

/-- Any other entry is replaced. -/
theorem realize_replaced (hsiblings : E.SiblingsReadable document world.cache)
    (hget : world.cache.get? document.cacheKey = some bytes)
    (hread : E.read? bytes = some existing)
    (hsame : ¬ sameArtifactDocumentIdentity existing document = true) :
    (E.realize document rebuilt).run world = .ok (E.rebuiltAs rebuilt)
      (E.writtenTo document rebuilt { world with tick := world.tick + 1 }) := by
  -- the second eviction finds nothing to remove
  have hagain := @evictInvalidatedSiblings_ok E document
    { world with cache := E.evicted document world.cache, tick := world.tick + 1 }
    (siblingsReadable_evicted hsiblings)
  rw [evicted_evicted] at hagain
  refine run_bind_ok.mpr ⟨world, world, rfl, ?_⟩
  rw [hget]
  refine run_bind_ok.mpr ⟨⟨⟩, _, evictInvalidatedSiblings_ok hsiblings, ?_⟩
  refine run_bind_ok.mpr ⟨_, _, loadExistingDocument_of_read (get?_evicted_of_get? hget) hread, ?_⟩
  dsimp only
  rw [if_neg hsame]
  exact run_bind_ok.mpr ⟨⟨⟩, _, hagain, rfl⟩

/-- A sibling that cannot be read is an error. -/
theorem realize_sibling_error (h : ¬ E.SiblingsReadable document world.cache) :
    ∃ e world', e.isFile = true ∧ (E.realize document rebuilt).run world = .error e world' := by
  obtain ⟨e, world', he, hevict⟩ := evictInvalidatedSiblings_error h
  refine ⟨e, world', he, run_bind_error.mpr (.inr ⟨world, world, rfl, ?_⟩)⟩
  split <;> exact run_bind_error.mpr (.inl hevict)

/-- An entry that cannot be read is an error. -/
theorem realize_entry_error (hsiblings : E.SiblingsReadable document world.cache)
    (hget : world.cache.get? document.cacheKey = some bytes) (hread : E.read? bytes = none) :
    ∃ e world', e.isFile = true ∧ (E.realize document rebuilt).run world = .error e world' := by
  obtain ⟨e, he, hload⟩ := @loadExistingDocument_error E document.cacheKey bytes
    { world with cache := E.evicted document world.cache } (get?_evicted_of_get? hget) hread
  refine ⟨e, { world with cache := E.evicted document world.cache }, he,
    run_bind_error.mpr (.inr ⟨world, world, rfl, ?_⟩)⟩
  rw [hget]
  exact run_bind_error.mpr
    (.inr ⟨⟨⟩, _, evictInvalidatedSiblings_ok hsiblings, run_bind_error.mpr (.inl hload)⟩)

end Realize

/-- The executor realizes a document as `realized` says. -/
theorem realize_run (document rebuilt : MaterializedArtifactDocument) (world : World) :
    match E.realized document rebuilt world.cache with
    | some x => ∃ realization world', (E.realize document rebuilt).run world =
        .ok realization world' ∧ (⟨realization.disposition, realization.rebuildMs,
          world'.cache⟩ : Realized) = x
    | none => ∃ e world', e.isFile = true ∧
        (E.realize document rebuilt).run world = .error e world' := by
  by_cases hsiblings : E.SiblingsReadable document world.cache
  case neg =>
    rw [realized, if_neg hsiblings]
    exact realize_sibling_error hsiblings
  rw [realized, if_pos hsiblings]
  cases hget : world.cache.get? document.cacheKey with
  | none => exact ⟨_, _, realize_absent hsiblings hget, rfl⟩
  | some bytes =>
      dsimp only
      cases hread : E.read? bytes with
      | none => exact realize_entry_error hsiblings hget hread
      | some existing =>
          rw [Option.map_some]
          by_cases hsame : sameArtifactDocumentIdentity existing document = true
          · rw [if_pos hsame]
            exact ⟨_, _, realize_reused hsiblings hget hread hsame, rfl⟩
          · rw [if_neg hsame]
            exact ⟨_, _, realize_replaced hsiblings hget hread hsame, rfl⟩

/-! ## Readable caches -/

variable (E)

/-- What is written can be read back. -/
def RoundTrip : Prop :=
  ∀ d : MaterializedArtifactDocument, E.fromStr (E.canon.canonicalJson d) = .ok d

/-- Every entry of the cache can be read. -/
def Readable (cache : Cache) : Prop :=
  ∀ key bytes, cache.get? key = some bytes → (E.read? bytes).isSome

variable {E}

theorem read?_canonicalJson (h : E.RoundTrip) (d : MaterializedArtifactDocument) :
    E.read? (.text (E.canon.canonicalJson d)) = some d := by
  simp [read?, Bytes.toStr, h d, Except.toOption]

theorem Readable.siblings {cache : Cache} (h : E.Readable cache)
    (document : MaterializedArtifactDocument) : E.SiblingsReadable document cache := by
  rintro ⟨key, bytes⟩ hentry
  exact h key bytes (mem_siblings.mp hentry).1

theorem Readable.evicted {cache : Cache} (h : E.Readable cache)
    (document : MaterializedArtifactDocument) : E.Readable (E.evicted document cache) :=
  fun key bytes hget => h key bytes (get?_of_evicted hget)

/-- From a cache that can be read every document is realized, and the cache can still be
    read. -/
theorem Readable.exists_realized (hround : E.RoundTrip) {cache : Cache} (h : E.Readable cache)
    (document rebuilt : MaterializedArtifactDocument) :
    ∃ x, E.realized document rebuilt cache = some x ∧ E.Readable x.cache := by
  have hwritten : E.Readable ((E.evicted document cache).set rebuilt.cacheKey
      (.text (E.canon.canonicalJson rebuilt))) := by
    intro key bytes hget
    rw [Dict.get?_set] at hget
    split at hget
    · cases hget
      rw [read?_canonicalJson hround]
      rfl
    · exact h.evicted document key bytes hget
  rw [realized, if_pos (h.siblings document)]
  cases hget : cache.get? document.cacheKey with
  | none => exact ⟨_, rfl, hwritten⟩
  | some bytes =>
      obtain ⟨existing, hread⟩ := Option.isSome_iff_exists.mp (h _ _ hget)
      dsimp only
      rw [hread, Option.map_some]
      split
      · exact ⟨_, rfl, h.evicted document⟩
      · exact ⟨_, rfl, hwritten⟩

/-- An executor that reads back what it writes, and nothing else. -/
noncomputable def lossless (V : Vllm) (elapsed : Nat → Nat) : Executor where
  canon := .ideal
  vllm := V
  fromStr text := open Classical in
    if h : ∃ d : MaterializedArtifactDocument, Canon.ideal.canonicalJson d = text then .ok h.choose
    else .error "no artifact document"
  elapsed
  cacheRoot := "cache"

theorem lossless_roundTrip (V : Vllm) (elapsed : Nat → Nat) : (lossless V elapsed).RoundTrip := by
  intro d
  have h : ∃ d' : MaterializedArtifactDocument,
      Canon.ideal.canonicalJson d' = Canon.ideal.canonicalJson d := ⟨d, rfl⟩
  have hfrom : (lossless V elapsed).fromStr (Canon.ideal.canonicalJson d) = .ok h.choose :=
    dif_pos h
  have heq := Value.toStringPretty_inj h.choose_spec
  exact hfrom.trans (congrArg Except.ok (sortJson_toValue_inj.mp heq))

theorem readable_empty : E.Readable .empty := by
  intro key bytes hget
  simp at hget

/-! ## Nodes -/

end Executor

/-- A record without what is observed when it is made. -/
def plannedPart (r : MaterializedArtifactRecord) : MaterializedArtifactRecord :=
  { r with
    preferredFanoutStrategy := .none
    disposition := .executed
    bytesWritten := 0
    deserializationMs := 0
    compileMs := 0
    transferMs := 0
    rebuildMs := 0 }

/-- The record of a node without what is observed when it runs. -/
def plannedNodePart (record : MaterializationNodeRecord) : MaterializationNodeRecord :=
  { record with disposition := .executed, durationMs := 0, bytesWritten := 0 }

namespace Executor

variable (E : Executor) (outcome : PlanningOutcome)

/-- The requirement that a node builds or fetches, with its identity in the manifest. -/
def artifactOf (node : MaterializationNode) : Option (ArtifactRequirement × String) :=
  match node.kind with
  | .compile | .materialize => ((E.requirementIndex outcome).get? node.name).bind fun q =>
      (manifestIdentity? outcome q).map fun identity => (q, identity)
  | .assemble | .transfer | .warmup | .verify => none

/-- What the record of a requirement will say, whatever is in the cache. -/
def plannedRecord (node : MaterializationNode) (q : ArtifactRequirement) (identity : String) :
    MaterializedArtifactRecord :=
  let document := E.artifactDocument outcome q identity
  { plannedPart (artifactRecord q document (reuse document document 0) 0 0) with
    rankCount := UInt16.ofNat node.rankScope.length }

/-- The files that a node writes below the bundle, its record apart. -/
def plannedOutputs (node : MaterializationNode) : List String :=
  match node.kind with
  | .compile | .materialize => (E.artifactOf outcome node).toList.map fun artifact =>
      artifactPath (artifactStorageKey outcome E.canon artifact.1).asStr
  | .transfer => [receiptPath "materialization/waves" node.name]
  | .warmup => [receiptPath "warmup" node.name]
  | .assemble | .verify => []

/-- What the record of a node will say, whatever is in the cache. -/
def plannedNode (node : MaterializationNode) : MaterializationNodeRecord where
  nodeName := node.name
  wave := node.wave
  kind := node.kind
  queue := node.queue
  disposition := .executed
  dependencyNodes := node.dependencyNodes
  outputs := E.plannedOutputs outcome node
  relativePath := receiptPath "materialization/nodes" node.name
  durationMs := 0
  bytesWritten := 0

/-- Everything the executor looks up for the node is there. -/
def Runnable (node : MaterializationNode) : Prop :=
  match node.kind with
  | .compile | .materialize => (E.artifactOf outcome node).isSome
  | .warmup => ((warmupIndex outcome).get? node.name).isSome
  | .assemble | .transfer | .verify => True

/-- What becomes of the cache when a requirement is realized at a measured time. -/
def realizedAt (q : ArtifactRequirement) (identity : String) (observedMs : Nat) (cache : Cache) :
    Option Realized :=
  let document := E.artifactDocument outcome q identity
  E.realized document (document.observe (max observedMs 1)) cache

/-- What the run of a node gives: its record, its artifact and the cache behind it. -/
structure NodeRun (node : MaterializationNode) (cache : Cache) (result : NodeExecutionResult)
    (cache' : Cache) : Prop where
  record : plannedNodePart result.record = E.plannedNode outcome node
  artifact : match E.artifactOf outcome node with
    | none => result.artifact = none ∧ cache' = cache
    | some (q, identity) => ∃ r observedMs, result.artifact = some r ∧
        plannedPart r = E.plannedRecord outcome node q identity ∧
        r.preferredFanoutStrategy = observedPreferredStrategy q r.rebuildMs ∧
        E.realizedAt outcome q identity observedMs cache =
          some ⟨r.disposition, r.rebuildMs, cache'⟩

/-- The node finds a file that it cannot read. -/
def NodeFails (node : MaterializationNode) (cache : Cache) : Prop :=
  ∃ q identity observedMs, E.artifactOf outcome node = some (q, identity) ∧
    E.realizedAt outcome q identity observedMs cache = none

variable {E outcome}

theorem NodeRun.of_none {node : MaterializationNode} {cache cache' : Cache}
    {result : NodeExecutionResult} (h : E.NodeRun outcome node cache result cache')
    (hnone : E.artifactOf outcome node = none) : result.artifact = none ∧ cache' = cache := by
  have := h.artifact
  rw [hnone] at this
  exact this

theorem NodeRun.of_some {node : MaterializationNode} {cache cache' : Cache}
    {result : NodeExecutionResult} (h : E.NodeRun outcome node cache result cache')
    {q : ArtifactRequirement} {identity : String}
    (hsome : E.artifactOf outcome node = some (q, identity)) :
    ∃ r observedMs, result.artifact = some r ∧
      plannedPart r = E.plannedRecord outcome node q identity ∧
      r.preferredFanoutStrategy = observedPreferredStrategy q r.rebuildMs ∧
      E.realizedAt outcome q identity observedMs cache =
        some ⟨r.disposition, r.rebuildMs, cache'⟩ := by
  have := h.artifact
  rw [hsome] at this
  exact this

theorem run_measure (world : World) :
    E.measure.run world = .ok (E.elapsed world.tick) { world with tick := world.tick + 1 } := rfl

theorem run_writeBundle (path text : String) (world : World) :
    (writeBundle path text).run world =
      .ok ⟨⟩ { world with bundle := world.bundle.write path text } := rfl

theorem run_fileSize {path : String} {bytes : Bytes} {world : World}
    (h : world.bundle path = some bytes) : (fileSize path).run world = .ok bytes.size world := by
  unfold fileSize
  refine run_bind_ok.mpr ⟨world, world, rfl, ?_⟩
  rw [h]
  rfl

/-- An artifact is recorded as it was realized. -/
theorem materializeArtifact_ok {q : ArtifactRequirement} {identity : String}
    (hidentity : manifestIdentity? outcome q = some identity) {world : World} {x : Realized}
    (h : E.realizedAt outcome q identity (E.elapsed world.tick) world.cache = some x) :
    ∃ r world', (E.materializeArtifact outcome q).run world = .ok r world' ∧
      x = ⟨r.disposition, r.rebuildMs, world'.cache⟩ ∧
      r.preferredFanoutStrategy = observedPreferredStrategy q r.rebuildMs ∧
      plannedPart r = plannedPart (artifactRecord q (E.artifactDocument outcome q identity)
        (reuse (E.artifactDocument outcome q identity) (E.artifactDocument outcome q identity) 0)
        0 0) := by
  have hrealize := E.realize_run (E.artifactDocument outcome q identity)
    ((E.artifactDocument outcome q identity).observe (max (E.elapsed world.tick) 1))
    { world with tick := world.tick + 1 }
  rw [realizedAt] at h
  rw [h] at hrealize
  obtain ⟨realization, world', hrun, rfl⟩ := hrealize
  unfold materializeArtifact
  rw [hidentity]
  exact ⟨_, _, run_bind_ok.mpr ⟨_, _, run_measure world, run_bind_ok.mpr ⟨_, _, hrun,
    run_bind_ok.mpr ⟨_, _, run_writeBundle _ _ world', run_bind_ok.mpr
      ⟨_, _, run_fileSize (Function.update_self ..), rfl⟩⟩⟩⟩, rfl, rfl, rfl⟩

theorem materializeArtifact_error {q : ArtifactRequirement} {identity : String}
    (hidentity : manifestIdentity? outcome q = some identity) {world : World}
    (h : E.realizedAt outcome q identity (E.elapsed world.tick) world.cache = none) :
    ∃ e world', e.isFile = true ∧
      (E.materializeArtifact outcome q).run world = .error e world' := by
  have hrealize := E.realize_run (E.artifactDocument outcome q identity)
    ((E.artifactDocument outcome q identity).observe (max (E.elapsed world.tick) 1))
    { world with tick := world.tick + 1 }
  rw [realizedAt] at h
  rw [h] at hrealize
  obtain ⟨e, world', he, hrun⟩ := hrealize
  refine ⟨e, world', he, ?_⟩
  unfold materializeArtifact
  rw [hidentity]
  exact run_bind_error.mpr (.inr ⟨_, _, run_measure world, run_bind_error.mpr (.inl hrun)⟩)

/-- A node that only writes a receipt. -/
theorem executeReceiptNode_ok (node : MaterializationNode) (relativeDir : String) (payload : Value)
    (houtputs : [receiptPath relativeDir node.name] = E.plannedOutputs outcome node)
    (world : World) :
    ∃ record ms world', (E.executeReceiptNode node relativeDir payload).run world =
      .ok (record, ms) world' ∧ plannedNodePart record = E.plannedNode outcome node ∧
      world'.cache = world.cache := by
  unfold executeReceiptNode writeReceipt
  refine ⟨_, _, _, run_bind_ok.mpr ⟨_, _, run_bind_ok.mpr ⟨_, _, run_writeBundle _ _ world, rfl⟩,
    run_bind_ok.mpr ⟨_, _, rfl, run_bind_ok.mpr ⟨_, _, run_fileSize (Function.update_self ..),
      run_bind_ok.mpr ⟨_, _, rfl, rfl⟩⟩⟩⟩, ?_, rfl⟩
  rw [plannedNode, ← houtputs]
  rfl

theorem artifactOf_eq_some {node : MaterializationNode} {q : ArtifactRequirement}
    {identity : String} : E.artifactOf outcome node = some (q, identity) ↔
      (node.kind = .compile ∨ node.kind = .materialize) ∧
        (E.requirementIndex outcome).get? node.name = some q ∧
        manifestIdentity? outcome q = some identity := by
  unfold artifactOf
  cases node.kind <;> simp [Option.bind_eq_some_iff, Option.map_eq_some_iff]

theorem runnable_of_artifactOf {node : MaterializationNode}
    {artifact : ArtifactRequirement × String}
    (h : E.artifactOf outcome node = some artifact) : E.Runnable outcome node := by
  unfold Runnable
  rcases (artifactOf_eq_some.mp h).1 with hkind | hkind <;> rw [hkind] <;> exact h ▸ rfl

theorem executeNode_of_artifact {node : MaterializationNode} {q : ArtifactRequirement}
    (hkind : node.kind = .compile ∨ node.kind = .materialize)
    (hq : (E.requirementIndex outcome).get? node.name = some q) :
    E.executeNode outcome node = do
      let artifact ← E.materializeArtifact outcome q
      let artifact := { artifact with rankCount := UInt16.ofNat node.rankScope.length }
      let record ← E.writeNodeRecord node artifact.disposition [artifact.relativePath]
        (artifact.compileMs + artifact.transferMs) artifact.bytesWritten
      return ⟨record, some artifact, artifact.compileMs, artifact.transferMs⟩ := by
  unfold executeNode
  rcases hkind with hkind | hkind <;> rw [hkind] <;> dsimp only <;> rw [hq]

theorem plannedPart_rankCount {r r' : MaterializedArtifactRecord}
    (h : plannedPart r = plannedPart r') (rankCount : UInt16) :
    plannedPart { r with rankCount } = { plannedPart r' with rankCount } := by
  rw [← h]
  rfl

/-- **Nodes.** A node that the executor can look up runs as `NodeRun` says, unless a file of the
    cache cannot be read. -/
theorem executeNode_finishes {node : MaterializationNode} (h : E.Runnable outcome node)
    (world : World) :
    Finishes (E.executeNode outcome node) world
      (fun result world' => E.NodeRun outcome node world.cache result world'.cache)
      (fun e => e.isFile = true ∧ E.NodeFails outcome node world.cache) := by
  cases hartifact : E.artifactOf outcome node with
  | some artifact =>
      obtain ⟨q, identity⟩ := artifact
      obtain ⟨hkind, hq, hidentity⟩ := artifactOf_eq_some.mp hartifact
      rw [executeNode_of_artifact hkind hq]
      cases hrealized : E.realizedAt outcome q identity (E.elapsed world.tick) world.cache with
      | none =>
          obtain ⟨e, world', he, hrun⟩ := materializeArtifact_error hidentity hrealized
          exact finishes_of_error (run_bind_error.mpr (.inl hrun))
            ⟨he, q, identity, _, hartifact, hrealized⟩
      | some x =>
          obtain ⟨r, world', hrun, rfl, hfanout, hplanned⟩ :=
            materializeArtifact_ok hidentity hrealized
          have hpath : [r.relativePath] = E.plannedOutputs outcome node := by
            have hrelative := congrArg MaterializedArtifactRecord.relativePath hplanned
            unfold plannedOutputs
            rw [hartifact]
            rcases hkind with hkind | hkind <;> rw [hkind] <;>
              exact congrArg (fun path => [path]) hrelative
          refine finishes_of_ok (run_bind_ok.mpr ⟨_, _, hrun, run_bind_ok.mpr ⟨_, _, rfl, rfl⟩⟩)
            ⟨?_, ?_⟩
          · rw [plannedNode, ← hpath]
            rfl
          · rw [hartifact]
            exact ⟨_, _, rfl, plannedPart_rankCount hplanned _, hfanout, hrealized⟩
  | none =>
      have hdone : ∀ {record : MaterializationNodeRecord} {c t : Nat} {world' : World},
          plannedNodePart record = E.plannedNode outcome node → world'.cache = world.cache →
          E.NodeRun outcome node world.cache ⟨record, none, c, t⟩ world'.cache :=
        fun hrecord hcache => ⟨hrecord, by rw [hartifact]; exact ⟨rfl, hcache⟩⟩
      unfold executeNode
      cases hkind : node.kind with
      | compile | materialize =>
          simp only [Runnable, hkind, hartifact, Option.isSome_none, Bool.false_eq_true] at h
      | transfer =>
          have houtputs : [receiptPath "materialization/waves" node.name] =
              E.plannedOutputs outcome node := by rw [plannedOutputs, hkind]
          obtain ⟨record, ms, world', hrun, hrecord, hcache⟩ :=
            executeReceiptNode_ok node _ (fanoutReceipt outcome node) houtputs world
          exact finishes_of_ok (run_bind_ok.mpr ⟨_, _, hrun, rfl⟩) (hdone hrecord hcache)
      | warmup =>
          simp only [Runnable, hkind] at h
          obtain ⟨obligation, hobligation⟩ := Option.isSome_iff_exists.mp h
          have houtputs : [receiptPath "warmup" node.name] = E.plannedOutputs outcome node := by
            rw [plannedOutputs, hkind]
          obtain ⟨record, ms, world', hrun, hrecord, hcache⟩ :=
            executeReceiptNode_ok node _ (warmupReceipt outcome node obligation) houtputs world
          dsimp only
          rw [hobligation]
          exact finishes_of_ok (run_bind_ok.mpr ⟨_, _, hrun, rfl⟩) (hdone hrecord hcache)
      | assemble | verify =>
          refine finishes_of_ok (run_bind_ok.mpr ⟨_, _, rfl, run_bind_ok.mpr ⟨_, _, rfl, rfl⟩⟩)
            (hdone ?_ rfl)
          rw [plannedNode, plannedOutputs, hkind]
          rfl

end Executor

end Sock.Engine
