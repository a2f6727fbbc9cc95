/-
  The nodes of a batch that run in parallel, file step by file step.

  * `realizeSteps`: reuse or rebuild of a document as a program of file steps;
    `run_realizeSteps`: alone it does what `realized` says.
  * `Calm`: every file of the batch's namespace directories can be read, and none of them is to be
    evicted. In a calm cache the documents of a batch are realized in any interleaving as one
    after the other (`realizeSteps_ensures`, `endsLike_of_fresh`).
  * Otherwise one node removes an entry that another one is about to read.

  Listing a directory is one step, as is its removal. The namespace directory is always there when
  it is listed: `create_dir_all` has made it, and nothing removes it. Files that are not yet
  renamed into place are not modelled, as no step looks at them.

  Not modelled: the files of the bundle. Every node writes its own, and nothing removes them.
-/
import Sock.Lib.Threads
import Sock.Engine.Closure
import Sock.Engine.Reuse

namespace Sock.Engine

open Lib Sock.Core Fallible Threads Threads.Program

/-! ## File steps -/

/-- The entry directories below the namespace directories, each with its file `artifact.json`, or
    without one. -/
abbrev Files := Dict CacheKey (Option Bytes)

abbrev Steps := Program Files MaterializationError

/-- The file of an entry. -/
def fileAt (files : Files) (key : CacheKey) : Option Bytes := (files.get? key).join

/-- The files are those of the cache. -/
def Holds (files : Files) (cache : Cache) : Prop := ∀ key, fileAt files key = cache.get? key

def createDirAll (key : CacheKey) : Steps Unit :=
  .atomic (modify fun files => if (files.get? key).isSome then files else files.set key none)

/-- `path.is_dir()`. -/
def isDir (key : CacheKey) : Steps Bool := .atomic do return ((← get).get? key).isSome

/-- `artifact_path.exists()`. -/
def fileExists (key : CacheKey) : Steps Bool := .atomic do return (fileAt (← get) key).isSome

def readDir (dir : String) : Steps (List CacheKey) :=
  .atomic do return (← get).keys.filter (·.1 = dir)

def readToString (key : CacheKey) : Steps Bytes := .atomic do
  match fileAt (← get) key with
  | some bytes => return bytes
  | none => throw (.io .notFound)

def removeDirAll (key : CacheKey) : Steps Unit := .atomic do
  match (← get).get? key with
  | some _ => modify (·.erase key)
  | none => throw (.io .notFound)

/-- The temporary file, which needs the directory. -/
def writeTemp (key : CacheKey) : Steps Unit := .atomic do
  match (← get).get? key with
  | some _ => return ⟨⟩
  | none => throw (.io .notFound)

def rename (key : CacheKey) (bytes : Bytes) : Steps Unit := .atomic do
  match (← get).get? key with
  | some _ => modify (·.set key (some bytes))
  | none => throw (.io .notFound)

def writeBytesAtomically (key : CacheKey) (bytes : Bytes) : Steps Unit := do
  writeTemp key
  rename key bytes

namespace Executor

variable (E : Executor)

def parseSteps (bytes : Bytes) : Steps MaterializedArtifactDocument :=
  match bytes.toStr with
  | none => .raised (.io .invalidData)
  | some text => match E.fromStr text with
    | .ok document => pure document
    | .error message => .raised (.json message)

/-- A directory that was listed. -/
def evictEntrySteps (document : MaterializedArtifactDocument) (key : CacheKey) : Steps Unit := do
  if !(← isDir key) || key.2 = document.storageKey then
    return ⟨⟩
  else if !(← fileExists key) then
    return ⟨⟩
  else
    let existing ← E.parseSteps (← readToString key)
    if invalidates document existing then removeDirAll key
    else return ⟨⟩

def evictSteps (document : MaterializedArtifactDocument) : Steps Unit := do
  let keys ← readDir (slug document.cacheNamespace)
  forM keys (E.evictEntrySteps document)

/-- The entry of the document is written. -/
def rebuildSteps (document : MaterializedArtifactDocument) : Steps Realization := do
  writeBytesAtomically document.cacheKey (.text (E.canon.canonicalJson document))
  return E.rebuiltAs document

def realizeSteps (document rebuilt : MaterializedArtifactDocument) (loadMs : Nat) :
    Steps Realization := do
  createDirAll document.cacheKey
  if ← fileExists document.cacheKey then
    E.evictSteps document
    let existing ← E.parseSteps (← readToString document.cacheKey)
    if sameArtifactDocumentIdentity existing document then
      return reuse document existing loadMs
    else
      E.evictSteps document
      E.rebuildSteps rebuilt
  else
    E.evictSteps document
    E.rebuildSteps rebuilt

end Executor

namespace Executor

variable {E : Executor} {document existing : MaterializedArtifactDocument} {files : Files}
  {cache : Cache} {key : CacheKey} {bytes : Bytes}

/-! ### Each step -/

theorem run_createDirAll (key : CacheKey) (files : Files) :
    ∃ files', (createDirAll key).serial.run files = .ok ⟨⟩ files' ∧
      (∀ key', fileAt files' key' = fileAt files key') ∧
      (∀ key' ≠ key, files'.get? key' = files.get? key') ∧
      files'.get? key = some (fileAt files key) := by
  refine ⟨if (files.get? key).isSome then files else files.set key none, ?_, ?_⟩
  · rw [createDirAll, serial_atomic]
    rfl
  · unfold fileAt
    cases hget : files.get? key with
    | some entry => simp [hget]
    | none =>
        refine ⟨fun key' => ?_, fun key' hne => ?_, ?_⟩ <;> simp only [Option.isSome_none,
          Bool.false_eq_true, if_false, Dict.get?_set, if_true, Option.join_none]
        · split
          · next heq => rw [heq, hget]; rfl
          · rfl
        · rw [if_neg hne]

theorem run_isDir (key : CacheKey) (files : Files) :
    (isDir key).serial.run files = .ok (files.get? key).isSome files := by
  rw [isDir, serial_atomic]
  rfl

theorem run_fileExists (key : CacheKey) (files : Files) :
    (fileExists key).serial.run files = .ok (fileAt files key).isSome files := by
  rw [fileExists, serial_atomic]
  rfl

theorem run_readDir (dir : String) (files : Files) :
    (readDir dir).serial.run files = .ok (files.keys.filter (·.1 = dir)) files := by
  rw [readDir, serial_atomic]
  rfl

theorem run_readToString (h : fileAt files key = some bytes) :
    (readToString key).serial.run files = .ok bytes files := by
  rw [readToString, serial_atomic]
  refine run_bind_ok.mpr ⟨files, files, rfl, ?_⟩
  rw [h]
  rfl

theorem run_removeDirAll {entry : Option Bytes} (h : files.get? key = some entry) :
    (removeDirAll key).serial.run files = .ok ⟨⟩ (files.erase key) := by
  rw [removeDirAll, serial_atomic]
  refine run_bind_ok.mpr ⟨files, files, rfl, ?_⟩
  rw [h]
  rfl

theorem run_writeBytesAtomically {entry : Option Bytes} (h : files.get? key = some entry) :
    (writeBytesAtomically key bytes).serial.run files = .ok ⟨⟩ (files.set key (some bytes)) := by
  rw [writeBytesAtomically, writeTemp, rename, serial_bind, serial_atomic,
    serial_atomic]
  refine run_bind_ok.mpr ⟨⟨⟩, files, run_bind_ok.mpr ⟨files, files, rfl, ?_⟩,
    run_bind_ok.mpr ⟨files, files, rfl, ?_⟩⟩ <;> rw [h] <;> rfl

theorem parseSteps_of_read (h : E.read? bytes = some existing) :
    E.parseSteps bytes = .done existing := by
  obtain ⟨text, htext, hparse⟩ := Option.bind_eq_some_iff.mp h
  cases hfrom : E.fromStr text with
  | error message =>
      rw [hfrom] at hparse
      cases hparse
  | ok document =>
      rw [hfrom] at hparse
      cases hparse
      rw [parseSteps, htext]
      dsimp only
      rw [hfrom]
      rfl

/-! ### A document alone -/

/-- The directory is to be removed. -/
def sweepsAway (E : Executor) (document : MaterializedArtifactDocument) (files : Files)
    (key : CacheKey) : Bool :=
  key.2 ≠ document.storageKey ∧ (fileAt files key).any fun bytes => E.stale document (key, bytes)

/-- The files without the directory, if it is to be removed. -/
def sweep (E : Executor) (document : MaterializedArtifactDocument) (files : Files)
    (key : CacheKey) : Files :=
  if E.sweepsAway document files key then files.erase key else files

/-- One directory. -/
theorem run_evictEntrySteps (h : key.2 ≠ document.storageKey → ∀ bytes,
      fileAt files key = some bytes → (E.read? bytes).isSome) :
    (E.evictEntrySteps document key).serial.run files =
      .ok ⟨⟩ (E.sweep document files key) := by
  unfold evictEntrySteps
  rw [serial_bind]
  refine run_bind_ok.mpr ⟨_, _, run_isDir key files, ?_⟩
  cases hdir : files.get? key with
  | none => simp [sweep, sweepsAway, fileAt, hdir]
  | some entry =>
      by_cases hown : key.2 = document.storageKey
      · simp [sweep, sweepsAway, hown]
      rw [if_neg (by simp [hown]), serial_bind]
      refine run_bind_ok.mpr ⟨_, _, run_fileExists key files, ?_⟩
      cases hfile : fileAt files key with
      | none => simp [sweep, sweepsAway, hfile]
      | some bytes =>
          obtain ⟨existing, hread⟩ := Option.isSome_iff_exists.mp (h hown bytes hfile)
          rw [if_neg (by simp), serial_bind]
          refine run_bind_ok.mpr ⟨_, _, run_readToString hfile, ?_⟩
          rw [parseSteps_of_read hread, done_bind]
          have hsweeps : E.sweepsAway document files key = invalidates document existing := by
            simp [sweepsAway, hown, hfile, stale, hread]
          rw [sweep, hsweeps]
          split
          · exact run_removeDirAll hdir
          · rfl

theorem get?_sweep (document : MaterializedArtifactDocument) (files : Files)
    (key key' : CacheKey) : (E.sweep document files key').get? key =
      if key = key' ∧ E.sweepsAway document files key then none else files.get? key := by
  unfold sweep
  by_cases heq : key = key'
  · subst heq
    cases E.sweepsAway document files key <;> simp
  · cases E.sweepsAway document files key' <;> simp [heq]

/-- The directories that were listed. -/
theorem run_forM_evictEntrySteps {keys : List CacheKey} (h : ∀ key ∈ keys,
      key.2 ≠ document.storageKey → ∀ bytes, fileAt files key = some bytes →
      (E.read? bytes).isSome) :
    ∃ files', (forM keys (E.evictEntrySteps document)).serial.run files = .ok ⟨⟩ files' ∧
      ∀ key, files'.get? key =
        if key ∈ keys ∧ E.sweepsAway document files key then none else files.get? key := by
  induction keys generalizing files with
  | nil => exact ⟨files, rfl, fun _ => by simp⟩
  | cons first keys ih =>
      rw [List.forall_mem_cons] at h
      -- what is left is what was there, so it can be read, and it is swept away later only if it
      -- would have been now
      have hfile : ∀ key, fileAt (E.sweep document files first) key =
          if key = first ∧ E.sweepsAway document files key then none else fileAt files key := by
        intro key
        rw [fileAt, get?_sweep]
        split <;> rfl
      have hsweeps : ∀ key, E.sweepsAway document (E.sweep document files first) key =
          (E.sweepsAway document files key && decide (key ≠ first)) := by
        intro key
        rw [sweepsAway, hfile]
        by_cases heq : key = first
        · subst heq
          cases hkey : E.sweepsAway document files key with
          | true => simp
          | false => simpa [sweepsAway] using hkey
        · simp [heq, sweepsAway]
      obtain ⟨files', hrest, hget⟩ := @ih (E.sweep document files first)
        fun key hkey hown bytes hbytes => h.2 key hkey hown bytes (by
          rw [hfile] at hbytes
          split at hbytes
          · cases hbytes
          · exact hbytes)
      refine ⟨files', ?_, fun key => ?_⟩
      · rw [List.forM_cons, serial_bind]
        exact run_bind_ok.mpr ⟨⟨⟩, _, run_evictEntrySteps h.1, hrest⟩
      · rw [hget, hsweeps, get?_sweep]
        by_cases heq : key = first <;> cases E.sweepsAway document files key <;> simp [heq]

/-- The siblings of the document's entry can be read, and the stale ones are removed. -/
theorem run_evictSteps (hfiles : Holds files cache) (h : E.SiblingsReadable document cache) :
    ∃ files', (E.evictSteps document).serial.run files = .ok ⟨⟩ files' ∧
      Holds files' (E.evicted document cache) ∧
      files'.get? document.cacheKey = files.get? document.cacheKey := by
  have hread : ∀ key ∈ files.keys.filter (·.1 = slug document.cacheNamespace),
      key.2 ≠ document.storageKey → ∀ bytes, fileAt files key = some bytes →
      (E.read? bytes).isSome := by
    intro key hkey hown bytes hbytes
    rw [hfiles] at hbytes
    exact h (key, bytes) (mem_siblings.mpr
      ⟨hbytes, of_decide_eq_true (List.mem_filter.mp hkey).2, hown⟩)
  obtain ⟨files', hrun, hget⟩ := run_forM_evictEntrySteps hread
  refine ⟨files', ?_, fun key => ?_, ?_⟩
  · rw [evictSteps, serial_bind]
    exact run_bind_ok.mpr ⟨_, _, run_readDir _ files, hrun⟩
  · rw [fileAt, hget, get?_evicted, ← hfiles, sweepsAway]
    by_cases hdir : key ∈ files.keys
    · by_cases hname : key.1 = slug document.cacheNamespace
      · simp only [List.mem_filter, hdir, hname, decide_true, and_self, true_and,
          decide_eq_true_eq]
        split <;> rfl
      · simp [hname, fileAt]
    · rw [← Dict.get?_eq_none] at hdir
      simp [fileAt, hdir]
  · rw [hget, if_neg]
    rintro ⟨-, hsweeps⟩
    exact (of_decide_eq_true hsweeps).1 rfl

theorem run_rebuildSteps (hfiles : Holds files cache)
    (hdir : (files.get? document.cacheKey).isSome) :
    ∃ files', (E.rebuildSteps document).serial.run files = .ok (E.rebuiltAs document) files' ∧
      Holds files' (cache.set document.cacheKey (.text (E.canon.canonicalJson document))) := by
  obtain ⟨entry, hentry⟩ := Option.isSome_iff_exists.mp hdir
  refine ⟨files.set document.cacheKey (some (.text (E.canon.canonicalJson document))), ?_,
    fun key => ?_⟩
  · rw [rebuildSteps, serial_bind]
    exact run_bind_ok.mpr ⟨⟨⟩, _, run_writeBytesAtomically hentry, rfl⟩
  · rw [fileAt, Dict.get?_set, Dict.get?_set]
    split
    · rfl
    · exact hfiles key

/-- **A document alone.** The file steps, one after the other, do what `realized` says. -/
theorem run_realizeSteps {rebuilt : MaterializedArtifactDocument} {x : Realized}
    (hrebuilt : rebuilt.cacheKey = document.cacheKey) (hfiles : Holds files cache)
    (h : E.realized document rebuilt cache = some x) (loadMs : Nat) :
    ∃ realization files', (E.realizeSteps document rebuilt loadMs).serial.run files =
        .ok realization files' ∧ realization.disposition = x.disposition ∧
      realization.rebuildMs = x.rebuildMs ∧ Holds files' x.cache := by
  rw [realized] at h
  split at h
  case isFalse => cases h
  case isTrue hsiblings =>
  obtain ⟨files₀, hcreate, hsame, -, hown⟩ := run_createDirAll document.cacheKey files
  have hfiles₀ : Holds files₀ cache := fun key => (hsame key).trans (hfiles key)
  obtain ⟨files₁, hevict, hfiles₁, hown₁⟩ := run_evictSteps hfiles₀ hsiblings
  have hdir : (files₁.get? rebuilt.cacheKey).isSome := by
    rw [hrebuilt, hown₁, hown]
    rfl
  have hexists := run_fileExists document.cacheKey files₀
  rw [hfiles₀] at hexists
  unfold realizeSteps
  simp only [serial_bind]
  cases hget : cache.get? document.cacheKey with
  | none =>
      rw [hget] at h hexists
      cases h
      obtain ⟨files', hrebuild, hfiles'⟩ := run_rebuildSteps (E := E) hfiles₁ hdir
      refine ⟨E.rebuiltAs rebuilt, files', run_bind_ok.mpr ⟨_, _, hcreate,
        run_bind_ok.mpr ⟨_, _, hexists, ?_⟩⟩, rfl, rfl, hfiles'⟩
      rw [if_neg (by simp), serial_bind]
      exact run_bind_ok.mpr ⟨_, _, hevict, hrebuild⟩
  | some bytes =>
      rw [hget] at h hexists
      obtain ⟨existing, hread, h⟩ := Option.map_eq_some_iff.mp h
      have hload : fileAt files₁ document.cacheKey = some bytes := by
        rw [hfiles₁, get?_evicted_cacheKey, hget]
      by_cases hidentity : sameArtifactDocumentIdentity existing document = true
      · rw [if_pos hidentity] at h
        cases h
        refine ⟨reuse document existing loadMs, files₁, run_bind_ok.mpr ⟨_, _, hcreate,
          run_bind_ok.mpr ⟨_, _, hexists, ?_⟩⟩, rfl, rfl, hfiles₁⟩
        rw [if_pos Option.isSome_some, serial_bind]
        refine run_bind_ok.mpr ⟨_, _, hevict, ?_⟩
        rw [serial_bind]
        refine run_bind_ok.mpr ⟨_, _, run_readToString hload, ?_⟩
        rw [parseSteps_of_read hread, done_bind, if_pos hidentity]
        rfl
      · rw [if_neg hidentity] at h
        cases h
        -- the second eviction finds nothing to remove
        obtain ⟨files₂, hagain, hfiles₂, hown₂⟩ :=
          run_evictSteps hfiles₁ (siblingsReadable_evicted hsiblings)
        rw [evicted_evicted] at hfiles₂
        obtain ⟨files', hrebuild, hfiles'⟩ := @run_rebuildSteps E rebuilt _ _ hfiles₂
          (by rw [hrebuilt, hown₂, hown₁, hown]; rfl)
        refine ⟨E.rebuiltAs rebuilt, files', run_bind_ok.mpr ⟨_, _, hcreate,
          run_bind_ok.mpr ⟨_, _, hexists, ?_⟩⟩, rfl, rfl, hfiles'⟩
        rw [if_pos Option.isSome_some, serial_bind]
        refine run_bind_ok.mpr ⟨_, _, hevict, ?_⟩
        rw [serial_bind]
        refine run_bind_ok.mpr ⟨_, _, run_readToString hload, ?_⟩
        rw [parseSteps_of_read hread, done_bind, if_neg hidentity, serial_bind]
        exact run_bind_ok.mpr ⟨_, _, hagain, hrebuild⟩

/-! ## Documents among others -/

/-- Every file of the documents' namespace directories can be read, and none is evicted for one of
    them but its own. -/
def Calm (E : Executor) (documents : List MaterializedArtifactDocument) (files : Files) : Prop :=
  ∀ d ∈ documents, ∀ key bytes, key.1 = slug d.cacheNamespace → fileAt files key = some bytes →
    ∃ existing, E.read? bytes = some existing ∧ (key ≠ d.cacheKey → invalidates d existing = false)

/-- What a step for a document may do: make the directory of its entry, or write its file. -/
structure OwnStep (E : Executor) (document : MaterializedArtifactDocument) (files files' : Files) :
    Prop where
  other : ∀ key ≠ document.cacheKey, files'.get? key = files.get? key
  own : files'.get? document.cacheKey = some (fileAt files document.cacheKey) ∨
    files' = files ∨ ∃ ms, files'.get? document.cacheKey =
      some (some (.text (E.canon.canonicalJson (document.observe ms))))

/-- What steps for other documents leave as it is: the own entry, that an entry has a file, and
    calm. -/
structure Leaves (E : Executor) (documents : List MaterializedArtifactDocument)
    (own : Option CacheKey) (files files' : Files) : Prop where
  own : ∀ key, own = some key → files'.get? key = files.get? key
  file : ∀ key, (fileAt files key).isSome → (fileAt files' key).isSome
  calm : E.Calm documents files → E.Calm documents files'

instance (documents : List MaterializedArtifactDocument) (own : Option CacheKey) :
    IsPreorder Files (E.Leaves documents own) where
  refl _ := ⟨fun _ _ => rfl, fun _ => id, id⟩
  trans _ _ _ h h' := ⟨fun key hkey => (h'.own key hkey).trans (h.own key hkey),
    fun key hkey => h'.file key (h.file key hkey), fun hcalm => h'.calm (h.calm hcalm)⟩

section Among

variable {documents : List MaterializedArtifactDocument} {files' : Files}

/-- The files after a step for a document. -/
theorem OwnStep.fileAt_cases (h : E.OwnStep document files files') (key : CacheKey) :
    fileAt files' key = fileAt files key ∨ key = document.cacheKey ∧ ∃ ms, fileAt files' key =
      some (.text (E.canon.canonicalJson (document.observe ms))) := by
  by_cases hkey : key = document.cacheKey
  · subst hkey
    rcases h.own with hown | rfl | ⟨ms, hown⟩
    · exact .inl (by rw [fileAt, hown]; rfl)
    · exact .inl rfl
    · exact .inr ⟨rfl, ms, by rw [fileAt, hown]; rfl⟩
  · exact .inl (congrArg Option.join (h.other key hkey))

/-- A step for one document leaves the others alone. -/
theorem OwnStep.leaves (hround : E.RoundTrip) (hapart : documents.Pairwise Apart)
    (hmem : document ∈ documents) {own : Option CacheKey} (hown : own ≠ some document.cacheKey)
    (h : E.OwnStep document files files') : E.Leaves documents own files files' := by
  refine ⟨fun key hkey => h.other key fun heq => hown (heq ▸ hkey), fun key hfile => ?_, ?_⟩
  · rcases h.fileAt_cases key with heq | ⟨-, ms, heq⟩ <;> rw [heq]
    · exact hfile
    · rfl
  · intro hcalm d hd key bytes hdir hfile
    rcases h.fileAt_cases key with heq | ⟨rfl, ms, heq⟩ <;> rw [heq] at hfile
    · exact hcalm d hd key bytes hdir hfile
    · cases hfile
      refine ⟨_, read?_canonicalJson hround _, fun hne => ?_⟩
      -- what was written is not invalidated by a document with another entry
      exact (hapart.forall hd hmem fun heq => hne (heq ▸ rfl)).2

/-- The own entry while the document is realized. -/
def Own (E : Executor) (documents : List MaterializedArtifactDocument)
    (document : MaterializedArtifactDocument) (entry : Option Bytes) (files : Files) : Prop :=
  E.Calm documents files ∧ files.get? document.cacheKey = some entry

variable {entry : Option Bytes}

theorem stable_own : Stable (E.Leaves documents (some document.cacheKey))
    (E.Own documents document entry) :=
  fun _ _ hleaves h => ⟨hleaves.calm h.1, (hleaves.own _ rfl).trans h.2⟩

/-- A step that only looks at the files. -/
theorem OwnStep.refl (document : MaterializedArtifactDocument) (files : Files) :
    E.OwnStep document files files := ⟨fun _ _ => rfl, .inr (.inl rfl)⟩

/-- In a calm cache the directories of the others are looked at and left. -/
theorem evictEntrySteps_ensures (hmem : document ∈ documents)
    (hdir : key.1 = slug document.cacheNamespace) (h : E.Own documents document entry files) :
    (E.evictEntrySteps document key).Ensures (E.Leaves documents (some document.cacheKey))
      (E.OwnStep document) (fun _ => E.Own documents document entry) files := by
  have hdone : ∀ files, E.Own documents document entry files →
      (pure ⟨⟩ : Steps Unit).Ensures (E.Leaves documents (some document.cacheKey))
        (E.OwnStep document) (fun _ => E.Own documents document entry) files :=
    fun files h => ensures_done stable_own h
  refine Ensures.bind (ensures_atomic stable_own (fun _ => stable_own) h
    fun t ht => ⟨_, t, rfl, .refl document t, ht⟩) fun isDir files h => ?_
  split
  · exact hdone files h
  next hskip =>
  have hown : key ≠ document.cacheKey := by
    rintro rfl
    simp [MaterializedArtifactDocument.cacheKey] at hskip
  -- the file that is there when it is looked for is still there when it is read
  have hseen : ∀ found, Stable (E.Leaves documents (some document.cacheKey))
      fun files => E.Own documents document entry files ∧
        (found = true → (fileAt files key).isSome) :=
    fun found s s' hleaves h => ⟨stable_own s s' hleaves h.1, fun hf => hleaves.file key (h.2 hf)⟩
  refine Ensures.bind (ensures_atomic stable_own hseen h
    fun t ht => ⟨_, t, rfl, .refl document t, ht, id⟩) fun found files h => ?_
  split
  · exact hdone files h.1
  next hfound =>
  have hfound : found = true := by simpa using hfound
  refine Ensures.bind (ensures_atomic
    (Q := fun bytes files => E.Own documents document entry files ∧
      ∃ existing, E.read? bytes = some existing ∧ invalidates document existing = false)
    (hseen found) (fun bytes s s' hleaves h => ⟨stable_own s s' hleaves h.1, h.2⟩) h
    fun t ht => ?_) fun bytes files h => ?_
  · obtain ⟨bytes, hbytes⟩ := Option.isSome_iff_exists.mp (ht.2 hfound)
    obtain ⟨existing, hread, hkept⟩ := ht.1.1 document hmem key bytes hdir hbytes
    refine ⟨bytes, t, ?_, .refl document t, ht.1, existing, hread, hkept hown⟩
    refine run_bind_ok.mpr ⟨t, t, rfl, ?_⟩
    rw [hbytes]
    rfl
  · obtain ⟨hstill, existing, hread, hkept⟩ := h
    rw [parseSteps_of_read hread, done_bind, hkept]
    exact hdone files hstill

theorem evictSteps_ensures (hmem : document ∈ documents)
    (h : E.Own documents document entry files) :
    (E.evictSteps document).Ensures (E.Leaves documents (some document.cacheKey))
      (E.OwnStep document) (fun _ => E.Own documents document entry) files := by
  refine Ensures.bind (ensures_atomic
    (Q := fun (keys : List CacheKey) files => E.Own documents document entry files ∧
      ∀ key ∈ keys, key.1 = slug document.cacheNamespace) stable_own
    (fun keys s s' hleaves h => ⟨stable_own s s' hleaves h.1, h.2⟩) h
    fun t ht => ⟨_, t, rfl, .refl document t, ht, ?_⟩) fun keys files h => ?_
  · exact fun key hkey => of_decide_eq_true (List.mem_filter.mp hkey).2
  · exact ensures_forM stable_own h.1 fun key hkey t ht =>
      evictEntrySteps_ensures hmem (h.2 key hkey) ht

/-- The own entry when the document is realized. -/
def Settled (document : MaterializedArtifactDocument) (disposition : MaterializationDisposition)
    (realization : Realization) (files : Files) : Prop :=
  realization.disposition = disposition ∧ (fileAt files document.cacheKey).isSome

theorem stable_settled (disposition : MaterializationDisposition) (realization : Realization) :
    Stable (E.Leaves documents (some document.cacheKey))
      (Settled document disposition realization) :=
  fun _ _ hleaves h => ⟨h.1, hleaves.file _ h.2⟩

theorem rebuildSteps_ensures (ms : Nat) (h : E.Own documents document entry files) :
    (E.rebuildSteps (document.observe ms)).Ensures (E.Leaves documents (some document.cacheKey))
      (E.OwnStep document) (Settled document .executed) files := by
  refine Ensures.bind (Q := fun _ files => (fileAt files document.cacheKey).isSome)
    (Ensures.bind (Q := fun _ => E.Own documents document entry)
      (ensures_atomic stable_own (fun _ => stable_own) h fun t ht => ?_)
      fun _ files h => ensures_atomic stable_own (fun _ s s' hleaves => hleaves.file _) h
        fun t ht => ?_)
    fun _ files h => ensures_done (stable_settled _ _) ⟨rfl, h⟩
  · refine ⟨⟨⟩, t, run_bind_ok.mpr ⟨t, t, rfl, ?_⟩, .refl document t, ht⟩
    rw [cacheKey_observe, ht.2]
    rfl
  · refine ⟨⟨⟩, t.set document.cacheKey _, run_bind_ok.mpr ⟨t, t, rfl, ?_⟩,
      ⟨fun key hkey => ?_, .inr (.inr ⟨ms, Dict.get?_set_self ..⟩)⟩, ?_⟩
    · rw [cacheKey_observe, ht.2]
      rfl
    · rw [Dict.get?_set, if_neg hkey]
    · rw [fileAt, Dict.get?_set_self]
      rfl

/-- The disposition of a document, from what its entry holds. -/
def dispositionFor (E : Executor) (document : MaterializedArtifactDocument)
    (entry : Option Bytes) : MaterializationDisposition :=
  if (entry.bind E.read?).any (sameArtifactDocumentIdentity · document) then .reused
  else .executed

/-- **A document among others.** In a calm cache its steps do not fail, whatever the others do to
    their own entries in between, and its disposition is that of the entry it finds. -/
theorem realizeSteps_ensures (hmem : document ∈ documents) (ms loadMs : Nat)
    (h : E.Calm documents files) :
    (E.realizeSteps document (document.observe ms) loadMs).Ensures
      (E.Leaves documents (some document.cacheKey)) (E.OwnStep document)
      (Settled document (E.dispositionFor document (fileAt files document.cacheKey))) files := by
  generalize hentry : fileAt files document.cacheKey = entry
  have hwrite : ∀ files, E.Own documents document entry files →
      E.dispositionFor document entry = .executed →
      (E.evictSteps document >>= fun _ => E.rebuildSteps (document.observe ms)).Ensures
        (E.Leaves documents (some document.cacheKey)) (E.OwnStep document)
        (Settled document (E.dispositionFor document entry)) files := by
    intro files h hexecuted
    rw [hexecuted]
    exact (evictSteps_ensures hmem h).bind fun _ _ h => rebuildSteps_ensures ms h
  -- the directory of the entry
  refine Ensures.bind (Q := fun _ => E.Own documents document entry)
    (ensures_atomic (P := fun files => E.Calm documents files ∧
      fileAt files document.cacheKey = entry)
      (fun s s' hleaves h => ⟨hleaves.calm h.1, ?_⟩) (fun _ => stable_own) ⟨h, hentry⟩
      fun t ht => ?_) fun _ files h => ?_
  · rw [fileAt, hleaves.own _ rfl]
    exact h.2
  · obtain ⟨t', hrun, hfile, hother, hown⟩ := run_createDirAll document.cacheKey t
    rw [createDirAll, serial_atomic] at hrun
    refine ⟨⟨⟩, t', hrun, ⟨hother, .inl hown⟩, fun d hd key bytes hdir hbytes => ?_, ?_⟩
    · exact ht.1 d hd key bytes hdir ((hfile key).symm.trans hbytes)
    · rw [hown, ht.2]
  -- whether it has a file
  refine Ensures.bind (ensures_atomic
    (Q := fun found files => E.Own documents document entry files ∧ found = entry.isSome)
    stable_own (fun found s s' hleaves h => ⟨stable_own s s' hleaves h.1, h.2⟩) h
    fun t ht => ⟨_, t, rfl, .refl document t, ht, ?_⟩) fun found files h => ?_
  · rw [fileAt, ht.2]
    rfl
  obtain ⟨h, rfl⟩ := h
  cases entry with
  | none => exact hwrite files h rfl
  | some bytes =>
      obtain ⟨existing, hread, -⟩ := h.1 document hmem document.cacheKey bytes rfl (by
        rw [fileAt, h.2]
        rfl)
      rw [if_pos Option.isSome_some]
      refine (evictSteps_ensures hmem h).bind fun _ files h => ?_
      refine Ensures.bind (ensures_atomic
        (Q := fun found files => E.Own documents document (some bytes) files ∧ found = bytes)
        stable_own (fun found s s' hleaves h => ⟨stable_own s s' hleaves h.1, h.2⟩) h
        fun t ht => ⟨bytes, t, run_bind_ok.mpr ⟨t, t, rfl, ?_⟩, .refl document t, ht, rfl⟩)
        fun found files h => ?_
      · rw [fileAt, ht.2]
        rfl
      obtain ⟨h, rfl⟩ := h
      rw [parseSteps_of_read hread, done_bind]
      split
      · next hsame =>
          refine ensures_done (stable_settled _ _) ⟨?_, ?_⟩
          · simp [dispositionFor, hread, hsame, reuse]
          · rw [fileAt, h.2]
            rfl
      · next hsame => exact hwrite files h (by simp [dispositionFor, hread, hsame])

end Among

/-! ## One after the other -/

section Sequence

variable {x : Realized} {ms : Nat}

/-- A document that is realized has an entry that can be read, or none. -/
theorem readable_of_realized {rebuilt : MaterializedArtifactDocument}
    (h : E.realized document rebuilt cache = some x)
    (hget : cache.get? document.cacheKey = some bytes) : (E.read? bytes).isSome := by
  rw [realized] at h
  split at h
  · rw [hget] at h
    obtain ⟨existing, hread, -⟩ := Option.map_eq_some_iff.mp h
    rw [hread]
    rfl
  · cases h

/-- The time that is observed changes neither the disposition nor which entries there are. -/
theorem realized_observe (h : E.realized document (document.observe ms) cache = some x)
    (ms' : Nat) : ∃ x', E.realized document (document.observe ms') cache = some x' ∧
      x'.disposition = x.disposition ∧
      ∀ key, (x'.cache.get? key).isSome = (x.cache.get? key).isSome := by
  have hset : ∀ key (cache : Cache) bytes bytes',
      ((cache.set document.cacheKey bytes').get? key).isSome =
        ((cache.set document.cacheKey bytes).get? key).isSome := by
    intro key cache bytes bytes'
    rw [Dict.get?_set, Dict.get?_set]
    split <;> rfl
  rw [realized] at h ⊢
  split at h
  case isFalse => cases h
  case isTrue hsiblings =>
    rw [if_pos hsiblings]
    cases hget : cache.get? document.cacheKey with
    | none =>
        rw [hget] at h
        cases h
        exact ⟨_, rfl, rfl, fun key => hset key _ _ _⟩
    | some bytes =>
        rw [hget] at h
        obtain ⟨existing, hread, rfl⟩ := Option.map_eq_some_iff.mp h
        dsimp only
        rw [hread, Option.map_some]
        split
        · exact ⟨_, rfl, rfl, fun _ => rfl⟩
        · exact ⟨_, rfl, rfl, fun key => hset key _ _ _⟩

/-- No sibling of the document's entry is stale. -/
def Fresh (E : Executor) (document : MaterializedArtifactDocument) (cache : Cache) : Prop :=
  ∀ entry ∈ siblings document cache, E.stale document entry = false

/-- Where nothing is stale, the disposition is that of the entry, and other entries stay. -/
theorem realized_of_fresh (h : E.realized document (document.observe ms) cache = some x)
    (hfresh : E.Fresh document cache) :
    x.disposition = E.dispositionFor document (cache.get? document.cacheKey) ∧
      (∀ key ≠ document.cacheKey, x.cache.get? key = cache.get? key) ∧
      (x.cache.get? document.cacheKey).isSome := by
  have hother : ∀ key ≠ document.cacheKey, x.cache.get? key = cache.get? key := by
    intro key hkey
    rw [get?_realized h hkey, evicted_of_none_stale hfresh]
  obtain ⟨-, ⟨bytes, existing, hget, hread, hsame, rfl⟩ | ⟨hdiffers, rfl⟩⟩ := realized_cases h
  · refine ⟨?_, hother, ?_⟩
    · simp [dispositionFor, hget, hread, hsame]
    · rw [get?_evicted_cacheKey, hget]
      rfl
  · refine ⟨?_, hother, ?_⟩
    · rw [dispositionFor, if_neg]
      rw [Option.any_eq_true]
      rintro ⟨existing, hread, hsame⟩
      obtain ⟨bytes, hget, hread⟩ := Option.bind_eq_some_iff.mp hread
      rw [hdiffers bytes existing hget hread] at hsame
      cases hsame
    · rw [Dict.get?_set_self]
      rfl

/-- What is fresh stays fresh while a document with another entry is realized. -/
theorem Fresh.step (hround : E.RoundTrip) {document' : MaterializedArtifactDocument}
    (hfresh : E.Fresh document cache)
    (h : E.realized document' (document'.observe ms) cache = some x)
    (hapart : Apart document document') : E.Fresh document x.cache := by
  intro entry hentry
  rcases sibling_cases hround h hentry with hold | hread
  · exact hfresh entry hold
  · rw [stale, hread]
    exact hapart.2

end Sequence

/-! ## Nodes -/

section Nodes

variable {outcome : PlanningOutcome} {nodes : List MaterializationNode} {cache' : Cache}
  {results : List NodeExecutionResult}

/-- The document of the node's artifact. -/
def documentOf (E : Executor) (outcome : PlanningOutcome) (node : MaterializationNode) :
    Option MaterializedArtifactDocument :=
  (E.artifactOf outcome node).map fun artifact => E.artifactDocument outcome artifact.1 artifact.2

/-- The steps of a node in the cache, with the times that are measured, and its disposition. -/
def nodeSteps (E : Executor) (outcome : PlanningOutcome) (node : MaterializationNode)
    (observedMs loadMs : Nat) : Steps (Option MaterializationDisposition) :=
  match E.documentOf outcome node with
  | none => pure none
  | some document => do
      let realization ← E.realizeSteps document (document.observe (max observedMs 1)) loadMs
      return some realization.disposition

/-- The disposition of a node, from what the entry of its document holds. -/
def plannedDisposition (E : Executor) (outcome : PlanningOutcome) (cache : Cache)
    (node : MaterializationNode) : Option MaterializationDisposition :=
  (E.documentOf outcome node).map fun d => E.dispositionFor d (cache.get? d.cacheKey)

theorem mem_documentsOf {document : MaterializedArtifactDocument} :
    document ∈ E.documentsOf outcome nodes ↔
      ∃ node ∈ nodes, E.documentOf outcome node = some document := List.mem_filterMap

/-- What a sequence of nodes has found and has left, where nothing is stale. -/
structure QuietRun (E : Executor) (outcome : PlanningOutcome) (nodes : List MaterializationNode)
    (cache : Cache) (results : List NodeExecutionResult) (cache' : Cache) : Prop where
  readable : ∀ d ∈ E.documentsOf outcome nodes, ∀ key bytes, key.1 = slug d.cacheNamespace →
    cache.get? key = some bytes → (E.read? bytes).isSome
  dispositions : results.map (·.artifact.map (·.disposition)) =
    nodes.map (E.plannedDisposition outcome cache)
  entries : ∀ key, (cache'.get? key).isSome ↔
    (cache.get? key).isSome ∨ ∃ d ∈ E.documentsOf outcome nodes, key = d.cacheKey

/-- Nodes run like this one after the other. -/
theorem NodesRun.quietRun (hround : E.RoundTrip)
    (h : E.NodesRun outcome nodes cache results cache')
    (hapart : (E.documentsOf outcome nodes).Pairwise Apart)
    (hfresh : ∀ d ∈ E.documentsOf outcome nodes, E.Fresh d cache) :
    E.QuietRun outcome nodes cache results cache' := by
  induction h with
  | nil => exact ⟨fun _ h => (by cases h), rfl, by simp [documentsOf]⟩
  | @cons node nodes cache cache₁ cache' result results hnode hrest ih =>
      cases hartifact : E.artifactOf outcome node with
      | none =>
          obtain ⟨hresult, rfl⟩ := hnode.of_none hartifact
          rw [documentsOf_cons_none hartifact] at hapart hfresh
          have hquiet := ih hapart hfresh
          refine ⟨?_, ?_, ?_⟩
          · rw [documentsOf_cons_none hartifact]
            exact hquiet.readable
          · rw [List.map_cons, List.map_cons, hresult, hquiet.dispositions, plannedDisposition,
              documentOf, hartifact]
            rfl
          · rw [documentsOf_cons_none hartifact]
            exact hquiet.entries
      | some artifact =>
          obtain ⟨q, identity⟩ := artifact
          obtain ⟨r, ms, hresult, -, -, hrealized⟩ := hnode.of_some hartifact
          rw [documentsOf_cons_some hartifact, List.pairwise_cons] at hapart
          rw [documentsOf_cons_some hartifact, List.forall_mem_cons] at hfresh
          obtain ⟨hdisposition, hother, hown⟩ := realized_of_fresh hrealized hfresh.1
          dsimp only at hdisposition hother hown
          have hquiet := ih hapart.2 fun d hd =>
            (hfresh.2 d hd).step hround hrealized (symm (hapart.1 d hd))
          have hsiblings := (realized_cases hrealized).1
          refine ⟨fun d hd key bytes hdir hget => ?_, ?_, ?_⟩
          · by_cases hkey : key = (E.artifactDocument outcome q identity).cacheKey
            · exact readable_of_realized hrealized (hkey ▸ hget)
            rw [documentsOf_cons_some hartifact] at hd
            rcases List.mem_cons.mp hd with rfl | hd
            · exact hsiblings (key, bytes)
                (mem_siblings.mpr ⟨hget, hdir, fun heq => hkey (Prod.ext hdir heq)⟩)
            · exact hquiet.readable d hd key bytes hdir ((hother key hkey).trans hget)
          · rw [List.map_cons, List.map_cons, hresult, hquiet.dispositions]
            congr 1
            · rw [plannedDisposition, documentOf, hartifact, Option.map_some, Option.map_some,
                Option.map_some, hdisposition]
            · refine List.map_congr_left fun node' hnode' => ?_
              unfold plannedDisposition
              cases hd : E.documentOf outcome node' with
              | none => rfl
              | some d =>
                  rw [Option.map_some, Option.map_some, hother d.cacheKey
                    (hapart.1 d (mem_documentsOf.mpr ⟨node', hnode', hd⟩)).1.symm]
          · intro key
            rw [hquiet.entries, documentsOf_cons_some hartifact]
            by_cases hkey : key = (E.artifactDocument outcome q identity).cacheKey
            · simp [hkey, hown]
            · simp [hother key hkey, hkey]

/-- The nodes of a batch as threads, with the times that each of them measures. -/
def batchThreads (E : Executor) (outcome : PlanningOutcome) (batch : List MaterializationNode)
    (times : Fin batch.length → Nat × Nat) (files : Files) :
    Config (Fin batch.length) Files MaterializationError (Option MaterializationDisposition) :=
  ⟨fun i => E.nodeSteps outcome (batch.get i) (times i).1 (times i).2, files⟩

/-- Every thread is done with the disposition of the node's result, and the entries are those of
    the cache. -/
def EndsLike {n : Nat} (results : List NodeExecutionResult) (cache : Cache)
    (c : Config (Fin n) Files MaterializationError (Option MaterializationDisposition)) : Prop :=
  List.ofFn c.threads = results.map (fun result => .done (result.artifact.map (·.disposition))) ∧
    ∀ key, (fileAt c.state key).isSome ↔ (cache.get? key).isSome

variable {times : Fin nodes.length → Nat × Nat}
  {c : Config (Fin nodes.length) Files MaterializationError (Option MaterializationDisposition)}

/-- A node alone. -/
theorem run_nodeSteps {node : MaterializationNode} {result : NodeExecutionResult}
    (h : E.NodeRun outcome node cache result cache') (hfiles : Holds files cache)
    (observedMs loadMs : Nat) :
    ∃ files', (E.nodeSteps outcome node observedMs loadMs).serial.run files =
        .ok (result.artifact.map (·.disposition)) files' ∧
      ∀ key, (fileAt files' key).isSome ↔ (cache'.get? key).isSome := by
  unfold nodeSteps documentOf
  cases hartifact : E.artifactOf outcome node with
  | none =>
      obtain ⟨hresult, rfl⟩ := h.of_none hartifact
      rw [hresult]
      exact ⟨files, rfl, fun key => by rw [hfiles]⟩
  | some artifact =>
      obtain ⟨r, ms, hresult, -, -, hrealized⟩ := h.of_some hartifact
      obtain ⟨x, hx, hdisposition, hentries⟩ := realized_observe hrealized (max observedMs 1)
      obtain ⟨realization, files', hrun, hsame, -, hfiles'⟩ :=
        run_realizeSteps (cacheKey_observe _ _) hfiles hx loadMs
      refine ⟨files', ?_, fun key => ?_⟩
      · rw [hresult, Option.map_some, Option.map_some, serial_bind]
        refine run_bind_ok.mpr ⟨_, _, hrun, ?_⟩
        rw [hsame, hdisposition]
        rfl
      · rw [hfiles', hentries]

/-- A batch of one node. -/
theorem endsLike_of_singleton {node : MaterializationNode} {times : Fin [node].length → Nat × Nat}
    {c : Config (Fin [node].length) Files MaterializationError (Option MaterializationDisposition)}
    (h : E.NodesRun outcome [node] cache results cache') (hfiles : Holds files cache)
    (hrun : Interleaves (E.batchThreads outcome [node] times files) c)
    (hend : ∀ c', ¬ Step c c') : EndsLike results cache' c := by
  obtain _ | ⟨hnode, hrest⟩ := h
  cases hrest
  obtain ⟨files', hserial, hentries⟩ := run_nodeSteps hnode hfiles (times 0).1 (times 0).2
  have : Subsingleton (Fin [node].length) := inferInstanceAs (Subsingleton (Fin 1))
  have hrun := (hrun.serial 0).trans hserial
  cases hthread : c.threads 0 with
  | done disposition =>
      rw [hthread] at hrun
      cases hrun
      refine ⟨?_, hentries⟩
      rw [List.ofFn_succ, hthread]
      rfl
  | raised e =>
      rw [hthread] at hrun
      cases hrun
  | step act next => exact absurd (.mk 0 hthread) (hend _)

/-- What a node guarantees: only steps for its own document. -/
def Guarantee (E : Executor) (outcome : PlanningOutcome) (node : MaterializationNode)
    (files files' : Files) : Prop :=
  ∃ d, E.documentOf outcome node = some d ∧ E.OwnStep d files files'

/-- What it relies on: its own entry is left alone, and the others stay calm. -/
abbrev Rely (E : Executor) (outcome : PlanningOutcome)
    (documents : List MaterializedArtifactDocument) (node : MaterializationNode) :
    Files → Files → Prop :=
  E.Leaves documents ((E.documentOf outcome node).map (·.cacheKey))

/-- What it ends with. -/
def Ends (E : Executor) (outcome : PlanningOutcome) (cache : Cache) (node : MaterializationNode)
    (disposition : Option MaterializationDisposition) (files : Files) : Prop :=
  disposition = E.plannedDisposition outcome cache node ∧
    ∀ d, E.documentOf outcome node = some d → (fileAt files d.cacheKey).isSome

theorem Guarantee.rely (hround : E.RoundTrip)
    {documents : List MaterializedArtifactDocument} (hapart : documents.Pairwise Apart)
    {node node' : MaterializationNode} {files' : Files}
    (hmem : ∀ d, E.documentOf outcome node = some d → d ∈ documents)
    (hne : ∀ d d', E.documentOf outcome node = some d → E.documentOf outcome node' = some d' →
      Apart d d')
    (h : E.Guarantee outcome node files files') : E.Rely outcome documents node' files files' := by
  obtain ⟨d, hd, hstep⟩ := h
  refine hstep.leaves hround hapart (hmem d hd) fun hkey => ?_
  obtain ⟨d', hd', hkey⟩ := Option.map_eq_some_iff.mp hkey
  exact (hne d d' hd hd').1 hkey.symm

theorem nodeSteps_ensures {documents : List MaterializedArtifactDocument}
    {node : MaterializationNode} (hmem : ∀ d, E.documentOf outcome node = some d → d ∈ documents)
    (hfiles : Holds files cache) (hcalm : E.Calm documents files) (observedMs loadMs : Nat) :
    (E.nodeSteps outcome node observedMs loadMs).Ensures (E.Rely outcome documents node)
      (E.Guarantee outcome node) (E.Ends outcome cache node) files := by
  unfold nodeSteps Rely Guarantee Ends plannedDisposition
  cases hd : E.documentOf outcome node with
  | none => exact fun _ _ => ⟨rfl, fun _ h => by cases h⟩
  | some d =>
      have hrun := realizeSteps_ensures (hmem d hd) (max observedMs 1) loadMs hcalm
      rw [hfiles] at hrun
      refine (hrun.imp fun _ _ h => ⟨d, rfl, h⟩).bind fun realization files h => ?_
      refine fun files' hleaves => ⟨congrArg some h.1, ?_⟩
      rintro _ ⟨⟩
      exact hleaves.file _ h.2

/-- A batch in a cache without stale entries. -/
theorem endsLike_of_fresh (hround : E.RoundTrip) (hnodup : nodes.Nodup)
    (h : E.NodesRun outcome nodes cache results cache')
    (hapart : (E.documentsOf outcome nodes).Pairwise Apart)
    (hfresh : ∀ d ∈ E.documentsOf outcome nodes, E.Fresh d cache) (hfiles : Holds files cache)
    (hrun : Interleaves (E.batchThreads outcome nodes times files) c)
    (hend : ∀ c', ¬ Step c c') : EndsLike results cache' c := by
  have hquiet := h.quietRun hround hapart hfresh
  have hcalm : E.Calm (E.documentsOf outcome nodes) files := by
    intro d hd key bytes hdir hfile
    rw [hfiles] at hfile
    obtain ⟨existing, hread⟩ :=
      Option.isSome_iff_exists.mp (hquiet.readable d hd key bytes hdir hfile)
    refine ⟨existing, hread, fun hkey => ?_⟩
    have hstale := hfresh d hd (key, bytes)
      (mem_siblings.mpr ⟨hfile, hdir, fun heq => hkey (Prod.ext hdir heq)⟩)
    rwa [stale, hread] at hstale
  have hmem : ∀ i d, E.documentOf outcome (nodes.get i) = some d →
      d ∈ E.documentsOf outcome nodes := fun i d hd =>
    mem_documentsOf.mpr ⟨_, nodes.get_mem i, hd⟩
  have hother : ∀ i j, i ≠ j → ∀ d d', E.documentOf outcome (nodes.get i) = some d →
      E.documentOf outcome (nodes.get j) = some d' → Apart d d' := by
    intro i j hij d d' hd hd'
    have hpairs : nodes.Pairwise fun node node' => ∀ d, E.documentOf outcome node = some d →
        ∀ d', E.documentOf outcome node' = some d' → Apart d d' :=
      List.pairwise_filterMap.mp hapart
    have : Std.Symm fun node node' => ∀ d, E.documentOf outcome node = some d →
        ∀ d', E.documentOf outcome node' = some d' → Apart d d' :=
      ⟨fun _ _ h d hd d' hd' => symm (h d' hd' d hd)⟩
    exact hpairs.forall (nodes.get_mem i) (nodes.get_mem j)
      (fun heq => hij (hnodup.injective_get heq)) d hd d' hd'
  obtain ⟨hensures, hkeep⟩ := hrun.ensures (R := fun i => E.Rely outcome
      (E.documentsOf outcome nodes) (nodes.get i)) (G := fun i => E.Guarantee outcome (nodes.get i))
    (Q := fun i => E.Ends outcome cache (nodes.get i))
    (fun i j hij s s' hstep => hstep.rely hround hapart (hmem i) (hother i j hij))
    (fun i => nodeSteps_ensures (hmem i) hfiles hcalm _ _)
  have hdone := exists_done hensures hend
  refine ⟨?_, fun key => ?_⟩
  · have hthreads : c.threads =
        fun i => .done (E.plannedDisposition outcome cache (nodes.get i)) := by
      funext i
      obtain ⟨disposition, hi, rfl, -⟩ := hdone i
      exact hi
    calc List.ofFn c.threads
        = (List.ofFn nodes.get).map fun node =>
            .done (E.plannedDisposition outcome cache node) := by
          rw [hthreads, List.map_ofFn]
          rfl
      _ = (results.map (·.artifact.map (·.disposition))).map .done := by
          rw [List.ofFn_get, hquiet.dispositions, List.map_map]
          rfl
      _ = _ := List.map_map
  · -- files are neither removed nor written but for the documents
    have hfiles' := hkeep (fun s => ∀ key, ((fileAt files key).isSome → (fileAt s key).isSome) ∧
        ((fileAt s key).isSome → (fileAt files key).isSome ∨
          ∃ d ∈ E.documentsOf outcome nodes, key = d.cacheKey)) ?_ (fun key => ⟨id, .inl⟩) key
    · rw [hquiet.entries, ← hfiles]
      refine ⟨hfiles'.2, ?_⟩
      rintro (hold | ⟨d, hd, rfl⟩)
      · exact hfiles'.1 hold
      · obtain ⟨node, hnode, hd⟩ := mem_documentsOf.mp hd
        obtain ⟨i, rfl⟩ := List.get_of_mem hnode
        obtain ⟨_, -, -, hfile⟩ := hdone i
        exact hfile d hd
    · rintro i s s' ⟨d, hd, hstep⟩ hs key
      rcases hstep.fileAt_cases key with heq | ⟨rfl, ms, heq⟩ <;> rw [heq]
      · exact hs key
      · exact ⟨fun _ => rfl, fun _ => .inr ⟨d, hmem i d hd, rfl⟩⟩

end Nodes

end Executor

/-! ## Resolved plans -/

namespace Resolution

open Executor

variable {E : Executor} {host : PlannerHostSnapshot} {raw : RawRequest} {scope : BuildScope}
  (r : Resolution E.canon E.vllm host raw scope)

/-- The documents of any nodes of the plan have their own entries. -/
theorem apart_documentsOf (hC : E.canon.CollisionFree) {batch : List MaterializationNode}
    (hnodup : batch.Nodup) (hnodes : ∀ node ∈ batch, node ∈ r.nodes) :
    (E.documentsOf r.outcome batch).Pairwise Apart := by
  have hsubset : batch ⊆ executionOrder r.nodes := fun node hnode =>
    executionOrder_perm.mem_iff.mpr (hnodes node hnode)
  obtain ⟨nodes, hperm, hsub⟩ := List.subperm_of_subset hnodup hsubset
  have hpairs : (E.documentsOf r.outcome nodes).Pairwise Apart :=
    (r.apart hC).sublist (hsub.filterMap _)
  exact ((hperm.filterMap _).pairwise_iff fun h => symm h).mp hpairs

/-- Nodes of a plan run one after the other where every file can be read. -/
theorem exists_serial (hround : E.RoundTrip) {batch : List MaterializationNode}
    (hnodes : ∀ node ∈ batch, node ∈ r.nodes) {world : World} (h : E.Readable world.cache) :
    ∃ results world', (batch.mapM (E.executeNode r.outcome)).run world = .ok results world' := by
  have hfinishes := mapM_executeNode_finishes
    (fun node hnode => r.executable.runnable node (hnodes node hnode)) world
  cases hrun : (batch.mapM (E.executeNode r.outcome)).run world with
  | ok results world' => exact ⟨results, world', rfl⟩
  | error e world' => exact absurd (hfinishes.of_error hrun).2 (not_stuck hround h)

end Resolution

open Executor in
/-- **Parallel batches.** Nodes that run one after the other without an error run without one in
    every interleaving of their file steps, to the same dispositions and the same entries, if there
    is only one of them or no entry is stale for any of them. -/
theorem parallel_batch_serializable {E : Executor} {host : PlannerHostSnapshot} {raw : RawRequest}
    {scope : BuildScope} {outcome : PlanningOutcome} (hC : E.canon.CollisionFree)
    (hround : E.RoundTrip) (h : resolveScoped E.canon E.vllm host raw scope = .ok outcome)
    {batch : List MaterializationNode} (hnodup : batch.Nodup)
    (hnodes : ∀ node ∈ batch, node ∈ outcome.plan.materializationGraph.nodes)
    {world world' : World} {results : List NodeExecutionResult}
    (hserial : (batch.mapM (E.executeNode outcome)).run world = .ok results world')
    (hquiet : batch.length ≤ 1 ∨ ∀ d ∈ E.documentsOf outcome batch, E.Fresh d world.cache)
    {files : Files} (hfiles : Holds files world.cache) (times : Fin batch.length → Nat × Nat) :
    Acc (fun c' c => Step c c') (E.batchThreads outcome batch times files) ∧
      ∀ c, Interleaves (E.batchThreads outcome batch times files) c →
        (∃ c', Step c c') ∨ EndsLike results world'.cache c := by
  obtain ⟨r, rfl⟩ := Resolution.exists_of_ok h
  have hapart := r.apart_documentsOf hC hnodup hnodes
  have hrun := (mapM_executeNode_finishes (fun node hnode =>
    r.executable.runnable node (hnodes node hnode)) world).of_ok hserial
  refine ⟨wellFounded_step.apply _, fun c hsteps => ?_⟩
  by_cases hend : ∃ c', Step c c'
  · exact .inl hend
  simp only [not_exists] at hend
  refine .inr ?_
  match batch, hquiet with
  | [], _ =>
      exact endsLike_of_fresh hround hnodup hrun hapart (by simp [documentsOf]) hfiles hsteps hend
  | [node], _ => exact endsLike_of_singleton hrun hfiles hsteps hend
  | node :: node' :: rest, .inr hfresh =>
      exact endsLike_of_fresh hround hnodup hrun hapart hfresh hfiles hsteps hend

/-! ## A race -/

namespace Executor

variable {E : Executor} {document rebuilt existing : MaterializedArtifactDocument}
  {files files' : Files} {key : CacheKey}

/-- Some steps lead to the point where the file of the entry is about to be read. -/
def Reaches {α : Type} (p : Steps α) (files : Files) (key : CacheKey) (files' : Files) : Prop :=
  ∃ rest : Bytes → Steps α, p.Advances files (readToString key >>= rest) files'

section Reaches

variable {α β : Type} {p : Steps α} {f : α → Steps β} {middle : Files}

theorem Reaches.bind (h : Reaches p files key files') (f : α → Steps β) :
    Reaches (p >>= f) files key files' := by
  obtain ⟨rest, h⟩ := h
  have := h.bind f
  rw [bind_assoc] at this
  exact ⟨_, this⟩

theorem Reaches.after {a : α} (h : p.serial.run files = .ok a middle)
    (hnext : Reaches (f a) middle key files') : Reaches (p >>= f) files key files' := by
  obtain ⟨rest, hnext⟩ := hnext
  exact ⟨rest, .of_serial_bind h hnext⟩

/-- If the entry is gone by then, the read fails. -/
theorem Reaches.raises (h : Reaches p files key files') (hgone : fileAt middle key = none) :
    ∃ p', p.Advances files p' files' ∧ p'.Advances middle (.raised (.io .notFound)) middle := by
  obtain ⟨rest, h⟩ := h
  refine ⟨_, h, .raised_of_serial (run_bind_error.mpr (.inr ⟨middle, middle, rfl, ?_⟩))⟩
  rw [hgone]
  rfl

end Reaches

theorem reaches_evictEntrySteps (hown : key.2 ≠ document.storageKey)
    (hfile : (fileAt files key).isSome) :
    Reaches (E.evictEntrySteps document key) files key files := by
  have hdir : (files.get? key).isSome := by
    cases hget : files.get? key with
    | none => simp [fileAt, hget] at hfile
    | some entry => rfl
  refine .after (run_isDir key files) ?_
  rw [if_neg (by simp [hdir, hown])]
  refine .after (run_fileExists key files) ?_
  rw [if_neg (by simp [hfile])]
  exact ⟨_, .refl _ _⟩

/-- A document without an entry lists the directory and comes to the first entry in it. -/
theorem reaches_realizeSteps (habsent : files.get? document.cacheKey = none) {rest : List CacheKey}
    (hlist : files.keys = key :: rest) (hdir : key.1 = slug document.cacheNamespace)
    (hown : key.2 ≠ document.storageKey) (hfile : (fileAt files key).isSome) (loadMs : Nat) :
    ∃ files', Reaches (E.realizeSteps document rebuilt loadMs) files key files' ∧
      ∀ key, fileAt files' key = fileAt files key := by
  have hsame : ∀ key, fileAt (files.set document.cacheKey none) key = fileAt files key := by
    intro key
    rw [fileAt, fileAt, Dict.get?_set]
    split
    · next heq => rw [heq, habsent]
                  rfl
    · rfl
  have hcreate : (createDirAll document.cacheKey).serial.run files =
      .ok ⟨⟩ (files.set document.cacheKey none) := by
    rw [createDirAll, serial_atomic]
    show EStateM.Result.ok _ (if (files.get? document.cacheKey).isSome then files
      else files.set document.cacheKey none) = _
    rw [habsent]
    rfl
  have hexists := run_fileExists document.cacheKey (files.set document.cacheKey none)
  rw [hsame, fileAt, habsent] at hexists
  have hkeys : (files.set document.cacheKey none).keys.filter
      (·.1 = slug document.cacheNamespace) =
      key :: (rest ++ [document.cacheKey]).filter (·.1 = slug document.cacheNamespace) := by
    rw [Dict.keys, Dict.set_eq_append habsent, List.map_append, ← Dict.keys, hlist,
      List.cons_append, List.filter_cons_of_pos (by simpa using hdir)]
    rfl
  have hread := run_readDir (slug document.cacheNamespace) (files.set document.cacheKey none)
  rw [hkeys] at hread
  refine ⟨_, .after hcreate (.after hexists ?_), hsame⟩
  rw [if_neg (by simp)]
  refine .bind (.after hread ?_) _
  rw [List.forM_cons]
  exact (reaches_evictEntrySteps hown ((hsame key).symm ▸ hfile)).bind _

/-- **A race.** A node has seen a stale entry, another one removes it, and the first one reads it:
    the batch fails. -/
theorem exists_race {outcome : PlanningOutcome} {batch : List MaterializationNode}
    {times : Fin batch.length → Nat × Nat} {remover reader : MaterializationNode}
    (hremover : remover ∈ batch) (hreader : reader ∈ batch)
    {document document' : MaterializedArtifactDocument}
    (hdocument : E.documentOf outcome remover = some document)
    (hdocument' : E.documentOf outcome reader = some document') (hround : E.RoundTrip)
    {cache : Cache} (hreadable : E.Readable cache) (hfiles : Holds files cache)
    (hdir : key.1 = slug document.cacheNamespace) (hdir' : key.1 = slug document'.cacheNamespace)
    (hother : key ≠ document.cacheKey) (hother' : key ≠ document'.cacheKey)
    {bytes : Bytes} (hget : cache.get? key = some bytes) (hread : E.read? bytes = some existing)
    (hstale : invalidates document existing = true)
    (hfresh : invalidates document' existing = false)
    (habsent : files.get? document'.cacheKey = none) {rest : List CacheKey}
    (hlist : files.keys = key :: rest) :
    ∃ c i, Interleaves (E.batchThreads outcome batch times files) c ∧
      c.threads i = .raised (.io .notFound) := by
  obtain ⟨i, hi⟩ := List.get_of_mem hremover
  obtain ⟨j, hj⟩ := List.get_of_mem hreader
  have hne : i ≠ j := by
    rintro rfl
    rw [hi] at hj
    rw [hj, hdocument'] at hdocument
    cases hdocument
    rw [hstale] at hfresh
    cases hfresh
  -- the reader comes to the entry
  obtain ⟨files₁, hreach, hsame⟩ := @reaches_realizeSteps E document'
    (document'.observe (max (times j).1 1)) files key habsent rest hlist hdir'
    (fun heq => hother' (Prod.ext hdir' heq)) (by rw [hfiles, hget]; rfl) (times j).2
  have hreach : Reaches (E.nodeSteps outcome (batch.get j) (times j).1 (times j).2) files key
      files₁ := by
    rw [nodeSteps, hj, hdocument']
    exact hreach.bind _
  -- the remover runs to its end
  obtain ⟨x, hx, -⟩ := hreadable.exists_realized hround document
    (document.observe (max (times i).1 1))
  obtain ⟨realization, files₂, hrun, -, -, hfiles₂⟩ := run_realizeSteps (cacheKey_observe _ _)
    (fun key => (hsame key).trans (hfiles key)) hx (times i).2
  have hrun : (E.nodeSteps outcome (batch.get i) (times i).1 (times i).2).serial.run files₁ =
      .ok (some realization.disposition) files₂ := by
    rw [nodeSteps, hi, hdocument]
    dsimp only
    rw [serial_bind]
    exact run_bind_ok.mpr ⟨_, _, hrun, rfl⟩
  have hgone : fileAt files₂ key = none := by
    rw [hfiles₂, get?_realized hx hother, get?_evicted, if_pos]
    refine ⟨hdir, fun heq => hother (Prod.ext hdir heq), ?_⟩
    rw [hget, Option.any_some, stale, hread]
    exact hstale
  obtain ⟨p, hadvance, hraise⟩ := hreach.raises hgone
  obtain ⟨c, hc, hraised⟩ := Interleaves.of_advances_between
    (c := E.batchThreads outcome batch times files) hne hadvance (.of_serial hrun) hraise
  exact ⟨c, j, hc, hraised⟩

end Executor

/-! ### The sample -/

section Sample

open Executor

/-- The decode region of the sample. -/
noncomputable def decodeRegion : CompileRegion :=
  compileRegion .ideal cudaGraphsSelection
    (decodeAttention.located fun _ pattern => (anchorLine pattern).getD 0)

/-- Its artifacts: the compiled graph and the Triton binary. -/
noncomputable def decodeArtifacts : List ArtifactRequirement :=
  regionRequirements .ideal (nvidiaRequest.normalize .ideal)
    (nvidiaAssembly .ideal false).witnesses ⟨[graphsRange]⟩ cudaGraphsSelection decodeRegion

noncomputable def decodeGraph : ArtifactRequirement := decodeArtifacts.head (by
  simp [decodeArtifacts, regionRequirements])

noncomputable def decodeBinary : ArtifactRequirement := decodeArtifacts.getLast (by
  simp [decodeArtifacts, regionRequirements])

theorem requirements_decode : (nvidiaPlan false).requirements.Perm [decodeGraph, decodeBinary] :=
  (requirements_perm_nvidia .ideal false).trans (.of_eq (List.append_nil _))

/-- The nodes that compile them. -/
noncomputable def decodeBatch : List MaterializationNode :=
  waveMembers (nvidiaPlan false).nodes (1, .compile)

theorem mem_decodeBatch {q : ArtifactRequirement} (h : q ∈ [decodeGraph, decodeBinary]) :
    artifactNode .ideal q ∈ decodeBatch := by
  refine mem_waveMembers.mpr ⟨artifactNode_mem (requirements_decode.mem_iff.mpr h), ?_⟩
  simp only [List.mem_pair] at h
  rcases h with rfl | rfl <;> rfl

theorem decodeBatch_cases {node : MaterializationNode} (h : node ∈ decodeBatch) :
    ∃ q ∈ [decodeGraph, decodeBinary], node = artifactNode .ideal q := by
  obtain ⟨hnode, hkey⟩ := mem_waveMembers.mp h
  have hwave : node.wave = 1 := congrArg Prod.fst hkey
  rcases mem_graphNodes.mp hnode with ⟨q, hq, rfl⟩ | ⟨q, -, -, rfl⟩ | ⟨o, -, rfl⟩
  · exact ⟨q, requirements_decode.mem_iff.mp hq, rfl⟩
  · cases hwave
  · rw [warmupNode] at hwave
    dsimp only at hwave
    split at hwave <;> cases hwave

/-- The batch is a wave of the plan whose nodes run in parallel, all at once. -/
def ParallelBatch (plan : ResolvedBuildPlan) (batch : List MaterializationNode) : Prop :=
  ∃ wave ∈ plan.materializationGraph.waves,
    schedulingMode wave.executionContract.discipline = .parallel ∧
    wave.nodeNames = batch.map (·.name) ∧ batch.Nodup ∧
    ∀ node ∈ batch, node ∈ plan.materializationGraph.nodes ∧ node.dependencyNodes = []

theorem parallelBatch_decode : ParallelBatch (nvidiaPlan false).outcome.plan decodeBatch := by
  have hgraph : artifactNode .ideal decodeGraph ∈ decodeBatch := mem_decodeBatch List.mem_cons_self
  have hdiscipline : ∀ node ∈ decodeBatch,
      node.executionContract.discipline = .parallelPerRank ∧ node.dependencyNodes = [] := by
    intro node hnode
    obtain ⟨q, hq, rfl⟩ := decodeBatch_cases hnode
    rcases List.mem_pair.mp hq with rfl | rfl <;> exact ⟨rfl, rfl⟩
  refine ⟨waveOf (nvidiaPlan false).nodes (1, .compile), ?_, ?_, rfl, ?_, fun node hnode =>
    ⟨(mem_waveMembers.mp hnode).1, (hdiscipline node hnode).2⟩⟩
  · obtain ⟨hmem, hkey⟩ := mem_waveMembers.mp hgraph
    exact List.mem_map_of_mem (hkey ▸ waveKey_mem hmem)
  · show schedulingMode (waveDiscipline decodeBatch) = .parallel
    rw [waveDiscipline, if_neg, if_pos]
    · rfl
    · exact List.all_eq_true.mpr fun node hnode => decide_eq_true (hdiscipline node hnode).1
    · rw [List.any_eq_true]
      rintro ⟨node, hnode, hleader⟩
      rw [(hdiscipline node hnode).1] at hleader
      cases hleader
  · rw [decodeBatch, waveMembers]
    exact (nvidiaPlan false).nodup_nodeNames.of_map.filter _

/-- The batch on an empty cache: every interleaving ends as the nodes one after the other do. -/
theorem parallel_batch_decode : ParallelBatch (nvidiaPlan false).outcome.plan decodeBatch ∧
    ∃ results world', (decodeBatch.mapM (amdExecutor.executeNode (nvidiaPlan false).outcome)).run
        freshWorld = .ok results world' ∧
      ∀ c, Interleaves (amdExecutor.batchThreads (nvidiaPlan false).outcome decodeBatch
          (fun _ => (0, 0)) .empty) c →
        (∃ c', Step c c') ∨ EndsLike results world'.cache c := by
  obtain ⟨results, world', hrun⟩ := @Resolution.exists_serial _ _ _ _ (nvidiaPlan false)
    (lossless_roundTrip _ _) _ (fun node hnode => (mem_waveMembers.mp hnode).1) freshWorld
    readable_empty
  refine ⟨parallelBatch_decode, results, world', hrun, ?_⟩
  have hbatch := parallelBatch_decode
  obtain ⟨wave, -, -, -, hnodup, hnodes⟩ := hbatch
  refine (parallel_batch_serializable Canon.ideal_collisionFree (lossless_roundTrip _ _)
    (nvidiaPlan false).resolveScoped_eq hnodup (fun node hnode => (hnodes node hnode).1) hrun
    (.inr fun d _ entry hentry => ?_) (fun _ => rfl) (fun _ => (0, 0))).2
  cases hentry

/-- The entry of a compiled graph of the decode region whose size was not known. -/
noncomputable def staleDocument : MaterializedArtifactDocument :=
  { (nvidiaPlan false).document decodeGraph with
    storageKey := (Canon.ideal.canonicalHash { decodeGraph with expectedBytes := none }).asStr }

theorem storageKey_stale {q : ArtifactRequirement} (h : q ∈ [decodeGraph, decodeBinary]) :
    staleDocument.cacheKey ≠ ((nvidiaPlan false).document q).cacheKey := by
  intro hkey
  have hhash : Canon.ideal.canonicalHash { decodeGraph with expectedBytes := none } =
      artifactStorageKey (nvidiaPlan false).outcome .ideal q :=
    congrArg (fun key => CanonicalHash.mk key.2) hkey
  have hne : { decodeGraph with expectedBytes := none } ≠ q := by
    rcases List.mem_pair.mp h with rfl | rfl <;> intro heq <;>
      cases congrArg ArtifactRequirement.expectedBytes heq
  unfold artifactStorageKey at hhash
  split at hhash
  · exact hne (Canon.ideal_collisionFree.eq_of_canonicalHash hhash)
  · split at hhash
    · exact hne (Canon.ideal_collisionFree.eq_of_canonicalHash hhash)
    · cases Canon.ideal_collisionFree.sortJson_eq hhash

/-- The files of a cache that holds this entry only. -/
noncomputable def staleFiles : Files :=
  Dict.empty.set staleDocument.cacheKey (some (.text (Canon.ideal.canonicalJson staleDocument)))

noncomputable def staleWorld : World :=
  { freshWorld with
    cache := Dict.empty.set staleDocument.cacheKey
      (.text (Canon.ideal.canonicalJson staleDocument)) }

/-- On that cache the nodes run one after the other, but not in every interleaving: the Triton
    binary's node looks at the entry, the compiled graph's removes it, and then it is read. -/
theorem parallel_batch_fails :
    resolveScoped amdExecutor.canon amdExecutor.vllm nvidiaHost nvidiaRequest (guardScope false) =
      .ok (nvidiaPlan false).outcome ∧
    ParallelBatch (nvidiaPlan false).outcome.plan decodeBatch ∧
    (∃ results world', (decodeBatch.mapM (amdExecutor.executeNode (nvidiaPlan false).outcome)).run
      staleWorld = .ok results world') ∧
    Holds staleFiles staleWorld.cache ∧
    ∃ c i, Interleaves (amdExecutor.batchThreads (nvidiaPlan false).outcome decodeBatch
      (fun _ => (0, 0)) staleFiles) c ∧ c.threads i = .raised (.io .notFound) := by
  have hround : amdExecutor.RoundTrip := lossless_roundTrip _ _
  have hreadable : amdExecutor.Readable staleWorld.cache := by
    intro key bytes hget
    rw [staleWorld, Dict.get?_set] at hget
    split at hget
    · cases hget
      exact (read?_canonicalJson hround _) ▸ rfl
    · cases hget
  have hholds : Holds staleFiles staleWorld.cache := by
    intro key
    rw [fileAt, staleFiles, staleWorld, Dict.get?_set, Dict.get?_set]
    split <;> rfl
  have hdocument : ∀ q ∈ [decodeGraph, decodeBinary],
      amdExecutor.documentOf (nvidiaPlan false).outcome (artifactNode .ideal q) =
        some ((nvidiaPlan false).document q) := by
    intro q hq
    have hartifact := (nvidiaPlan false).artifactOf_artifactNode
      (requirements_decode.mem_iff.mpr hq)
    exact congrArg (Option.map _) hartifact
  have hgraph : decodeGraph ∈ [decodeGraph, decodeBinary] := List.mem_cons_self
  have hbinary : decodeBinary ∈ [decodeGraph, decodeBinary] :=
    List.mem_cons_of_mem _ List.mem_cons_self
  refine ⟨(nvidiaPlan false).resolveScoped_eq, parallelBatch_decode, ?_, hholds,
    exists_race (mem_decodeBatch hgraph) (mem_decodeBatch hbinary) (hdocument _ hgraph)
      (hdocument _ hbinary) hround hreadable hholds rfl rfl (storageKey_stale hgraph)
      (storageKey_stale hbinary) (Dict.get?_set_self ..)
      (read?_canonicalJson hround _) ?_ ?_ ?_ rfl⟩
  · exact (nvidiaPlan false).exists_serial hround (fun node hnode => (mem_waveMembers.mp hnode).1)
      hreadable
  · exact decide_eq_true ⟨rfl, rfl, rfl⟩
  · refine decide_eq_false fun h => ?_
    cases h.2.2
  · rw [staleFiles, Dict.get?_set, if_neg (storageKey_stale hbinary).symm]
    rfl

end Sample

end Sock.Engine
