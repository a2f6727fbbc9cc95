/-
  Documents that are realized one after the other.

  * `realized_cases`: a document is reused, and its siblings are evicted, or it is written.
  * `Warm`: the entry of a document is there and would be reused, and none of its siblings is
    stale. Documents that are warm are reused, and the cache stays as it is
    (`DocumentsRun.of_warm`).
  * `DocumentsRun.warm`: after a run its documents are warm, if no entry that one of them is taken
    for is evicted by a later one.
  * `Resolution.apart`: the documents of a plan have their own entries and do not invalidate each
    other; `Resolution.document_of_artifactStorageKey`: documents of any two plans with one storage
    key have one entry and are invalidated alike.
  * `warm_rebuild_iff`: a plan that is executed again reuses everything if and only if its documents
    were undisturbed, and they are in every cache that the executor has written (`Written`).
-/
import Sock.Engine.Reports

namespace Sock.Engine

open Lib Sock.Core Fallible

namespace Executor

variable {E : Executor}

/-! ## One document -/

section Step

variable {document document' existing : MaterializedArtifactDocument} {cache : Cache} {x : Realized}
  {ms : Nat}

@[simp] theorem cacheKey_observe (document : MaterializedArtifactDocument) (ms : Nat) :
    (document.observe ms).cacheKey = document.cacheKey := rfl

theorem same_self (document : MaterializedArtifactDocument) :
    sameArtifactDocumentIdentity document document = true := by
  unfold sameArtifactDocumentIdentity
  split <;> simp

/-- The document has the same identity whatever its times are. -/
theorem same_observe (document : MaterializedArtifactDocument) (ms : Nat) :
    sameArtifactDocumentIdentity (document.observe ms) document = true := same_self document

/-- A document is reused or written. -/
theorem realized_cases (h : E.realized document (document.observe ms) cache = some x) :
    E.SiblingsReadable document cache ∧
    ((∃ bytes existing, cache.get? document.cacheKey = some bytes ∧
        E.read? bytes = some existing ∧ sameArtifactDocumentIdentity existing document = true ∧
        x = ⟨.reused, (reuse document existing 0).rebuildMs, E.evicted document cache⟩) ∨
      ((∀ bytes existing, cache.get? document.cacheKey = some bytes →
        E.read? bytes = some existing → sameArtifactDocumentIdentity existing document = false) ∧
      x = ⟨.executed, (document.observe ms).observedRebuildMs, (E.evicted document cache).set
        document.cacheKey (.text (E.canon.canonicalJson (document.observe ms)))⟩)) := by
  rw [realized] at h
  split at h
  case isFalse => cases h
  case isTrue hsiblings =>
    refine ⟨hsiblings, ?_⟩
    cases hget : cache.get? document.cacheKey with
    | none =>
        rw [hget] at h
        exact .inr ⟨fun bytes existing hbytes => (by cases hbytes), (Option.some.inj h).symm⟩
    | some bytes =>
        rw [hget] at h
        obtain ⟨existing, hread, h⟩ := Option.map_eq_some_iff.mp h
        by_cases hsame : sameArtifactDocumentIdentity existing document = true
        · rw [if_pos hsame] at h
          exact .inl ⟨bytes, existing, rfl, hread, hsame, h.symm⟩
        · rw [if_neg hsame] at h
          refine .inr ⟨?_, h.symm⟩
          rintro _ existing' ⟨⟩ hread'
          rw [hread] at hread'
          cases hread'
          exact Bool.not_eq_true _ ▸ hsame

/-- Other entries are evicted or stay. -/
theorem get?_realized (h : E.realized document (document.observe ms) cache = some x)
    {key : CacheKey} (hkey : key ≠ document.cacheKey) :
    x.cache.get? key = (E.evicted document cache).get? key := by
  obtain ⟨-, ⟨bytes, existing, -, -, -, rfl⟩ | ⟨-, rfl⟩⟩ := realized_cases h
  · rfl
  · rw [Dict.get?_set, if_neg hkey]

/-- The document evicts the entry with this content. -/
def Evicts (document : MaterializedArtifactDocument) (key : CacheKey)
    (existing : MaterializedArtifactDocument) : Prop :=
  key.1 = slug document.cacheNamespace ∧ invalidates document existing = true

/-- An entry that is not evicted stays. -/
theorem get?_evicted_of_not_evicts {key : CacheKey} (h : ∀ bytes existing,
      cache.get? key = some bytes → E.read? bytes = some existing →
      ¬ Evicts document key existing) :
    (E.evicted document cache).get? key = cache.get? key := by
  rw [get?_evicted, if_neg]
  rintro ⟨hdir, -, hany⟩
  obtain ⟨bytes, hget, hstale⟩ := (Option.any_eq_true _ _).mp hany
  obtain ⟨existing, hread, hinvalid⟩ := (Option.any_eq_true _ _).mp hstale
  exact h bytes existing hget hread ⟨hdir, hinvalid⟩

/-- An entry of another document that is left is not one to evict. -/
theorem not_evicts_of_get? {key : CacheKey} {bytes : Bytes} (hkey : key ≠ document.cacheKey)
    (hget : (E.evicted document cache).get? key = some bytes)
    (hread : E.read? bytes = some existing) : ¬ Evicts document key existing := by
  rintro ⟨hdir, hinvalid⟩
  have hother : key.2 ≠ document.storageKey := fun heq => hkey (Prod.ext hdir heq)
  have hstale := stale_of_evicted (mem_siblings.mpr ⟨hget, hdir, hother⟩)
  rw [stale, hread] at hstale
  cases hinvalid.symm.trans hstale

theorem get?_evicted_of_none {key : CacheKey} (h : cache.get? key = none) :
    (E.evicted document cache).get? key = none := by
  rw [get?_evicted, h]
  exact ite_self none

end Step

/-- An entry that took some time is reused with that time. -/
theorem rebuildMs_reuse_observe (document existing : MaterializedArtifactDocument) (ms : Nat) :
    (reuse document (existing.observe ms) 0).rebuildMs = ms := by
  show max (compileMsFor existing.acquisition ms + transferMsFor existing.acquisition ms)
    (compileMsFor existing.acquisition ms + transferMsFor existing.acquisition ms) = ms
  unfold compileMsFor transferMsFor
  split <;> omega

/-! ## Warm documents -/

/-- The entry of the document would be reused, and none of its siblings would be evicted. -/
structure Warm (E : Executor) (document : MaterializedArtifactDocument) (cache : Cache) : Prop where
  readable : E.SiblingsReadable document cache
  fresh : ∀ entry ∈ siblings document cache, E.stale document entry = false
  kept : ∃ bytes existing, cache.get? document.cacheKey = some bytes ∧
    E.read? bytes = some existing ∧ sameArtifactDocumentIdentity existing document = true

/-- The documents have their own entries and do not invalidate each other. -/
def Apart (document document' : MaterializedArtifactDocument) : Prop :=
  document.cacheKey ≠ document'.cacheKey ∧ invalidates document document' = false

theorem invalidates_comm (document document' : MaterializedArtifactDocument) :
    invalidates document document' = invalidates document' document := by
  unfold invalidates
  simp only [eq_comm]

instance : Std.Symm Apart where
  symm document document' h := ⟨h.1.symm, invalidates_comm document' document ▸ h.2⟩

section Warm

variable {document document' : MaterializedArtifactDocument} {cache : Cache} {x : Realized}
  {ms : Nat}

/-- A warm document is reused, and the cache stays as it is. -/
theorem Warm.realized (h : E.Warm document cache) (rebuilt : MaterializedArtifactDocument) :
    ∃ bytes existing, cache.get? document.cacheKey = some bytes ∧ E.read? bytes = some existing ∧
      E.realized document rebuilt cache =
        some ⟨.reused, (reuse document existing 0).rebuildMs, cache⟩ := by
  obtain ⟨bytes, existing, hget, hread, hsame⟩ := h.kept
  refine ⟨bytes, existing, hget, hread, ?_⟩
  rw [Executor.realized, if_pos h.readable, hget]
  dsimp only
  rw [hread, Option.map_some, if_pos hsame, evicted_of_none_stale h.fresh]

/-- A document that was realized is warm. -/
theorem warm_of_realized (hround : E.RoundTrip)
    (h : E.realized document (document.observe ms) cache = some x) : E.Warm document x.cache := by
  have hother : ∀ entry ∈ siblings document x.cache,
      entry ∈ siblings document (E.evicted document cache) := by
    rintro ⟨key, bytes⟩ hentry
    obtain ⟨hget, hdir, hkey⟩ := mem_siblings.mp hentry
    rw [get?_realized h (fun heq => hkey (congrArg Prod.snd heq))] at hget
    exact mem_siblings.mpr ⟨hget, hdir, hkey⟩
  obtain ⟨hsiblings, hcases⟩ := realized_cases h
  refine ⟨fun entry hentry => siblingsReadable_evicted hsiblings entry (hother entry hentry),
    fun entry hentry => stale_of_evicted (hother entry hentry), ?_⟩
  rcases hcases with ⟨bytes, existing, hget, hread, hsame, rfl⟩ | ⟨-, rfl⟩
  · exact ⟨bytes, existing, (get?_evicted_cacheKey document cache).trans hget, hread, hsame⟩
  · exact ⟨_, _, Dict.get?_set_self .., read?_canonicalJson hround _, same_observe document ms⟩

/-- A sibling that is there after a document was realized was there before, or is its own. -/
theorem sibling_cases (hround : E.RoundTrip)
    (h : E.realized document' (document'.observe ms) cache = some x) {entry : CacheKey × Bytes}
    (hentry : entry ∈ siblings document x.cache) :
    entry ∈ siblings document cache ∨ E.read? entry.2 = some (document'.observe ms) := by
  obtain ⟨key, bytes⟩ := entry
  obtain ⟨hget, hsibling⟩ := mem_siblings.mp hentry
  by_cases hkey : key = document'.cacheKey
  case neg =>
    rw [get?_realized h hkey] at hget
    exact .inl (mem_siblings.mpr ⟨get?_of_evicted hget, hsibling⟩)
  subst hkey
  obtain ⟨-, ⟨bytes', existing, hold, -, -, rfl⟩ | ⟨-, rfl⟩⟩ := realized_cases h
  · exact .inl (mem_siblings.mpr ⟨get?_of_evicted hget, hsibling⟩)
  · rw [Dict.get?_set_self] at hget
    cases hget
    exact .inr (read?_canonicalJson hround _)

/-- A warm document stays warm while another one is realized that does not evict its entry. -/
theorem Warm.step (hround : E.RoundTrip) (hwarm : E.Warm document cache)
    (h : E.realized document' (document'.observe ms) cache = some x)
    (hapart : Apart document document') (hkept : ∀ bytes existing,
      cache.get? document.cacheKey = some bytes → E.read? bytes = some existing →
      ¬ Evicts document' document.cacheKey existing) :
    E.Warm document x.cache ∧ x.cache.get? document.cacheKey = cache.get? document.cacheKey := by
  have hentry : x.cache.get? document.cacheKey = cache.get? document.cacheKey := by
    rw [get?_realized h hapart.1, get?_evicted_of_not_evicts hkept]
  refine ⟨⟨fun entry hmem => ?_, fun entry hmem => ?_, hentry ▸ hwarm.kept⟩, hentry⟩
  · rcases sibling_cases hround h hmem with hold | hread
    · exact hwarm.readable entry hold
    · rw [hread]
      rfl
  · rcases sibling_cases hround h hmem with hold | hread
    · exact hwarm.fresh entry hold
    · rw [stale, hread]
      exact hapart.2

end Warm

/-! ## Runs of documents -/

/-- The documents are realized one after the other, each at some measured time. -/
inductive DocumentsRun (E : Executor) :
    List MaterializedArtifactDocument → Cache → List Realized → Cache → Prop
  | nil {cache : Cache} : DocumentsRun E [] cache [] cache
  | cons {document : MaterializedArtifactDocument} {documents : List MaterializedArtifactDocument}
      {cache cache' : Cache} {x : Realized} {xs : List Realized} {ms : Nat}
      (hstep : E.realized document (document.observe (max ms 1)) cache = some x)
      (hrest : DocumentsRun E documents x.cache xs cache') :
      DocumentsRun E (document :: documents) cache (x :: xs) cache'

/-- An entry that a document would be taken for is evicted after the document was realized only
    if it is evicted before. -/
def Undisturbed (E : Executor) (documents : List MaterializedArtifactDocument) (cache : Cache) :
    Prop :=
  ∀ before document after, documents = before ++ document :: after → ∀ bytes existing,
    cache.get? document.cacheKey = some bytes → E.read? bytes = some existing →
    sameArtifactDocumentIdentity existing document = true →
    (∃ later ∈ after, Evicts later document.cacheKey existing) →
    ∃ earlier ∈ before, Evicts earlier document.cacheKey existing

namespace DocumentsRun

variable {document : MaterializedArtifactDocument} {documents : List MaterializedArtifactDocument}
  {cache cache' : Cache} {xs : List Realized}

/-- Warm documents are reused with the times of their entries, and the cache stays as it is. -/
theorem of_warm (h : E.DocumentsRun documents cache xs cache')
    (hwarm : ∀ d ∈ documents, E.Warm d cache) :
    cache' = cache ∧ ∀ x ∈ xs, x.disposition = .reused ∧ ∃ d ∈ documents, ∃ bytes existing,
      cache.get? d.cacheKey = some bytes ∧ E.read? bytes = some existing ∧
      x.rebuildMs = (reuse d existing 0).rebuildMs := by
  induction h with
  | nil => exact ⟨rfl, fun _ h => by cases h⟩
  | @cons document documents cache cache' x xs ms hstep _ ih =>
      rw [List.forall_mem_cons] at hwarm
      obtain ⟨bytes, existing, hget, hread, hreused⟩ := hwarm.1.realized _
      cases hstep.symm.trans hreused
      obtain ⟨rfl, hrest⟩ := ih hwarm.2
      refine ⟨rfl, List.forall_mem_cons.mpr ⟨⟨rfl, document, List.mem_cons_self, bytes, existing,
        hget, hread, rfl⟩, fun x hx => ?_⟩⟩
      obtain ⟨hdisposition, d, hd, hentry⟩ := hrest x hx
      exact ⟨hdisposition, d, List.mem_cons_of_mem _ hd, hentry⟩

/-- A warm document stays warm during a run that does not evict its entry. -/
theorem keep_warm (hround : E.RoundTrip) (h : E.DocumentsRun documents cache xs cache')
    (hwarm : E.Warm document cache) (hapart : ∀ d ∈ documents, Apart document d)
    (hkept : ∀ d ∈ documents, ∀ bytes existing, cache.get? document.cacheKey = some bytes →
      E.read? bytes = some existing → ¬ Evicts d document.cacheKey existing) :
    E.Warm document cache' := by
  induction h with
  | nil => exact hwarm
  | cons hstep _ ih =>
      rw [List.forall_mem_cons] at hapart hkept
      obtain ⟨hwarm, hentry⟩ := hwarm.step hround hstep hapart.1 hkept.1
      exact ih hwarm hapart.2 (hentry ▸ hkept.2)

/-- **Documents are warm after their run**, if no entry that one of them is taken for is evicted by
    a later one. -/
theorem warm (hround : E.RoundTrip) (h : E.DocumentsRun documents cache xs cache')
    (hapart : documents.Pairwise Apart) (hkept : E.Undisturbed documents cache) :
    ∀ d ∈ documents, E.Warm d cache' := by
  induction h with
  | nil => exact fun _ h => by cases h
  | @cons document documents cache cache' x xs ms hstep hrest ih =>
      rw [List.pairwise_cons] at hapart
      refine List.forall_mem_cons.mpr ⟨?_, ih hapart.2 ?_⟩
      · refine hrest.keep_warm hround (warm_of_realized hround hstep) hapart.1 ?_
        intro d hd bytes existing hget hread hevicts
        -- the entry is the one that was reused or the one that was written
        obtain ⟨-, ⟨bytes', existing', hget', hread', hsame, rfl⟩ | ⟨-, rfl⟩⟩ :=
          realized_cases hstep
        · rw [get?_evicted_cacheKey, hget'] at hget
          cases hget
          cases hread'.symm.trans hread
          obtain ⟨earlier, hearlier, -⟩ :=
            hkept [] document documents rfl bytes existing hget' hread
            hsame ⟨d, hd, hevicts⟩
          cases hearlier
        · rw [Dict.get?_set_self] at hget
          cases hget
          rw [read?_canonicalJson hround] at hread
          cases hread
          cases hevicts.2.symm.trans (symm (hapart.1 d hd)).2
      · -- the entries of the documents to come are those that were there and are not evicted here
        rintro before d after rfl bytes existing hget hread hsame hlater
        have hkey := (hapart.1 d (by simp)).1.symm
        rw [get?_realized hstep hkey] at hget
        obtain ⟨earlier, hearlier, hevicts⟩ := hkept (document :: before) d after rfl bytes existing
          (Executor.get?_of_evicted hget) hread hsame hlater
        rcases List.mem_cons.mp hearlier with rfl | hearlier
        · exact absurd hevicts (not_evicts_of_get? hkey hget hread)
        · exact ⟨earlier, hearlier, hevicts⟩

/-- Documents without an entry are written. -/
theorem of_absent (h : E.DocumentsRun documents cache xs cache') (hapart : documents.Pairwise Apart)
    (habsent : ∀ d ∈ documents, cache.get? d.cacheKey = none) :
    ∀ x ∈ xs, x.disposition = .executed := by
  induction h with
  | nil => exact fun _ h => by cases h
  | @cons document documents cache cache' x xs ms hstep hrest ih =>
      rw [List.pairwise_cons] at hapart
      rw [List.forall_mem_cons] at habsent
      refine List.forall_mem_cons.mpr ⟨?_, ih hapart.2 fun d hd => ?_⟩
      · obtain ⟨-, ⟨bytes, existing, hget, -⟩ | ⟨-, rfl⟩⟩ := realized_cases hstep
        · rw [habsent.1] at hget
          cases hget
        · rfl
      · rw [get?_realized hstep (hapart.1 d hd).1.symm]
        exact get?_evicted_of_none (habsent.2 d hd)

/-- An entry of no document that is gone does not come back. -/
theorem get?_eq_none (h : E.DocumentsRun documents cache xs cache') {key : CacheKey}
    (hkeys : ∀ d ∈ documents, key ≠ d.cacheKey) (habsent : cache.get? key = none) :
    cache'.get? key = none := by
  induction h with
  | nil => exact habsent
  | cons hstep _ ih =>
      rw [List.forall_mem_cons] at hkeys
      refine ih hkeys.2 ?_
      rw [get?_realized hstep hkeys.1]
      exact get?_evicted_of_none habsent

/-- A run of two lists is a run of the first and one of the second. -/
theorem of_append {first second : List MaterializedArtifactDocument}
    (h : E.DocumentsRun (first ++ second) cache xs cache') :
    ∃ ys zs middle, xs = ys ++ zs ∧ E.DocumentsRun first cache ys middle ∧
      E.DocumentsRun second middle zs cache' := by
  induction first generalizing cache xs with
  | nil => exact ⟨[], xs, cache, rfl, .nil, h⟩
  | cons document first ih =>
      cases h with
      | cons hstep hrest =>
          obtain ⟨ys, zs, middle, rfl, hfirst, hsecond⟩ := ih hrest
          exact ⟨_ :: ys, zs, middle, rfl, .cons hstep hfirst, hsecond⟩

/-- A document whose entry is absent is written. -/
theorem exists_executed {before after : List MaterializedArtifactDocument}
    (h : E.DocumentsRun (before ++ document :: after) cache xs cache')
    (hkeys : ∀ d ∈ before, document.cacheKey ≠ d.cacheKey)
    (habsent : cache.get? document.cacheKey = none) : ∃ x ∈ xs, x.disposition = .executed := by
  obtain ⟨ys, zs, middle, rfl, hbefore, hafter⟩ := h.of_append
  cases hafter with
  | cons hstep hrest =>
      obtain ⟨-, ⟨bytes, existing, hget, -⟩ | ⟨-, rfl⟩⟩ := realized_cases hstep
      · rw [hbefore.get?_eq_none hkeys habsent] at hget
        cases hget
      · exact ⟨_, List.mem_append_right _ List.mem_cons_self, rfl⟩

/-- An entry that one of the documents evicts is gone. -/
theorem get?_of_evicts (h : E.DocumentsRun documents cache xs cache') {key : CacheKey}
    (hkeys : ∀ d ∈ documents, key ≠ d.cacheKey) {bytes : Bytes}
    {existing : MaterializedArtifactDocument} (hget : cache.get? key = some bytes)
    (hread : E.read? bytes = some existing) (hmem : document ∈ documents)
    (hevicts : Evicts document key existing) : cache'.get? key = none := by
  induction h with
  | nil => cases hmem
  | @cons first documents cache _ x _ _ hstep hrest ih =>
      rw [List.forall_mem_cons] at hkeys
      cases hentry : x.cache.get? key with
      | none => exact hrest.get?_eq_none hkeys.2 hentry
      | some bytes' =>
          have hleft := hentry
          rw [get?_realized hstep hkeys.1] at hleft
          cases (Executor.get?_of_evicted hleft).symm.trans hget
          rcases List.mem_cons.mp hmem with rfl | hmem
          · exact absurd hevicts (not_evicts_of_get? hkeys.1 hleft hread)
          · exact ih hkeys.2 hentry hmem

/-- An entry that none of the documents evicts stays. -/
theorem get?_of_not_evicts (h : E.DocumentsRun documents cache xs cache') {key : CacheKey}
    (hkeys : ∀ d ∈ documents, key ≠ d.cacheKey) {bytes : Bytes}
    {existing : MaterializedArtifactDocument} (hget : cache.get? key = some bytes)
    (hread : E.read? bytes = some existing)
    (hkept : ∀ d ∈ documents, ¬ Evicts d key existing) : cache'.get? key = some bytes := by
  induction h with
  | nil => exact hget
  | cons hstep _ ih =>
      rw [List.forall_mem_cons] at hkeys hkept
      refine ih hkeys.2 ?_ hkept.2
      rw [get?_realized hstep hkeys.1, get?_evicted_of_not_evicts, hget]
      intro bytes' existing' hget' hread'
      cases hget.symm.trans hget'
      cases hread.symm.trans hread'
      exact hkept.1

theorem length_eq (h : E.DocumentsRun documents cache xs cache') :
    documents.length = xs.length := by
  induction h with
  | nil => rfl
  | cons _ _ ih => exact congrArg Nat.succ ih

theorem exists_realized (h : E.DocumentsRun documents cache xs cache') (hd : document ∈ documents) :
    ∃ x, (document, x) ∈ documents.zip xs := by
  rw [← List.map_fst_zip h.length_eq.le] at hd
  obtain ⟨⟨_, x⟩, hmem, rfl⟩ := List.mem_map.mp hd
  exact ⟨x, hmem⟩

theorem exists_document (h : E.DocumentsRun documents cache xs cache')
    {x : Realized} (hx : x ∈ xs) :
    ∃ d, (d, x) ∈ documents.zip xs := by
  rw [← List.map_snd_zip h.length_eq.ge] at hx
  obtain ⟨⟨d, _⟩, hmem, rfl⟩ := List.mem_map.mp hx
  exact ⟨d, hmem⟩

/-- A document that was written is in the cache at the end. -/
theorem get?_of_executed (hround : E.RoundTrip) (h : E.DocumentsRun documents cache xs cache')
    (hapart : documents.Pairwise Apart) {x : Realized} (hmem : (document, x) ∈ documents.zip xs)
    (hx : x.disposition = .executed) : ∃ ms,
      cache'.get? document.cacheKey =
        some (.text (E.canon.canonicalJson (document.observe ms))) := by
  induction h with
  | nil => cases hmem
  | @cons first documents cache cache' y ys ms hstep hrest ih =>
      rw [List.pairwise_cons] at hapart
      rcases List.mem_cons.mp hmem with heq | hmem
      · cases heq
        obtain ⟨-, ⟨bytes, existing, -, -, -, rfl⟩ | ⟨-, rfl⟩⟩ := realized_cases hstep
        · cases hx
        · refine ⟨_, hrest.get?_of_not_evicts (fun d hd => (hapart.1 d hd).1)
            (Dict.get?_set_self ..) (read?_canonicalJson hround _) fun d hd hevicts => ?_⟩
          cases hevicts.2.symm.trans (symm (hapart.1 d hd)).2
      · exact ih hapart.2 hmem

/-- A document whose entry is there from the start, and is invalidated as the document is, is reused
    if and only if the entry has its identity. -/
theorem reused_iff (h : E.DocumentsRun documents cache xs cache')
    (hapart : documents.Pairwise Apart) {x : Realized} (hmem : (document, x) ∈ documents.zip xs)
    {bytes : Bytes} {existing : MaterializedArtifactDocument}
    (hget : cache.get? document.cacheKey = some bytes) (hread : E.read? bytes = some existing)
    (hinvalid : ∀ d, invalidates d existing = invalidates d document) :
    x.disposition = .reused ↔ sameArtifactDocumentIdentity existing document = true := by
  induction h with
  | nil => cases hmem
  | @cons first documents cache cache' y ys ms hstep hrest ih =>
      rw [List.pairwise_cons] at hapart
      rcases List.mem_cons.mp hmem with heq | hmem
      · cases heq
        obtain ⟨-, ⟨bytes', existing', hget', hread', hsame, rfl⟩ | ⟨hdiffers, rfl⟩⟩ :=
          realized_cases hstep
        · cases hget.symm.trans hget'
          cases hread.symm.trans hread'
          exact ⟨fun _ => hsame, fun _ => rfl⟩
        · rw [hdiffers bytes existing hget hread]
          exact ⟨fun h => (by cases h), fun h => (by cases h)⟩
      · -- the first document leaves the entry alone
        have hfirst := hapart.1 document (List.of_mem_zip hmem).1
        refine ih hapart.2 hmem ?_
        rw [get?_realized hstep hfirst.1.symm, get?_evicted_of_not_evicts, hget]
        rintro bytes' existing' hget' hread' ⟨-, hevicts⟩
        cases hget.symm.trans hget'
        cases hread.symm.trans hread'
        cases hevicts.symm.trans ((hinvalid first).trans hfirst.2)

/-- An entry that a document is taken for is lost if a later document evicts it first. -/
theorem get?_of_reused {before after : List MaterializedArtifactDocument}
    (h : E.DocumentsRun (before ++ document :: after) cache xs cache')
    (hapart : (before ++ document :: after).Pairwise Apart) {bytes : Bytes}
    {existing later : MaterializedArtifactDocument}
    (hget : cache.get? document.cacheKey = some bytes) (hread : E.read? bytes = some existing)
    (hsame : sameArtifactDocumentIdentity existing document = true)
    (hkept : ∀ d ∈ before, ¬ Evicts d document.cacheKey existing) (hlater : later ∈ after)
    (hevicts : Evicts later document.cacheKey existing) :
    cache'.get? document.cacheKey = none := by
  rw [List.pairwise_append, List.pairwise_cons] at hapart
  obtain ⟨-, ⟨hafterKeys, -⟩, hbeforeKeys⟩ := hapart
  obtain ⟨ys, zs, middle, rfl, hbefore, hafter⟩ := h.of_append
  have hmiddle := hbefore.get?_of_not_evicts
    (fun d hd => (hbeforeKeys d hd document List.mem_cons_self).1.symm) hget hread hkept
  cases hafter with
  | cons hstep hrest =>
      refine hrest.get?_of_evicts (fun d hd => (hafterKeys d hd).1) ?_ hread hlater hevicts
      obtain ⟨-, ⟨bytes', existing', -, -, -, rfl⟩ | ⟨hdiffers, rfl⟩⟩ := realized_cases hstep
      · exact (get?_evicted_cacheKey document middle).trans hmiddle
      · rw [hdiffers bytes existing hmiddle hread] at hsame
        cases hsame

/-- Documents that are all reused after a run were undisturbed in it. -/
theorem undisturbed (h : E.DocumentsRun documents cache xs cache')
    (hapart : documents.Pairwise Apart) {ys : List Realized} {cache'' : Cache}
    (hagain : E.DocumentsRun documents cache' ys cache'')
    (hreused : ∀ y ∈ ys, y.disposition = .reused) : E.Undisturbed documents cache := by
  rintro before document after rfl bytes existing hget hread hsame ⟨later, hlater, hevicts⟩
  by_contra hnone
  simp only [not_exists, not_and] at hnone
  have hlost := h.get?_of_reused hapart hget hread hsame hnone hlater hevicts
  have hkeys : ∀ d ∈ before, document.cacheKey ≠ d.cacheKey := fun d hd =>
    ((List.pairwise_append.mp hapart).2.2 d hd document List.mem_cons_self).1.symm
  obtain ⟨y, hy, hexecuted⟩ := hagain.exists_executed hkeys hlost
  cases hexecuted.symm.trans (hreused y hy)

end DocumentsRun

/-- The entries of documents that all took the same time. -/
def stored (E : Executor) (documents : List MaterializedArtifactDocument) (ms : Nat) : Cache :=
  .ofEntries (documents.map fun d => (d.cacheKey, .text (E.canon.canonicalJson (d.observe ms))))

variable {ms : Nat}

theorem get?_stored {documents : List MaterializedArtifactDocument} {key : CacheKey} {bytes : Bytes}
    (h : (E.stored documents ms).get? key = some bytes) :
    ∃ d ∈ documents, key = d.cacheKey ∧ bytes = .text (E.canon.canonicalJson (d.observe ms)) := by
  obtain ⟨d, hd, heq⟩ := List.mem_map.mp (Dict.mem_of_get?_ofEntries h)
  cases heq
  exact ⟨d, hd, rfl, rfl⟩

/-- Documents whose entries are stored are warm. -/
theorem warm_stored (hround : E.RoundTrip) {documents : List MaterializedArtifactDocument}
    (hapart : documents.Pairwise Apart) {document : MaterializedArtifactDocument}
    (h : document ∈ documents) : E.Warm document (E.stored documents ms) := by
  have hkeys : ((documents.map fun d =>
      (d.cacheKey, Bytes.text (E.canon.canonicalJson (d.observe ms)))).map Prod.fst).Nodup := by
    rw [List.map_map]
    exact List.pairwise_map.mpr (hapart.imp And.left)
  have hread : ∀ entry ∈ siblings document (E.stored documents ms),
      ∃ d, E.read? entry.2 = some (d.observe ms) ∧ Apart document d := by
    rintro ⟨key, bytes⟩ hentry
    obtain ⟨hget, -, hkey⟩ := mem_siblings.mp hentry
    obtain ⟨d, hd, rfl, rfl⟩ := get?_stored hget
    refine ⟨d, read?_canonicalJson hround _, ?_⟩
    exact hapart.forall h hd fun heq => hkey (heq ▸ rfl)
  refine ⟨fun entry hentry => ?_, fun entry hentry => ?_,
    _, _, Dict.get?_ofEntries hkeys (List.mem_map_of_mem h), read?_canonicalJson hround _,
    same_observe document ms⟩
  · obtain ⟨d, hd, -⟩ := hread entry hentry
    rw [hd]
    rfl
  · obtain ⟨d, hd, hapart⟩ := hread entry hentry
    rw [stale, hd]
    exact hapart.2

/-! ## Nodes -/

section Nodes

variable {outcome : PlanningOutcome} {nodes : List MaterializationNode} {cache cache' : Cache}
  {results : List NodeExecutionResult}

/-- The documents of the nodes' artifacts. -/
def documentsOf (E : Executor) (outcome : PlanningOutcome) (nodes : List MaterializationNode) :
    List MaterializedArtifactDocument :=
  nodes.filterMap fun node => (E.artifactOf outcome node).map fun artifact =>
    E.artifactDocument outcome artifact.1 artifact.2

/-- The documents of a plan, in the order of its waves. -/
def documents (E : Executor) (outcome : PlanningOutcome) : List MaterializedArtifactDocument :=
  E.documentsOf outcome (executionOrder outcome.plan.materializationGraph.nodes)

theorem documentsOf_cons_none {node : MaterializationNode}
    (h : E.artifactOf outcome node = none) :
    E.documentsOf outcome (node :: nodes) = E.documentsOf outcome nodes :=
  List.filterMap_cons_none (by rw [h]; rfl)

theorem documentsOf_cons_some {node : MaterializationNode} {q : ArtifactRequirement}
    {identity : String} (h : E.artifactOf outcome node = some (q, identity)) :
    E.documentsOf outcome (node :: nodes) =
      E.artifactDocument outcome q identity :: E.documentsOf outcome nodes :=
  List.filterMap_cons_some (by rw [h]; rfl)

/-- What a record says about the entry of its artifact, and what became of it. -/
def realizedPart (r : MaterializedArtifactRecord) : CacheKey × MaterializationDisposition × Nat :=
  ((slug r.cacheNamespace, r.storageKey), r.disposition, r.rebuildMs)

/-- The same of a document. -/
def Realized.part (x : Realized) (document : MaterializedArtifactDocument) :
    CacheKey × MaterializationDisposition × Nat :=
  (document.cacheKey, x.disposition, x.rebuildMs)

/-- A run of nodes realizes their documents. -/
theorem NodesRun.documentsRun (h : E.NodesRun outcome nodes cache results cache') :
    ∃ xs, E.DocumentsRun (E.documentsOf outcome nodes) cache xs cache' ∧
      (results.filterMap (·.artifact)).map realizedPart =
        ((E.documentsOf outcome nodes).zip xs).map fun p => p.2.part p.1 := by
  induction h with
  | nil => exact ⟨[], .nil, rfl⟩
  | @cons node nodes _ _ _ result results hnode _ ih =>
      obtain ⟨xs, hrun, hmap⟩ := ih
      cases hartifact : E.artifactOf outcome node with
      | none =>
          obtain ⟨hresult, rfl⟩ := hnode.of_none hartifact
          rw [documentsOf_cons_none hartifact, List.filterMap_cons_none hresult]
          exact ⟨xs, hrun, hmap⟩
      | some artifact =>
          obtain ⟨r, ms, hresult, hplanned, -, hrealized⟩ := hnode.of_some hartifact
          rw [documentsOf_cons_some hartifact, List.filterMap_cons_some hresult]
          refine ⟨_ :: xs, .cons hrealized hrun, List.cons_eq_cons.mpr ⟨?_, hmap⟩⟩
          exact Prod.ext (congrArg (fun r : MaterializedArtifactRecord =>
            (slug r.cacheNamespace, r.storageKey)) hplanned) rfl

/-- The fanout of an artifact is the one that its times make preferable. -/
theorem NodesRun.preferredFanoutStrategy (h : E.NodesRun outcome nodes cache results cache')
    {r : MaterializedArtifactRecord} (hr : r ∈ results.filterMap (·.artifact)) :
    ∃ node ∈ nodes, ∃ q identity, E.artifactOf outcome node = some (q, identity) ∧
      r.preferredFanoutStrategy = observedPreferredStrategy q r.rebuildMs := by
  induction h with
  | nil => cases hr
  | @cons node nodes _ _ _ result results hnode _ ih =>
      have hrest : r ∈ results.filterMap (·.artifact) → _ := fun hr =>
        let ⟨node', hnode', hartifact⟩ := ih hr
        (⟨node', List.mem_cons_of_mem _ hnode', hartifact⟩ : ∃ node' ∈ node :: nodes,
          ∃ q identity, E.artifactOf outcome node' = some (q, identity) ∧
            r.preferredFanoutStrategy = observedPreferredStrategy q r.rebuildMs)
      cases hartifact : E.artifactOf outcome node with
      | none =>
          rw [List.filterMap_cons_none (hnode.of_none hartifact).1] at hr
          exact hrest hr
      | some artifact =>
          obtain ⟨r', ms, hresult, -, hfanout, -⟩ := hnode.of_some hartifact
          rw [List.filterMap_cons_some hresult] at hr
          rcases List.mem_cons.mp hr with rfl | hr
          · exact ⟨node, List.mem_cons_self, _, _, hartifact, hfanout⟩
          · exact hrest hr

/-- Nodes with warm documents do not get stuck. -/
theorem not_stuck_of_warm (hwarm : ∀ d ∈ E.documentsOf outcome nodes, E.Warm d cache) :
    ¬ E.Stuck outcome nodes cache := by
  intro h
  induction h with
  | here hfails =>
      obtain ⟨q, identity, ms, hartifact, hnone⟩ := hfails
      rw [documentsOf_cons_some hartifact, List.forall_mem_cons] at hwarm
      obtain ⟨_, _, -, -, hreused⟩ := hwarm.1.realized _
      cases hnone.symm.trans hreused
  | @later node nodes _ _ _ hnode _ ih =>
      cases hartifact : E.artifactOf outcome node with
      | none =>
          obtain ⟨-, rfl⟩ := hnode.of_none hartifact
          rw [documentsOf_cons_none hartifact] at hwarm
          exact ih hwarm
      | some artifact =>
          obtain ⟨r, ms, -, -, -, hrealized⟩ := hnode.of_some hartifact
          rw [documentsOf_cons_some hartifact, List.forall_mem_cons] at hwarm
          obtain ⟨_, _, -, -, hreused⟩ := hwarm.1.realized _
          have hcache := congrArg Realized.cache (Option.some.inj (hrealized.symm.trans hreused))
          dsimp only at hcache
          exact ih (hcache ▸ hwarm.2)

end Nodes

end Executor

/-! ## Resolved plans -/

namespace Resolution

open Executor

variable {E : Executor} {host : PlannerHostSnapshot} {raw : RawRequest} {scope : BuildScope}
  (r : Resolution E.canon E.vllm host raw scope)

/-- The document of a requirement. -/
def document (q : ArtifactRequirement) : MaterializedArtifactDocument :=
  E.artifactDocument r.outcome q (r.manifestIdentity q)

theorem documents_perm : (E.documents r.outcome).Perm (r.requirements.map r.document) := by
  have hnodes := r.filterMap_artifactOf fun _ artifact =>
    E.artifactDocument r.outcome artifact.1 artifact.2
  exact (executionOrder_perm.filterMap _).trans (.of_eq hnodes)

theorem cacheNamespace_document {q : ArtifactRequirement} {region : CompileRegion}
    (h : region ∈ r.regions) (hname : region.name = q.scope) :
    (r.document q).cacheNamespace = region.cacheNamespace := by
  show cacheNamespaceForScope r.outcome q.scope = _
  rw [cacheNamespaceForScope, ← hname, r.compileRegionForScope_eq h]

/-- Requirements of one class whose documents have one invalidation domain are one. -/
theorem eq_of_invalidates {q q' : ArtifactRequirement} (h : q ∈ r.requirements)
    (h' : q' ∈ r.requirements) (hinvalid : invalidates (r.document q) (r.document q') = true) :
    q = q' := by
  obtain ⟨-, hdomain, hclass⟩ := of_decide_eq_true hinvalid
  obtain ⟨region, hregion, hname, hlookup⟩ := r.exists_region h
  obtain ⟨region', hregion', hname', hlookup'⟩ := r.exists_region h'
  simp only [document, artifactDocument, invalidationDomainForScope, hlookup, hlookup']
    at hdomain hclass
  refine r.eq_of_classScope h h' hclass.symm ?_
  rw [← hname, ← hname', r.eq_of_invalidationDomain hregion hregion' hdomain.symm]

/-- The documents of a plan have their own entries and do not invalidate each other. -/
theorem apart (hC : E.canon.CollisionFree) : (E.documents r.outcome).Pairwise Apart := by
  rw [r.documents_perm.pairwise_iff (fun h => symm h), List.pairwise_map]
  refine r.nodup_requirements.imp_of_mem fun {q q'} hq hq' hne => ⟨?_, ?_⟩
  · intro hkey
    have hstorage := congrArg (fun key => CanonicalHash.mk key.2) hkey
    exact hne (r.eq_of_artifactStorageKey hC hq hq' hstorage)
  · exact Bool.eq_false_iff.mpr fun hinvalid => hne (r.eq_of_invalidates hq hq' hinvalid)

/-- Documents of plans over one survey with one storage key have one entry, and what invalidates one
    of them invalidates the other. -/
theorem document_of_artifactStorageKey {host' : PlannerHostSnapshot} {raw' : RawRequest}
    {scope' : BuildScope} (r' : Resolution E.canon E.vllm host' raw' scope')
    (hC : E.canon.CollisionFree) {q q' : ArtifactRequirement} (h : q ∈ r.requirements)
    (h' : q' ∈ r'.requirements)
    (heq : artifactStorageKey r.outcome E.canon q = artifactStorageKey r'.outcome E.canon q') :
    (r.document q).cacheKey = (r'.document q').cacheKey ∧
      ∀ d, invalidates d (r.document q) = invalidates d (r'.document q') := by
  obtain ⟨surveyed, -, -, hlookup, hlookup', hsame⟩ :=
    exists_surveyed_of_artifactStorageKey r r' hC h h' heq
  have hclass : q.artifactClass = q'.artifactClass := by
    rcases hsame with ⟨-, rfl⟩ | ⟨-, haddress⟩
    · rfl
    · simp only [contentAddress, List.cons.injEq, toValue_inj] at haddress
      exact haddress.2.1
  have hnamespace : (r.document q).cacheNamespace = (r'.document q').cacheNamespace := by
    simp only [document, artifactDocument, cacheNamespaceForScope, hlookup, hlookup', compileRegion]
  have hdomain : (r.document q).invalidationDomain = (r'.document q').invalidationDomain := by
    simp only [document, artifactDocument, invalidationDomainForScope, hlookup, hlookup',
      compileRegion]
  refine ⟨Prod.ext (congrArg slug hnamespace) (congrArg CanonicalHash.asStr heq), fun d => ?_⟩
  unfold invalidates
  rw [hnamespace, hdomain]
  exact congrArg (fun c => decide (_ ∧ _ ∧ c = _)) hclass

/-- Artifacts of one wave are realized in the order of the plan. -/
theorem sublist_documents {q q' : ArtifactRequirement} (h : [q, q'].Sublist r.requirements)
    (hkey : waveKey (artifactNode E.canon q) = waveKey (artifactNode E.canon q')) :
    [r.document q, r.document q'].Sublist (E.documents r.outcome) := by
  have hnodes : [artifactNode E.canon q, artifactNode E.canon q'].Sublist r.nodes :=
    (h.map (artifactNode E.canon)).trans ((map_sublist_flatMap (fun q => by simp [requirementNodes])
      _).trans (List.sublist_append_left _ _))
  have hdocuments := (sublist_executionOrder_of_waveKey hnodes hkey).filterMap fun node =>
    (E.artifactOf r.outcome node).map fun artifact =>
      E.artifactDocument r.outcome artifact.1 artifact.2
  simp only [List.filterMap_cons, r.artifactOf_artifactNode (h.subset (by simp : q ∈ _)),
    r.artifactOf_artifactNode (h.subset (by simp : q' ∈ _)), Option.map_some,
    List.filterMap_nil] at hdocuments
  exact hdocuments

/-! ### An entry with the domain of another artifact -/

/-- The document of `q` with the invalidation domain of `q'`. It is not content-addressed, so the
    domain is not compared. -/
def misfiled (q q' : ArtifactRequirement) : MaterializedArtifactDocument :=
  { r.document q with
    cacheSharing := some .namespaceLocal
    invalidationDomain := (r.document q').invalidationDomain }

theorem same_misfiled (q q' : ArtifactRequirement) :
    sameArtifactDocumentIdentity (r.misfiled q q') (r.document q) = true := by
  simp [sameArtifactDocumentIdentity, misfiled]

/-- The entry disturbs a run in which `q'` is realized after `q`. -/
theorem not_undisturbed (hC : E.canon.CollisionFree) {q q' : ArtifactRequirement}
    (hq' : q' ∈ r.requirements) (hclass : q.artifactClass = q'.artifactClass)
    (hnamespace : (r.document q).cacheNamespace = (r.document q').cacheNamespace)
    (hsub : [r.document q, r.document q'].Sublist (E.documents r.outcome)) {cache : Cache}
    {bytes : Bytes} (hget : cache.get? (r.document q).cacheKey = some bytes)
    (hread : E.read? bytes = some (r.misfiled q q')) :
    ¬ E.Undisturbed (E.documents r.outcome) cache := by
  obtain ⟨before, after, hsplit, hafter⟩ := exists_eq_append_of_sublist hsub
  have hinvalidates : ∀ d, invalidates d (r.misfiled q q') = invalidates d (r.document q') := by
    intro d
    unfold invalidates
    rw [misfiled, hnamespace]
    exact congrArg (fun c => decide (_ ∧ _ ∧ c = _)) hclass
  intro hkept
  obtain ⟨earlier, hearlier, -, hinvalid⟩ := hkept before _ after hsplit bytes _ hget hread
    (r.same_misfiled q q') ⟨_, hafter, congrArg slug hnamespace, by
      rw [hinvalidates]
      simp [invalidates]⟩
  -- only the document of q' has that domain, and it comes later
  have hapart := hsplit ▸ r.apart hC
  have hmem : earlier ∈ E.documents r.outcome := hsplit ▸ List.mem_append_left _ hearlier
  obtain ⟨p, hp, rfl⟩ := List.mem_map.mp (r.documents_perm.mem_iff.mp hmem)
  rw [hinvalidates] at hinvalid
  cases r.eq_of_invalidates hp hq' hinvalid
  exact ((List.pairwise_append.mp hapart).2.2 _ hearlier _ (List.mem_cons_of_mem _ hafter)).1 rfl

variable {buildScope : BuildScope} {world world' : World} {report : MaterializationExecutionReport}

/-- What a run does to the documents of the plan, and what its report says about it. -/
theorem exists_documentsRun (hC : E.canon.CollisionFree)
    (h : (E.execute r.outcome buildScope).run world = .ok report world') :
    ∃ xs, E.DocumentsRun (E.documents r.outcome) world.cache xs world'.cache ∧
      (∀ a ∈ report.artifacts, ∃ d x, (d, x) ∈ (E.documents r.outcome).zip xs ∧
        x.part d = realizedPart a) ∧
      ∀ d x, (d, x) ∈ (E.documents r.outcome).zip xs → ∃ a ∈ report.artifacts,
        realizedPart a = x.part d := by
  obtain ⟨run⟩ := r.exists_runReport h
  obtain ⟨xs, hdocuments, hmap⟩ := run.nodesRun.documentsRun
  have hperm : (report.artifacts.map realizedPart).Perm
      (((E.documents r.outcome).zip xs).map fun p => p.2.part p.1) :=
    hmap ▸ (run.artifacts_perm (r.nodup_storageKeys hC)).map realizedPart
  refine ⟨xs, hdocuments, ?_⟩
  generalize (E.documents r.outcome).zip xs = pairs at hperm ⊢
  refine ⟨fun a ha => ?_, fun d x hmem => ?_⟩
  · obtain ⟨⟨d, x⟩, hmem, heq⟩ := List.mem_map.mp (hperm.mem_iff.mp (List.mem_map_of_mem ha))
    exact ⟨d, x, hmem, heq⟩
  · exact List.mem_map.mp (hperm.mem_iff.mpr (List.mem_map.mpr ⟨(d, x), hmem, rfl⟩))

/-- The fanout of an artifact is the one that its times make preferable for its requirement. -/
theorem preferredFanoutStrategy_eq (hC : E.canon.CollisionFree)
    (h : (E.execute r.outcome buildScope).run world = .ok report world')
    {a : MaterializedArtifactRecord} (ha : a ∈ report.artifacts) :
    ∃ q ∈ r.requirements, a.preferredFanoutStrategy = observedPreferredStrategy q a.rebuildMs := by
  obtain ⟨run⟩ := r.exists_runReport h
  obtain ⟨node, hnode, q, identity, hartifact, hfanout⟩ := run.nodesRun.preferredFanoutStrategy
    ((run.artifacts_perm (r.nodup_storageKeys hC)).mem_iff.mp ha)
  have hq : q ∈ r.requirements := by
    obtain ⟨q', hq', heq⟩ := List.mem_map.mp (Dict.mem_of_get?_ofEntries
      (artifactOf_eq_some.mp hartifact).2.1)
    exact (Prod.mk.inj heq).2 ▸ hq'
  exact ⟨q, hq, hfanout⟩

/-- If every artifact is reused then so is every document. -/
theorem exists_reusedRun (hC : E.canon.CollisionFree)
    (h : (E.execute r.outcome buildScope).run world = .ok report world')
    (hreused : ∀ a ∈ report.artifacts, a.disposition = .reused) :
    ∃ xs, E.DocumentsRun (E.documents r.outcome) world.cache xs world'.cache ∧
      ∀ x ∈ xs, x.disposition = .reused := by
  obtain ⟨xs, hrun, -, hrecords⟩ := r.exists_documentsRun hC h
  refine ⟨xs, hrun, fun x hx => ?_⟩
  obtain ⟨d, hmem⟩ := hrun.exists_document hx
  obtain ⟨a, ha, heq⟩ := hrecords d x hmem
  exact (congrArg (·.2.1) heq).symm.trans (hreused a ha)

/-- A plan whose documents are warm is executed again without a change of the cache, with the
    times of the entries. -/
theorem execute_of_warm (hC : E.canon.CollisionFree) {world : World}
    (hwarm : ∀ d ∈ E.documents r.outcome, E.Warm d world.cache) :
    ∃ report world', (E.execute r.outcome buildScope).run world = .ok report world' ∧
      (∀ a ∈ report.artifacts, a.disposition = .reused ∧ ∃ d ∈ E.documents r.outcome,
        ∃ bytes existing, world.cache.get? d.cacheKey = some bytes ∧
          E.read? bytes = some existing ∧ a.rebuildMs = (reuse d existing 0).rebuildMs) ∧
      world'.cache = world.cache := by
  have hfinishes := r.execute_finishes buildScope world
  cases hrun : (E.execute r.outcome buildScope).run world with
  | error e world' => exact absurd (hfinishes.of_error hrun).2 (not_stuck_of_warm hwarm)
  | ok report world' =>
      obtain ⟨xs, hdocuments, hrecords, -⟩ := r.exists_documentsRun hC hrun
      obtain ⟨hcache, hreused⟩ := hdocuments.of_warm hwarm
      refine ⟨report, world', rfl, fun a ha => ?_, hcache⟩
      obtain ⟨d, x, hmem, heq⟩ := hrecords a ha
      obtain ⟨hdisposition, htimes⟩ := hreused x (List.of_mem_zip hmem).2
      simp only [Realized.part, realizedPart, Prod.mk.injEq] at heq
      exact heq.2.1 ▸ heq.2.2 ▸ ⟨hdisposition, htimes⟩

end Resolution

/-! ## Caches that the executor has written -/

open Executor

variable {E : Executor} {host : PlannerHostSnapshot} {raw : RawRequest} {scope : BuildScope}

/-- Every entry is the document of a requirement of some plan, as it was observed. -/
def Executor.Written (E : Executor) (cache : Cache) : Prop :=
  ∀ key bytes, cache.get? key = some bytes → ∃ host raw scope,
    ∃ r : Resolution E.canon E.vllm host raw scope, ∃ q ∈ r.requirements, ∃ ms,
      key = (r.document q).cacheKey ∧
        bytes = .text (E.canon.canonicalJson ((r.document q).observe ms))

/-- A run over documents of plans leaves such a cache. -/
theorem Executor.DocumentsRun.written {documents : List MaterializedArtifactDocument}
    {cache cache' : Cache} {xs : List Realized} (h : E.DocumentsRun documents cache xs cache')
    (r : Resolution E.canon E.vllm host raw scope)
    (hdocuments : ∀ d ∈ documents, ∃ q ∈ r.requirements, r.document q = d)
    (hwritten : E.Written cache) : E.Written cache' := by
  induction h with
  | nil => exact hwritten
  | @cons document documents cache cache' x xs ms hstep _ ih =>
      rw [List.forall_mem_cons] at hdocuments
      refine ih hdocuments.2 fun key bytes hget => ?_
      obtain ⟨-, ⟨_, _, -, -, -, rfl⟩ | ⟨-, rfl⟩⟩ := realized_cases hstep
      · exact hwritten key bytes (get?_of_evicted hget)
      · rw [Dict.get?_set] at hget
        split at hget
        · next hkey =>
            obtain ⟨q, hq, rfl⟩ := hdocuments.1
            exact ⟨host, raw, scope, r, q, hq, _, hkey, (Option.some.inj hget).symm⟩
        · exact hwritten key bytes (get?_of_evicted hget)

/-- In such a cache an entry is evicted only for its own artifact. -/
theorem Resolution.undisturbed_of_written (r : Resolution E.canon E.vllm host raw scope)
    (hC : E.canon.CollisionFree) (hround : E.RoundTrip) {cache : Cache}
    (hwritten : E.Written cache) : E.Undisturbed (E.documents r.outcome) cache := by
  rintro before document after hsplit bytes existing hget hread - ⟨later, hlater, -, hinvalid⟩
  have hmem : document ∈ E.documents r.outcome := hsplit ▸ by simp
  obtain ⟨q, hq, rfl⟩ := List.mem_map.mp (r.documents_perm.mem_iff.mp hmem)
  obtain ⟨_, _, _, r', q', hq', ms, hkey, rfl⟩ := hwritten _ _ hget
  cases (read?_canonicalJson hround _).symm.trans hread
  obtain ⟨-, hsame⟩ := r.document_of_artifactStorageKey r' hC hq hq'
    (congrArg (fun key => CanonicalHash.mk key.2) hkey)
  have hapart := (List.pairwise_cons.mp (List.pairwise_append.mp (hsplit ▸ r.apart hC)).2.1).1
  cases ((hsame later).trans hinvalid).symm.trans (symm (hapart later hlater)).2

/-! ## Warm rebuilds -/

section Rebuilds

variable {outcome : PlanningOutcome} {buildScope buildScope' : BuildScope}
  {world world' again : World} {report : MaterializationExecutionReport}

/-- **Warm rebuilds.** Executed again, a plan reuses every artifact and leaves the cache as it is,
    exactly when in the first run no entry that an artifact is taken for was evicted by a later
    artifact. So it is in every cache that the executor has written, and the run leaves such a
    cache. -/
theorem warm_rebuild_iff (hC : E.canon.CollisionFree) (hround : E.RoundTrip)
    (h : resolveScoped E.canon E.vllm host raw scope = .ok outcome)
    (hrun : (E.execute outcome buildScope).run world = .ok report world')
    (hagain : again.cache = world'.cache) :
    ((∃ report' again', (E.execute outcome buildScope').run again = .ok report' again' ∧
      (∀ a ∈ report'.artifacts, a.disposition = .reused) ∧ again'.cache = again.cache) ↔
      E.Undisturbed (E.documents outcome) world.cache) ∧
    (E.Written world.cache →
      E.Undisturbed (E.documents outcome) world.cache ∧ E.Written world'.cache) := by
  obtain ⟨r, rfl⟩ := Resolution.exists_of_ok h
  obtain ⟨xs, hdocuments, -⟩ := r.exists_documentsRun hC hrun
  have hleft := hdocuments
  rw [← hagain] at hdocuments
  refine ⟨⟨?_, ?_⟩, fun hwritten => ⟨r.undisturbed_of_written hC hround hwritten, ?_⟩⟩
  · rintro ⟨report', again', hrun', hreused, -⟩
    obtain ⟨ys, hdocuments', hreused⟩ := r.exists_reusedRun hC hrun' hreused
    exact hdocuments.undisturbed (r.apart hC) hdocuments' hreused
  · intro hkept
    obtain ⟨report', again', hrun', hreused, hcache⟩ :=
      r.execute_of_warm hC (hdocuments.warm hround (r.apart hC) hkept)
    exact ⟨report', again', hrun', fun a ha => (hreused a ha).1, hcache⟩
  · exact hleft.written r (fun d hd => List.mem_map.mp (r.documents_perm.mem_iff.mp hd)) hwritten

/-- The sample, executed a second time. -/
theorem warm_rebuild_amd : ∃ report world',
    (amdExecutor.execute (amdPlan ⟨1, 1, 1⟩).outcome bodyScope).run freshWorld =
      .ok report world' ∧
    ∃ report' again', (amdExecutor.execute (amdPlan ⟨1, 1, 1⟩).outcome bodyScope).run world' =
        .ok report' again' ∧
      (∀ a ∈ report'.artifacts, a.disposition = .reused) ∧ again'.cache = world'.cache := by
  obtain ⟨report, world', hrun⟩ := execute_amd (.standard ⟨1, 1, 1⟩)
  obtain ⟨hiff, hwritten⟩ := warm_rebuild_iff Canon.ideal_collisionFree
    (lossless_roundTrip _ _) (amdPlan ⟨1, 1, 1⟩).resolveScoped_eq hrun rfl
  exact ⟨report, world', hrun, hiff.mpr (hwritten fun _ _ hget => by cases hget).1⟩

/-- A compiled graph of the sample. -/
noncomputable def amdArtifact (region : AnchoredRegion) : ArtifactRequirement :=
  amdGraph .ideal (.standard ⟨1, 1, 1⟩) region

/-- The prefill graph and the transformer body have one namespace. -/
theorem cacheNamespace_amd :
    ((amdPlan ⟨1, 1, 1⟩).document (amdArtifact prefillAttention)).cacheNamespace =
      ((amdPlan ⟨1, 1, 1⟩).document (amdArtifact transformerBlockBody)).cacheNamespace := by
  have hregions : (amdPlan ⟨1, 1, 1⟩).regions = amdRegions .ideal :=
    regions_amd .ideal (.standard ⟨1, 1, 1⟩)
  rw [Resolution.cacheNamespace_document _ (hregions ▸ List.mem_cons_self) rfl,
    Resolution.cacheNamespace_document _
      (hregions ▸ List.mem_cons_of_mem _ List.mem_cons_self) rfl]
  rfl

/-- The entry of the prefill graph, filed under the domain of the transformer body. -/
noncomputable def misfiledWorld : World :=
  { freshWorld with
    cache := Dict.empty.set ((amdPlan ⟨1, 1, 1⟩).document (amdArtifact prefillAttention)).cacheKey
      (.text (Canon.ideal.canonicalJson ((amdPlan ⟨1, 1, 1⟩).misfiled
        (amdArtifact prefillAttention) (amdArtifact transformerBlockBody)))) }

theorem not_undisturbed_amd : ¬ amdExecutor.Undisturbed
    (amdExecutor.documents (amdPlan ⟨1, 1, 1⟩).outcome) misfiledWorld.cache := by
  have hsub : [amdArtifact prefillAttention, amdArtifact transformerBlockBody].Sublist
      (amdPlan ⟨1, 1, 1⟩).requirements := sublist_requirements_amd .ideal (.standard ⟨1, 1, 1⟩)
  have hbody : amdArtifact transformerBlockBody ∈ (amdPlan ⟨1, 1, 1⟩).requirements :=
    hsub.subset (List.mem_cons_of_mem _ List.mem_cons_self)
  have hclass : ∀ region, (amdArtifact region).artifactClass = .compiledGraph := fun _ => rfl
  have hwave : ∀ region, isTransfer (amdArtifact region).acquisition = false →
      waveKey (artifactNode amdExecutor.canon (amdArtifact region)) = (1, .compile) := by
    intro region htransfer
    simp [waveKey, artifactNode, hclass, htransfer]
  exact (amdPlan ⟨1, 1, 1⟩).not_undisturbed Canon.ideal_collisionFree hbody
    ((hclass _).trans (hclass _).symm) cacheNamespace_amd
    ((amdPlan ⟨1, 1, 1⟩).sublist_documents hsub ((hwave _ rfl).trans (hwave _ rfl).symm))
    (Dict.get?_set_self ..) (read?_canonicalJson (lossless_roundTrip _ _) _)

/-- It is reused for the prefill graph and then evicted for the transformer body, so the second
    run builds the prefill graph again. -/
theorem not_warm_rebuild : ∃ report world',
    (amdExecutor.execute (amdPlan ⟨1, 1, 1⟩).outcome bodyScope).run misfiledWorld =
      .ok report world' ∧
    ¬ ∃ report' again', (amdExecutor.execute (amdPlan ⟨1, 1, 1⟩).outcome bodyScope).run world' =
        .ok report' again' ∧
      (∀ a ∈ report'.artifacts, a.disposition = .reused) ∧ again'.cache = world'.cache := by
  have hround : amdExecutor.RoundTrip := lossless_roundTrip _ _
  have hreadable : amdExecutor.Readable misfiledWorld.cache := by
    intro key bytes hget
    rw [misfiledWorld, Dict.get?_set] at hget
    split at hget
    · cases hget
      exact (read?_canonicalJson hround _) ▸ rfl
    · cases hget
  obtain ⟨report, world', hrun⟩ := (amdPlan ⟨1, 1, 1⟩).execute_returns hround bodyScope hreadable
  refine ⟨report, world', hrun, ?_⟩
  rintro ⟨report', again', hrun', hreused, -⟩
  obtain ⟨xs, hdocuments, -⟩ :=
    (amdPlan ⟨1, 1, 1⟩).exists_documentsRun Canon.ideal_collisionFree hrun
  obtain ⟨ys, hdocuments', hreused⟩ :=
    (amdPlan ⟨1, 1, 1⟩).exists_reusedRun Canon.ideal_collisionFree hrun' hreused
  have hkept := hdocuments.undisturbed ((amdPlan ⟨1, 1, 1⟩).apart Canon.ideal_collisionFree)
    hdocuments' hreused
  exact not_undisturbed_amd hkept

/-! ## Runs on other caches -/

variable {world₁ world₂ world₁' world₂' : World}
  {report₁ report₂ : MaterializationExecutionReport}

/-- **What a run reports does not depend on the cache**, apart from dispositions, sizes and times,
    the counts and the mode that follow from the dispositions, the fanout that the times make
    preferable, and the realization identity. -/
theorem report_of_other_cache (h : resolveScoped E.canon E.vllm host raw scope = .ok outcome)
    (h₁ : (E.execute outcome buildScope).run world₁ = .ok report₁ world₁')
    (h₂ : (E.execute outcome buildScope).run world₂ = .ok report₂ world₂') :
    let proof₁ := ReplayProofDocument.fromPlanAndMaterialization E.canon outcome.plan report₁
    let proof₂ := ReplayProofDocument.fromPlanAndMaterialization E.canon outcome.plan report₂
    proof₁.resultArtifactIdentity = proof₂.resultArtifactIdentity ∧
    report₁.nodes.map (·.nodeName) = report₂.nodes.map (·.nodeName) ∧
    report₁.waves.map (·.waveName) = report₂.waves.map (·.waveName) ∧
    report₁.readiness = report₂.readiness ∧
    report₁.runtimeJitObservations = report₂.runtimeJitObservations ∧
    report₁.closureOutcome = report₂.closureOutcome ∧
    plannedView report₁ = plannedView report₂ ∧ plannedProof proof₁ = plannedProof proof₂ := by
  obtain ⟨r, rfl⟩ := Resolution.exists_of_ok h
  obtain ⟨run₁⟩ := r.exists_runReport h₁
  obtain ⟨run₂⟩ := r.exists_runReport h₂
  have hview : plannedView report₁ = plannedView report₂ :=
    run₁.plannedView_eq.trans run₂.plannedView_eq.symm
  have hproof : plannedProof (.fromPlanAndMaterialization E.canon r.plan report₁) =
      plannedProof (.fromPlanAndMaterialization E.canon r.plan report₂) := by
    rw [plannedProof_plannedView, hview, ← plannedProof_plannedView]
  have hnodes := congrArg (fun view => view.nodes.map (·.nodeName)) hview
  have hwaves := congrArg (fun view => view.waves.map (·.waveName)) hview
  simp only [plannedView, List.map_map] at hnodes hwaves
  exact ⟨congrArg (·.resultArtifactIdentity) hproof, hnodes, hwaves,
    congrArg (·.readiness) hview, congrArg (·.runtimeJitObservations) hview,
    congrArg (·.closureOutcome) hview, hview, hproof⟩

/-- A cache in which every artifact of the sample on two ranks took the same time. -/
noncomputable def storedWorld (ms : Nat) : World :=
  { freshWorld with
    cache := amdExecutor.stored (amdExecutor.documents (amdPlan ⟨2, 1, 1⟩).outcome) ms }

theorem cache_storedWorld (ms : Nat) : (storedWorld ms).cache =
    amdExecutor.stored (amdExecutor.documents (amdPlan ⟨2, 1, 1⟩).outcome) ms := by
  rw [storedWorld]

/-- The sample on such a cache: its artifacts are reused with that time. -/
theorem execute_storedWorld (ms : Nat) : ∃ report world',
    (amdExecutor.execute (amdPlan ⟨2, 1, 1⟩).outcome bodyScope).run (storedWorld ms) =
      .ok report world' ∧ ∀ a ∈ report.artifacts, a.rebuildMs = ms := by
  have hround : amdExecutor.RoundTrip := lossless_roundTrip _ _
  have hapart : (amdExecutor.documents (amdPlan ⟨2, 1, 1⟩).outcome).Pairwise Apart :=
    (amdPlan ⟨2, 1, 1⟩).apart Canon.ideal_collisionFree
  have hwarm : ∀ d ∈ amdExecutor.documents (amdPlan ⟨2, 1, 1⟩).outcome,
      amdExecutor.Warm d (storedWorld ms).cache := by
    intro d hd
    rw [cache_storedWorld]
    exact warm_stored hround hapart hd
  obtain ⟨report, world', hrun, hreused, -⟩ :=
    (amdPlan ⟨2, 1, 1⟩).execute_of_warm Canon.ideal_collisionFree hwarm
  refine ⟨report, world', hrun, fun a ha => ?_⟩
  obtain ⟨-, d, -, bytes, existing, hget, hread, htime⟩ := hreused a ha
  rw [cache_storedWorld] at hget
  obtain ⟨d', -, -, rfl⟩ := get?_stored hget
  have hexisting := Option.some.inj ((read?_canonicalJson hround (d'.observe ms)).symm.trans hread)
  rw [htime, ← hexisting]
  exact rebuildMs_reuse_observe d d' ms

/-- The sample on two such caches. -/
theorem report_of_other_cache_amd : ∃ report₁ world₁' report₂ world₂',
    (amdExecutor.execute (amdPlan ⟨2, 1, 1⟩).outcome bodyScope).run (storedWorld 1) =
      .ok report₁ world₁' ∧
    (amdExecutor.execute (amdPlan ⟨2, 1, 1⟩).outcome bodyScope).run (storedWorld 1000) =
      .ok report₂ world₂' ∧
    plannedView report₁ = plannedView report₂ := by
  obtain ⟨report₁, world₁', h₁, -⟩ := execute_storedWorld 1
  obtain ⟨report₂, world₂', h₂, -⟩ := execute_storedWorld 1000
  exact ⟨report₁, world₁', report₂, world₂', h₁, h₂,
    (report_of_other_cache (amdPlan ⟨2, 1, 1⟩).resolveScoped_eq h₁ h₂).2.2.2.2.2.2.1⟩

/-- Artifacts that took a second are to be broadcast, those that took a millisecond are not. -/
theorem preferredFanoutStrategy_differs : ∃ report₁ world₁' report₂ world₂',
    (amdExecutor.execute (amdPlan ⟨2, 1, 1⟩).outcome bodyScope).run (storedWorld 1) =
      .ok report₁ world₁' ∧
    (amdExecutor.execute (amdPlan ⟨2, 1, 1⟩).outcome bodyScope).run (storedWorld 1000) =
      .ok report₂ world₂' ∧
    report₁.artifacts.map (·.preferredFanoutStrategy) ≠
      report₂.artifacts.map (·.preferredFanoutStrategy) := by
  obtain ⟨report₁, world₁', h₁, htime₁⟩ := execute_storedWorld 1
  obtain ⟨report₂, world₂', h₂, htime₂⟩ := execute_storedWorld 1000
  refine ⟨report₁, world₁', report₂, world₂', h₁, h₂, fun heq => ?_⟩
  have hshared : ∀ q ∈ (amdPlan ⟨2, 1, 1⟩).requirements,
      observedPreferredStrategy q 1 = .rebuildPerRank ∧
        observedPreferredStrategy q 1000 = .broadcastFromLeader := by
    intro q hq
    obtain ⟨region, hregion, hq⟩ := List.mem_flatMap.mp
      ((requirements_perm_amd .ideal (.standard ⟨2, 1, 1⟩)).mem_iff.mp hq)
    rw [regionRequirements, List.mem_pair] at hq
    simp only [amdRegions, List.map_cons, List.map_nil, List.mem_pair] at hregion
    rcases hregion with rfl | rfl <;> rcases hq with rfl | rfl <;> exact ⟨rfl, rfl⟩
  have hone : ∀ strategy ∈ report₁.artifacts.map (·.preferredFanoutStrategy),
      strategy = .rebuildPerRank := by
    intro strategy hmem
    obtain ⟨a, ha, rfl⟩ := List.mem_map.mp hmem
    obtain ⟨q, hq, hfanout⟩ :=
      (amdPlan ⟨2, 1, 1⟩).preferredFanoutStrategy_eq Canon.ideal_collisionFree h₁ ha
    rw [hfanout, htime₁ a ha]
    exact (hshared q hq).1
  obtain ⟨q, hq, -⟩ := exists_shared_amd (.standard ⟨2, 1, 1⟩)
  obtain ⟨a, ha, -⟩ :=
    (amdPlan ⟨2, 1, 1⟩).exists_plannedPart Canon.ideal_collisionFree h₂ hq
  obtain ⟨q, hq, hfanout⟩ :=
    (amdPlan ⟨2, 1, 1⟩).preferredFanoutStrategy_eq Canon.ideal_collisionFree h₂ ha
  rw [htime₂ a ha, (hshared q hq).2] at hfanout
  have hbroadcast := hone _ (heq ▸ List.mem_map_of_mem ha)
  rw [hfanout] at hbroadcast
  cases hbroadcast

end Rebuilds

end Sock.Engine
