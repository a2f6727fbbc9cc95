/-
  Replay bundles (core/src/bundle.rs): a directory with the plan, the documents about it, and
  a table of their digests.

  * `writeTo`: the twelve documents, the explanation, the script, and the metadata with the
    digest of each.
  * `loadFrom`: the metadata, the digests it lists, the twelve documents, eleven comparisons of
    a declared plan identity and three comparisons with a document derived from the plan.
  * `loadFrom_accepts_iff`: what is accepted, exactly. `digests_cover_iff`: a digest stands
    behind every parsed document only if the metadata lists them all. `loadFrom_writeTo`: what
    is written loads as the same bundle with its closure sorted.

  A directory is the content behind each path below it. `Parsers` are the readers that
  serde_json derives; a document that is only read for its plan identity keeps its other fields
  as they are serialized. The text of explain.txt is any function of the bundle.

  Not modelled: failures of writing, file permissions, changes of a file between two reads.
-/
import Sock.Lib.Fallible
import Sock.Core.Documents
import Sock.Core.Pretty

namespace Sock.Core

open Lib Lib.Fallible

/-! ## Documents -/

structure ArtifactManifestDocument where
  schemaVersion : SchemaVersion
  planIdentity : CanonicalHash
  artifacts : List ArtifactManifestEntry
  deriving DecidableEq

instance : Serialize ArtifactManifestDocument := ⟨fun d => .object
  [("schema_version", toValue d.schemaVersion), ("plan_identity", toValue d.planIdentity),
    ("artifacts", toValue d.artifacts)]⟩

def ArtifactManifestDocument.fromClosure (closure : ArtifactClosure) :
    ArtifactManifestDocument where
  schemaVersion := .current
  planIdentity := closure.planIdentity
  artifacts := sort closure.artifacts

structure ReplayBundleMetadata where
  schemaVersion : SchemaVersion
  planIdentity : CanonicalHash
  fileDigests : Std.ExtTreeMap String String
  replayEntrypoint : String

instance : Serialize ReplayBundleMetadata := ⟨fun m => .object
  [("schema_version", toValue m.schemaVersion), ("plan_identity", toValue m.planIdentity),
    ("file_digests", .object (m.fileDigests.toList.map fun e => (e.1, toValue e.2))),
    ("replay_entrypoint", toValue m.replayEntrypoint)]⟩

/-- `DiagnosticsDocument`, `VllmIntegrationDocument`, `SocPlanDocument` and
    `VllmEntrypointDocument`: the plan identity, and the fields that no check reads. -/
structure PlanDocument where
  schemaVersion : SchemaVersion
  planIdentity : CanonicalHash
  fields : List (String × Value)

instance : Serialize PlanDocument := ⟨fun d => .object
  (("schema_version", toValue d.schemaVersion) :: ("plan_identity", toValue d.planIdentity) ::
    d.fields)⟩

structure ReplayBundle where
  buildPlan : ResolvedBuildPlan
  artifactClosure : ArtifactClosure
  verificationReport : VerificationReport
  diagnostics : PlanDocument
  rewriteTrace : RewriteTraceDocument
  optimizationExplain : OptimizationExplainDocument
  backendDecision : BackendDecisionDocument
  materializationReport : MaterializationExecutionReport
  replayProof : ReplayProofDocument
  vllmIntegration : PlanDocument
  socPlan : PlanDocument
  vllmEntrypoints : PlanDocument

/-- `std::io::ErrorKind` of a read: no such file, or no UTF-8 text in it. -/
inductive ReadErrorKind
  | notFound | invalidData
  deriving DecidableEq

inductive ReplayBundleError
  | io (kind : ReadErrorKind)
  | json (message : String)
  | digestMismatch (file : String)
  | identityMismatch (document : String)
  | verificationMismatch
  | backendDecisionMismatch
  | replayProofMismatch
  deriving DecidableEq

/-! ## Directories -/

/-- The bytes behind each path below the directory. -/
abbrev Directory := String → Option Bytes

def Directory.empty : Directory := fun _ => none

def Directory.write (dir : Directory) (file : String) (text : String) : Directory :=
  Function.update dir file (some (.text text))

theorem Directory.write_self (dir : Directory) (file text : String) :
    dir.write file text file = some (.text text) := Function.update_self ..

theorem Directory.write_of_ne (dir : Directory) {file path : String} (h : path ≠ file)
    (text : String) : dir.write file text path = dir path := Function.update_of_ne h ..

def Directory.read (dir : Directory) (file : String) : Except ReplayBundleError Bytes :=
  match dir file with
  | some bytes => .ok bytes
  | none => .error (.io .notFound)

def Directory.readToString (dir : Directory) (file : String) :
    Except ReplayBundleError String := do
  match (← dir.read file).toStr with
  | some text => .ok text
  | none => .error (.io .invalidData)

/-- `serde_json::from_str` of a file's text. -/
def Directory.readJson {α : Type} (dir : Directory) (file : String)
    (fromStr : String → Except String α) : Except ReplayBundleError α := do
  let text ← dir.readToString file
  (fromStr text).mapError .json

theorem Directory.read_eq_ok {dir : Directory} {file : String} {bytes : Bytes} :
    dir.read file = .ok bytes ↔ dir file = some bytes := by
  unfold Directory.read
  cases dir file <;> simp

theorem Directory.readJson_eq_ok {α : Type} {dir : Directory} {file : String}
    {fromStr : String → Except String α} {a : α} :
    dir.readJson file fromStr = .ok a ↔
      ∃ text, dir file = some (.text text) ∧ fromStr text = .ok a := by
  unfold Directory.readJson Directory.readToString
  rw [bind_eq_ok]
  constructor
  · rintro ⟨text, hread, hparse⟩
    obtain ⟨bytes, hbytes, htext⟩ := bind_eq_ok.mp hread
    rw [Directory.read_eq_ok] at hbytes
    refine ⟨text, ?_, ?_⟩
    · cases bytes with
      | text s =>
          cases htext
          exact hbytes
      | other raw h => cases htext
    · cases hstr : fromStr text with
      | ok b =>
          rw [hstr] at hparse
          cases hparse
          rfl
      | error e =>
          rw [hstr] at hparse
          cases hparse
  · rintro ⟨text, hfile, hparse⟩
    refine ⟨text, ?_, by rw [hparse]; rfl⟩
    rw [Directory.read_eq_ok.mpr hfile]
    rfl

/-! ## Writing -/

def replayScript : String :=
  "#!/usr/bin/env sh\nset -eu\nDIR=$(CDPATH= cd -- \"$(dirname -- \"$0\")\" && pwd)\n" ++
    "exec cargo run --quiet --bin sock -- replay --bundle \"$DIR\"\n"

/-- The documents of a bundle with their file names, in the order of writing. -/
def ReplayBundle.documents (C : Canon) (b : ReplayBundle) : List (String × String) :=
  [("buildplan.json", C.canonicalJson b.buildPlan),
    ("artifact_manifest.json",
      C.canonicalJson (ArtifactManifestDocument.fromClosure b.artifactClosure)),
    ("verification_report.json", C.canonicalJson b.verificationReport),
    ("diagnostics.json", C.canonicalJson b.diagnostics),
    ("rewrite_trace.json", C.canonicalJson b.rewriteTrace),
    ("optimization_explain.json", C.canonicalJson b.optimizationExplain),
    ("backend_decision.json", C.canonicalJson b.backendDecision),
    ("materialization_report.json", C.canonicalJson b.materializationReport),
    ("replay_proof.json", C.canonicalJson b.replayProof),
    ("vllm_integration.json", C.canonicalJson b.vllmIntegration),
    ("soc_plan.json", C.canonicalJson b.socPlan),
    ("vllm_entrypoints.json", C.canonicalJson b.vllmEntrypoints)]

/-- The files whose digest is recorded. -/
def ReplayBundle.files (C : Canon) (explain : ReplayBundle → String) (b : ReplayBundle) :
    List (String × String) :=
  b.documents C ++ [("explain.txt", explain b), ("replay.sh", replayScript)]

def digestTable (C : Canon) (files : List (String × String)) : Std.ExtTreeMap String String :=
  files.foldl (fun digests f => digests.insert f.1 (C.sha256 (.text f.2))) ∅

def writeFiles (files : List (String × String)) (dir : Directory) : Directory :=
  files.foldl (fun dir f => dir.write f.1 f.2) dir

def ReplayBundle.metadata (C : Canon) (explain : ReplayBundle → String) (b : ReplayBundle) :
    ReplayBundleMetadata where
  schemaVersion := .current
  planIdentity := b.buildPlan.planIdentity
  fileDigests := digestTable C (b.files C explain)
  replayEntrypoint := "./replay.sh"

/-- The files and then the metadata. -/
def ReplayBundle.writeTo (C : Canon) (explain : ReplayBundle → String) (b : ReplayBundle)
    (dir : Directory) : ReplayBundleMetadata × Directory :=
  (b.metadata C explain, (writeFiles (b.files C explain) dir).write "bundle_metadata.json"
    (C.canonicalJson (b.metadata C explain)))

/-! ## Loading -/

/-- `serde_json::from_str` at the types of a bundle. -/
structure Parsers where
  metadata : String → Except String ReplayBundleMetadata
  buildPlan : String → Except String ResolvedBuildPlan
  artifactManifest : String → Except String ArtifactManifestDocument
  verificationReport : String → Except String VerificationReport
  diagnostics : String → Except String PlanDocument
  rewriteTrace : String → Except String RewriteTraceDocument
  optimizationExplain : String → Except String OptimizationExplainDocument
  backendDecision : String → Except String BackendDecisionDocument
  materializationReport : String → Except String MaterializationExecutionReport
  replayProof : String → Except String ReplayProofDocument
  vllmIntegration : String → Except String PlanDocument
  socPlan : String → Except String PlanDocument
  vllmEntrypoints : String → Except String PlanDocument

/-- The documents as they are parsed. -/
structure LoadedDocuments where
  metadata : ReplayBundleMetadata
  buildPlan : ResolvedBuildPlan
  artifactManifest : ArtifactManifestDocument
  verificationReport : VerificationReport
  diagnostics : PlanDocument
  rewriteTrace : RewriteTraceDocument
  optimizationExplain : OptimizationExplainDocument
  backendDecision : BackendDecisionDocument
  materializationReport : MaterializationExecutionReport
  replayProof : ReplayProofDocument
  vllmIntegration : PlanDocument
  socPlan : PlanDocument
  vllmEntrypoints : PlanDocument

def checkDigest (C : Canon) (dir : Directory) (entry : String × String) :
    Except ReplayBundleError Unit := do
  let bytes ← dir.read entry.1
  require (C.sha256 bytes = entry.2) (.digestMismatch entry.1)

/-- The listed digests, in the order of the file names. -/
def checkDigests (C : Canon) (dir : Directory) (digests : Std.ExtTreeMap String String) :
    Except ReplayBundleError Unit :=
  forM digests.toList (checkDigest C dir)

def Parsers.loadDocuments (P : Parsers) (C : Canon) (dir : Directory) :
    Except ReplayBundleError LoadedDocuments := do
  let metadata ← dir.readJson "bundle_metadata.json" P.metadata
  checkDigests C dir metadata.fileDigests
  let buildPlan ← dir.readJson "buildplan.json" P.buildPlan
  let artifactManifest ← dir.readJson "artifact_manifest.json" P.artifactManifest
  let verificationReport ← dir.readJson "verification_report.json" P.verificationReport
  let diagnostics ← dir.readJson "diagnostics.json" P.diagnostics
  let rewriteTrace ← dir.readJson "rewrite_trace.json" P.rewriteTrace
  let optimizationExplain ← dir.readJson "optimization_explain.json" P.optimizationExplain
  let backendDecision ← dir.readJson "backend_decision.json" P.backendDecision
  let materializationReport ←
    dir.readJson "materialization_report.json" P.materializationReport
  let replayProof ← dir.readJson "replay_proof.json" P.replayProof
  let vllmIntegration ← dir.readJson "vllm_integration.json" P.vllmIntegration
  let socPlan ← dir.readJson "soc_plan.json" P.socPlan
  let vllmEntrypoints ← dir.readJson "vllm_entrypoints.json" P.vllmEntrypoints
  return { metadata, buildPlan, artifactManifest, verificationReport, diagnostics, rewriteTrace,
           optimizationExplain, backendDecision, materializationReport, replayProof,
           vllmIntegration, socPlan, vllmEntrypoints }

namespace LoadedDocuments

variable (docs : LoadedDocuments)

/-- The plan identities that the documents declare, in the order of the checks. -/
def identities : List (String × CanonicalHash) :=
  [("bundle_metadata.json", docs.metadata.planIdentity),
    ("artifact_manifest.json", docs.artifactManifest.planIdentity),
    ("diagnostics.json", docs.diagnostics.planIdentity),
    ("rewrite_trace.json", docs.rewriteTrace.planIdentity),
    ("optimization_explain.json", docs.optimizationExplain.planIdentity),
    ("backend_decision.json", docs.backendDecision.planIdentity),
    ("materialization_report.json", docs.materializationReport.planIdentity),
    ("replay_proof.json", docs.replayProof.planIdentity),
    ("vllm_integration.json", docs.vllmIntegration.planIdentity),
    ("soc_plan.json", docs.socPlan.planIdentity),
    ("vllm_entrypoints.json", docs.vllmEntrypoints.planIdentity)]

def checkIdentity (document : String × CanonicalHash) : Except ReplayBundleError Unit :=
  require (document.2 = docs.buildPlan.planIdentity) (.identityMismatch document.1)

/-- The comparisons with the plan. -/
def check (C : Canon) : Except ReplayBundleError Unit := do
  forM docs.identities docs.checkIdentity
  require (docs.buildPlan.validate = docs.verificationReport) .verificationMismatch
  require (BackendDecisionDocument.fromPlan docs.buildPlan = docs.backendDecision)
    .backendDecisionMismatch
  require (ReplayProofDocument.fromPlanAndMaterialization C docs.buildPlan
    docs.materializationReport = docs.replayProof) .replayProofMismatch

/-- The bundle, with the closure sorted. -/
def bundle : ReplayBundle where
  buildPlan := docs.buildPlan
  artifactClosure := ⟨docs.artifactManifest.planIdentity, sort docs.artifactManifest.artifacts⟩
  verificationReport := docs.verificationReport
  diagnostics := docs.diagnostics
  rewriteTrace := docs.rewriteTrace
  optimizationExplain := docs.optimizationExplain
  backendDecision := docs.backendDecision
  materializationReport := docs.materializationReport
  replayProof := docs.replayProof
  vllmIntegration := docs.vllmIntegration
  socPlan := docs.socPlan
  vllmEntrypoints := docs.vllmEntrypoints

end LoadedDocuments

def Parsers.loadFrom (P : Parsers) (C : Canon) (dir : Directory) :
    Except ReplayBundleError ReplayBundle := do
  let docs ← P.loadDocuments C dir
  docs.check C
  return docs.bundle

/-! ## What is accepted -/

/-- The file behind each document, parsed. -/
structure LoadedDocuments.ParsedFrom (P : Parsers) (dir : Directory) (docs : LoadedDocuments) :
    Prop where
  metadata : dir.readJson "bundle_metadata.json" P.metadata = .ok docs.metadata
  buildPlan : dir.readJson "buildplan.json" P.buildPlan = .ok docs.buildPlan
  artifactManifest :
    dir.readJson "artifact_manifest.json" P.artifactManifest = .ok docs.artifactManifest
  verificationReport :
    dir.readJson "verification_report.json" P.verificationReport = .ok docs.verificationReport
  diagnostics : dir.readJson "diagnostics.json" P.diagnostics = .ok docs.diagnostics
  rewriteTrace : dir.readJson "rewrite_trace.json" P.rewriteTrace = .ok docs.rewriteTrace
  optimizationExplain :
    dir.readJson "optimization_explain.json" P.optimizationExplain = .ok docs.optimizationExplain
  backendDecision :
    dir.readJson "backend_decision.json" P.backendDecision = .ok docs.backendDecision
  materializationReport : dir.readJson "materialization_report.json" P.materializationReport =
    .ok docs.materializationReport
  replayProof : dir.readJson "replay_proof.json" P.replayProof = .ok docs.replayProof
  vllmIntegration :
    dir.readJson "vllm_integration.json" P.vllmIntegration = .ok docs.vllmIntegration
  socPlan : dir.readJson "soc_plan.json" P.socPlan = .ok docs.socPlan
  vllmEntrypoints :
    dir.readJson "vllm_entrypoints.json" P.vllmEntrypoints = .ok docs.vllmEntrypoints

/-- Every listed file is there and has the listed digest. -/
def DigestsMatch (C : Canon) (dir : Directory) (digests : Std.ExtTreeMap String String) : Prop :=
  ∀ file digest, digests[file]? = some digest →
    ∃ bytes, dir file = some bytes ∧ C.sha256 bytes = digest

/-- Every document declares the plan's identity, and the three derived documents are the ones
    derived from the plan. -/
structure LoadedDocuments.Agrees (C : Canon) (docs : LoadedDocuments) : Prop where
  identities : ∀ e ∈ docs.identities, e.2 = docs.buildPlan.planIdentity
  verification : docs.buildPlan.validate = docs.verificationReport
  backendDecision : BackendDecisionDocument.fromPlan docs.buildPlan = docs.backendDecision
  replayProof : ReplayProofDocument.fromPlanAndMaterialization C docs.buildPlan
    docs.materializationReport = docs.replayProof

section Load

variable {P : Parsers} {C : Canon} {dir : Directory} {docs : LoadedDocuments}

theorem checkDigest_eq_ok {entry : String × String} :
    checkDigest C dir entry = .ok () ↔
      ∃ bytes, dir entry.1 = some bytes ∧ C.sha256 bytes = entry.2 := by
  unfold checkDigest
  simp only [bind_eq_ok, Directory.read_eq_ok, require_eq_ok]

theorem checkDigests_eq_ok {digests : Std.ExtTreeMap String String} :
    checkDigests C dir digests = .ok () ↔ DigestsMatch C dir digests := by
  unfold checkDigests DigestsMatch
  rw [forM_eq_ok]
  constructor
  · intro h file digest hget
    exact checkDigest_eq_ok.mp
      (h (file, digest) (Std.ExtTreeMap.mem_toList_iff_getElem?_eq_some.mpr hget))
  · rintro h ⟨file, digest⟩ hmem
    exact checkDigest_eq_ok.mpr
      (h file digest (Std.ExtTreeMap.mem_toList_iff_getElem?_eq_some.mp hmem))

theorem loadDocuments_eq_ok :
    P.loadDocuments C dir = .ok docs ↔
      docs.ParsedFrom P dir ∧ DigestsMatch C dir docs.metadata.fileDigests := by
  unfold Parsers.loadDocuments
  simp only [bind_eq_ok]
  constructor
  · rintro ⟨metadata, h₀, ⟨⟩, hdigests, _, h₁, _, h₂, _, h₃, _, h₄, _, h₅, _, h₆, _, h₇, _, h₈,
      _, h₉, _, h₁₀, _, h₁₁, _, h₁₂, hdocs⟩
    cases hdocs
    exact ⟨⟨h₀, h₁, h₂, h₃, h₄, h₅, h₆, h₇, h₈, h₉, h₁₀, h₁₁, h₁₂⟩,
      checkDigests_eq_ok.mp hdigests⟩
  · rintro ⟨⟨h₀, h₁, h₂, h₃, h₄, h₅, h₆, h₇, h₈, h₉, h₁₀, h₁₁, h₁₂⟩, hdigests⟩
    exact ⟨_, h₀, (), checkDigests_eq_ok.mpr hdigests, _, h₁, _, h₂, _, h₃, _, h₄, _, h₅, _, h₆,
      _, h₇, _, h₈, _, h₉, _, h₁₀, _, h₁₁, _, h₁₂, rfl⟩

theorem check_eq_ok : docs.check C = .ok () ↔ docs.Agrees C := by
  unfold LoadedDocuments.check
  simp only [check_bind_eq_ok, forM_eq_ok, require_eq_ok, LoadedDocuments.checkIdentity]
  constructor
  · rintro ⟨hidentities, hreport, hdecision, hproof⟩
    exact ⟨hidentities, hreport, hdecision, hproof⟩
  · intro h
    exact ⟨h.identities, h.verification, h.backendDecision, h.replayProof⟩

theorem loadFrom_of_agrees (hparsed : docs.ParsedFrom P dir)
    (hdigests : DigestsMatch C dir docs.metadata.fileDigests) (hagrees : docs.Agrees C) :
    P.loadFrom C dir = .ok docs.bundle := by
  unfold Parsers.loadFrom
  rw [loadDocuments_eq_ok.mpr ⟨hparsed, hdigests⟩]
  exact check_bind_eq_ok.mpr ⟨check_eq_ok.mpr hagrees, rfl⟩

/-- The digests of the metadata are right in every directory that loads. -/
theorem digestsMatch_of_loadFrom {b : ReplayBundle} {metadata : ReplayBundleMetadata}
    (hmetadata : dir.readJson "bundle_metadata.json" P.metadata = .ok metadata)
    (h : P.loadFrom C dir = .ok b) : DigestsMatch C dir metadata.fileDigests := by
  obtain ⟨docs, hdocs, -⟩ := bind_eq_ok.mp h
  obtain ⟨hparsed, hdigests⟩ := loadDocuments_eq_ok.mp hdocs
  rw [hparsed.metadata] at hmetadata
  cases hmetadata
  exact hdigests

end Load

/-! ## Directories as written -/

theorem writeFiles_of_notMem {files : List (String × String)} {file : String}
    (h : file ∉ files.map Prod.fst) (dir : Directory) : writeFiles files dir file = dir file := by
  induction files generalizing dir with
  | nil => rfl
  | cons f files ih =>
      rw [List.map_cons, List.mem_cons, not_or] at h
      have hrest := ih h.2 (dir.write f.1 f.2)
      rw [writeFiles, List.foldl_cons]
      rw [writeFiles] at hrest
      rw [hrest, Directory.write_of_ne _ h.1]

theorem writeFiles_of_mem {files : List (String × String)} (hnodup : (files.map Prod.fst).Nodup)
    {f : String × String} (h : f ∈ files) (dir : Directory) :
    writeFiles files dir f.1 = some (.text f.2) := by
  induction files generalizing dir with
  | nil => cases h
  | cons g files ih =>
      rw [List.map_cons, List.nodup_cons] at hnodup
      rcases List.mem_cons.mp h with rfl | h
      · have hrest := writeFiles_of_notMem hnodup.1 (dir.write f.1 f.2)
        rw [writeFiles, List.foldl_cons]
        rw [writeFiles] at hrest
        rw [hrest, Directory.write_self]
      · exact ih hnodup.2 h (dir.write g.1 g.2)

/-- Every digest in the table is the digest of a file's text. -/
theorem mem_of_getElem?_digestTable {C : Canon} {files : List (String × String)}
    {file digest : String} (h : (digestTable C files)[file]? = some digest) :
    ∃ text, (file, text) ∈ files ∧ C.sha256 (.text text) = digest := by
  have hfold : ∀ (files : List (String × String)) (acc : Std.ExtTreeMap String String),
      (files.foldl (fun digests f => digests.insert f.1 (C.sha256 (.text f.2))) acc)[file]? =
        some digest →
      acc[file]? = some digest ∨ ∃ text, (file, text) ∈ files ∧ C.sha256 (.text text) = digest := by
    intro files
    induction files with
    | nil => exact fun acc h => .inl h
    | cons f files ih =>
        intro acc h
        rcases ih _ h with h | ⟨text, hmem, hdigest⟩
        · rw [Std.ExtTreeMap.getElem?_insert] at h
          split at h
          · next heq =>
              refine .inr ⟨f.2, ?_, Option.some.inj h⟩
              rw [← Std.LawfulEqOrd.compare_eq_iff_eq.mp heq]
              exact List.mem_cons_self
          · exact .inl h
        · exact .inr ⟨text, List.mem_cons_of_mem _ hmem, hdigest⟩
  rcases hfold files ∅ h with h | h
  · simp at h
  · exact h

/-- The texts of the documents, with their file names. -/
def LoadedDocuments.texts (C : Canon) (docs : LoadedDocuments) : List (String × String) :=
  [("bundle_metadata.json", C.canonicalJson docs.metadata),
    ("buildplan.json", C.canonicalJson docs.buildPlan),
    ("artifact_manifest.json", C.canonicalJson docs.artifactManifest),
    ("verification_report.json", C.canonicalJson docs.verificationReport),
    ("diagnostics.json", C.canonicalJson docs.diagnostics),
    ("rewrite_trace.json", C.canonicalJson docs.rewriteTrace),
    ("optimization_explain.json", C.canonicalJson docs.optimizationExplain),
    ("backend_decision.json", C.canonicalJson docs.backendDecision),
    ("materialization_report.json", C.canonicalJson docs.materializationReport),
    ("replay_proof.json", C.canonicalJson docs.replayProof),
    ("vllm_integration.json", C.canonicalJson docs.vllmIntegration),
    ("soc_plan.json", C.canonicalJson docs.socPlan),
    ("vllm_entrypoints.json", C.canonicalJson docs.vllmEntrypoints)]

/-- serde_json reads back each of the documents. -/
structure LoadedDocuments.RoundTrip (P : Parsers) (C : Canon) (docs : LoadedDocuments) :
    Prop where
  metadata : P.metadata (C.canonicalJson docs.metadata) = .ok docs.metadata
  buildPlan : P.buildPlan (C.canonicalJson docs.buildPlan) = .ok docs.buildPlan
  artifactManifest :
    P.artifactManifest (C.canonicalJson docs.artifactManifest) = .ok docs.artifactManifest
  verificationReport :
    P.verificationReport (C.canonicalJson docs.verificationReport) = .ok docs.verificationReport
  diagnostics : P.diagnostics (C.canonicalJson docs.diagnostics) = .ok docs.diagnostics
  rewriteTrace : P.rewriteTrace (C.canonicalJson docs.rewriteTrace) = .ok docs.rewriteTrace
  optimizationExplain : P.optimizationExplain (C.canonicalJson docs.optimizationExplain) =
    .ok docs.optimizationExplain
  backendDecision :
    P.backendDecision (C.canonicalJson docs.backendDecision) = .ok docs.backendDecision
  materializationReport : P.materializationReport (C.canonicalJson docs.materializationReport) =
    .ok docs.materializationReport
  replayProof : P.replayProof (C.canonicalJson docs.replayProof) = .ok docs.replayProof
  vllmIntegration :
    P.vllmIntegration (C.canonicalJson docs.vllmIntegration) = .ok docs.vllmIntegration
  socPlan : P.socPlan (C.canonicalJson docs.socPlan) = .ok docs.socPlan
  vllmEntrypoints :
    P.vllmEntrypoints (C.canonicalJson docs.vllmEntrypoints) = .ok docs.vllmEntrypoints

theorem LoadedDocuments.RoundTrip.parsedFrom {P : Parsers} {C : Canon} {docs : LoadedDocuments}
    (hround : docs.RoundTrip P C) {dir : Directory}
    (hdir : ∀ f ∈ docs.texts C, dir f.1 = some (.text f.2)) : docs.ParsedFrom P dir := by
  simp only [LoadedDocuments.texts, List.forall_mem_cons] at hdir
  obtain ⟨h₀, h₁, h₂, h₃, h₄, h₅, h₆, h₇, h₈, h₉, h₁₀, h₁₁, h₁₂, -⟩ := hdir
  constructor <;> rw [Directory.readJson_eq_ok]
  exacts [⟨_, h₀, hround.metadata⟩, ⟨_, h₁, hround.buildPlan⟩, ⟨_, h₂, hround.artifactManifest⟩,
    ⟨_, h₃, hround.verificationReport⟩, ⟨_, h₄, hround.diagnostics⟩, ⟨_, h₅, hround.rewriteTrace⟩,
    ⟨_, h₆, hround.optimizationExplain⟩, ⟨_, h₇, hround.backendDecision⟩,
    ⟨_, h₈, hround.materializationReport⟩, ⟨_, h₉, hround.replayProof⟩,
    ⟨_, h₁₀, hround.vllmIntegration⟩, ⟨_, h₁₁, hround.socPlan⟩, ⟨_, h₁₂, hround.vllmEntrypoints⟩]

/-! ## The order of manifest entries -/

instance : Std.TransOrd ArtifactClass :=
  inferInstanceAs (Std.TransCmp (compareOn ArtifactClass.ctorIdx))
instance : Std.TransOrd ArtifactAcquisition :=
  inferInstanceAs (Std.TransCmp (compareOn ArtifactAcquisition.ctorIdx))
instance : Std.TransOrd ArtifactPortability :=
  inferInstanceAs (Std.TransCmp (compareOn ArtifactPortability.ctorIdx))

theorem CanonicalHash.compare_eq :
    (compare : CanonicalHash → CanonicalHash → Ordering) = compareOn CanonicalHash.asStr := by
  funext a b
  rcases a
  rcases b
  simp [compareOn, compare, instOrdCanonicalHash.ord]

instance : Std.TransOrd CanonicalHash := by
  unfold Std.TransOrd
  rw [CanonicalHash.compare_eq]
  infer_instance

theorem ExecutionTopology.compare_eq :
    (compare : ExecutionTopology → ExecutionTopology → Ordering) =
      compareLex (compareOn (·.tensorParallelism))
        (compareLex (compareOn (·.pipelineParallelism)) (compareOn (·.replicas))) := by
  funext a b
  rcases a
  rcases b
  simp [compareLex, compareOn, compare, instOrdExecutionTopology.ord]

instance : Std.TransOrd ExecutionTopology := by
  unfold Std.TransOrd
  rw [ExecutionTopology.compare_eq]
  infer_instance

theorem ArtifactAdmissibilityProof.compare_eq :
    (compare : ArtifactAdmissibilityProof → ArtifactAdmissibilityProof → Ordering) =
      compareLex (compareOn (·.proofIdentity)) (compareLex (compareOn (·.artifactScope))
        (compareLex (compareOn (·.artifactClass)) (compareLex (compareOn (·.backend))
          (compareLex (compareOn (·.acquisition)) (compareLex (compareOn (·.portability))
            (compareLex (compareOn (·.targetAbiIdentity))
              (compareLex (compareOn (·.targetShapeEnvelopeIdentity))
                (compareLex (compareOn (·.targetTopology))
                  (compareLex (compareOn (·.requiredWitnesses))
                    (compareLex (compareOn (·.satisfiedWitnesses))
                      (compareLex (compareOn (·.failClosed))
                        (compareOn (·.rationale))))))))))))) := by
  funext a b
  rcases a
  rcases b
  simp [compareLex, compareOn, compare, instOrdArtifactAdmissibilityProof.ord]

instance : Std.TransOrd ArtifactAdmissibilityProof := by
  unfold Std.TransOrd
  rw [ArtifactAdmissibilityProof.compare_eq]
  infer_instance

theorem ArtifactManifestEntry.compare_eq :
    (compare : ArtifactManifestEntry → ArtifactManifestEntry → Ordering) =
      compareLex (compareOn (·.identity)) (compareLex (compareOn (·.artifactClass))
        (compareLex (compareOn (·.backend)) (compareLex (compareOn (·.scope))
          (compareOn (·.admissibility))))) := by
  funext a b
  rcases a
  rcases b
  simp [compareLex, compareOn, compare, instOrdArtifactManifestEntry.ord]

instance : Std.TransOrd ArtifactManifestEntry := by
  unfold Std.TransOrd
  rw [ArtifactManifestEntry.compare_eq]
  infer_instance

/-! ## Bundles as written -/

namespace ReplayBundle

variable (C : Canon) (explain : ReplayBundle → String) (b : ReplayBundle)

/-- The documents that `writeTo` serializes. -/
def written : LoadedDocuments where
  metadata := b.metadata C explain
  buildPlan := b.buildPlan
  artifactManifest := .fromClosure b.artifactClosure
  verificationReport := b.verificationReport
  diagnostics := b.diagnostics
  rewriteTrace := b.rewriteTrace
  optimizationExplain := b.optimizationExplain
  backendDecision := b.backendDecision
  materializationReport := b.materializationReport
  replayProof := b.replayProof
  vllmIntegration := b.vllmIntegration
  socPlan := b.socPlan
  vllmEntrypoints := b.vllmEntrypoints

/-- The bundle with the artifacts of its closure sorted. -/
def sortClosure : ReplayBundle :=
  { b with artifactClosure := { b.artifactClosure with
      artifacts := sort b.artifactClosure.artifacts } }

/-- The plan identities that the documents of a bundle declare. -/
def planIdentities : List CanonicalHash :=
  [b.artifactClosure.planIdentity, b.diagnostics.planIdentity, b.rewriteTrace.planIdentity,
    b.optimizationExplain.planIdentity, b.backendDecision.planIdentity,
    b.materializationReport.planIdentity, b.replayProof.planIdentity,
    b.vllmIntegration.planIdentity, b.socPlan.planIdentity, b.vllmEntrypoints.planIdentity]

/-- Every document carries the plan's identity, and the derived documents are the derived
    ones. -/
structure Consistent : Prop where
  identities : ∀ identity ∈ b.planIdentities, identity = b.buildPlan.planIdentity
  verification : b.verificationReport = b.buildPlan.validate
  backendDecision : b.backendDecision = .fromPlan b.buildPlan
  replayProof : b.replayProof =
    .fromPlanAndMaterialization C b.buildPlan b.materializationReport

variable {C b}

theorem identities_written :
    (b.written C explain).identities.map Prod.snd = b.buildPlan.planIdentity :: b.planIdentities :=
  rfl

theorem Consistent.agrees (h : b.Consistent C) : (b.written C explain).Agrees C where
  identities := by
    intro e he
    have hmem : e.2 ∈ (b.written C explain).identities.map Prod.snd := List.mem_map_of_mem he
    rw [identities_written] at hmem
    rcases List.mem_cons.mp hmem with heq | hmem
    · exact heq
    · exact h.identities _ hmem
  verification := h.verification.symm
  backendDecision := h.backendDecision.symm
  replayProof := h.replayProof.symm

theorem nodup_files : ((b.files C explain).map Prod.fst).Nodup := by
  simp only [files, documents, List.map_append, List.map_cons, List.map_nil]
  decide

theorem metadata_notMem_files :
    "bundle_metadata.json" ∉ (b.files C explain).map Prod.fst := by
  simp only [files, documents, List.map_append, List.map_cons, List.map_nil]
  decide

variable (dir : Directory)

/-- Each recorded file is in the directory with its text. -/
theorem writeTo_of_mem_files {f : String × String} (h : f ∈ b.files C explain) :
    (b.writeTo C explain dir).2 f.1 = some (.text f.2) := by
  have hne : f.1 ≠ "bundle_metadata.json" := by
    intro heq
    apply metadata_notMem_files (C := C) (b := b) explain
    rw [← heq]
    exact List.mem_map_of_mem h
  unfold writeTo Directory.write
  dsimp only
  rw [Function.update_of_ne hne]
  exact writeFiles_of_mem (nodup_files explain) h dir

theorem writeTo_of_mem_texts {f : String × String} (h : f ∈ (b.written C explain).texts C) :
    (b.writeTo C explain dir).2 f.1 = some (.text f.2) := by
  rcases List.mem_cons.mp h with rfl | h
  · unfold writeTo Directory.write
    dsimp only
    rw [Function.update_self]
    rfl
  · exact writeTo_of_mem_files explain dir (List.mem_append_left _ h)

theorem digestsMatch_writeTo :
    DigestsMatch C (b.writeTo C explain dir).2 (b.metadata C explain).fileDigests := by
  intro file digest hget
  obtain ⟨text, hmem, hdigest⟩ := mem_of_getElem?_digestTable hget
  exact ⟨.text text, writeTo_of_mem_files explain dir hmem, hdigest⟩

theorem bundle_written : (b.written C explain).bundle = b.sortClosure := by
  simp [LoadedDocuments.bundle, written, sortClosure, ArtifactManifestDocument.fromClosure]

end ReplayBundle

/-! ## A sample bundle -/

/-- A reader that knows one text. -/
def recognize {α : Type} (text : String) (a : α) (s : String) : Except String α :=
  if s = text then .ok a else .error "unknown document"

theorem recognize_self {α : Type} (text : String) (a : α) : recognize text a text = .ok a :=
  if_pos rfl

/-- What serde_json reads from the texts of the documents. -/
def LoadedDocuments.parsers (C : Canon) (docs : LoadedDocuments) : Parsers where
  metadata := recognize (C.canonicalJson docs.metadata) docs.metadata
  buildPlan := recognize (C.canonicalJson docs.buildPlan) docs.buildPlan
  artifactManifest := recognize (C.canonicalJson docs.artifactManifest) docs.artifactManifest
  verificationReport := recognize (C.canonicalJson docs.verificationReport) docs.verificationReport
  diagnostics := recognize (C.canonicalJson docs.diagnostics) docs.diagnostics
  rewriteTrace := recognize (C.canonicalJson docs.rewriteTrace) docs.rewriteTrace
  optimizationExplain :=
    recognize (C.canonicalJson docs.optimizationExplain) docs.optimizationExplain
  backendDecision := recognize (C.canonicalJson docs.backendDecision) docs.backendDecision
  materializationReport :=
    recognize (C.canonicalJson docs.materializationReport) docs.materializationReport
  replayProof := recognize (C.canonicalJson docs.replayProof) docs.replayProof
  vllmIntegration := recognize (C.canonicalJson docs.vllmIntegration) docs.vllmIntegration
  socPlan := recognize (C.canonicalJson docs.socPlan) docs.socPlan
  vllmEntrypoints := recognize (C.canonicalJson docs.vllmEntrypoints) docs.vllmEntrypoints

theorem LoadedDocuments.roundTrip_parsers (C : Canon) (docs : LoadedDocuments) :
    docs.RoundTrip (docs.parsers C) C := by
  constructor <;> exact recognize_self ..

/-- A directory with the documents and nothing else. -/
def LoadedDocuments.directory (C : Canon) (docs : LoadedDocuments) : Directory :=
  writeFiles (docs.texts C) .empty

theorem LoadedDocuments.parsedFrom_directory (C : Canon) (docs : LoadedDocuments) :
    docs.ParsedFrom (docs.parsers C) (docs.directory C) := by
  refine (docs.roundTrip_parsers C).parsedFrom fun f hf => writeFiles_of_mem ?_ hf .empty
  simp only [LoadedDocuments.texts, List.map_cons, List.map_nil]
  decide

def sampleIdentity : CanonicalHash := ⟨"plan"⟩

/-- A plan for one region that declares `sampleIdentity`. -/
def samplePlan : ResolvedBuildPlan where
  normalizedRequest := { sampleRequest with identity := ⟨"request"⟩ }
  requestedReadiness := none
  optimizationEnvelope := .fromLevel .o2
  backendDecision := ⟨⟨"profile"⟩, [], []⟩
  backendRegistry := ⟨[]⟩
  selectedBackends := ⟨⟨.flashInfer, .vendorPrebuilt, "prebuilt flashinfer available",
    ⟨.admissible, .flashInfer, .vendorPrebuilt, .preferPrebuiltThenAot, [], [], [], []⟩⟩, []⟩
  compileRegions := [⟨"decode_attention", .decodeMicrograph, .flashInfer, true, true, [], "decode",
    "attention", [.performance], ⟨"region"⟩, ⟨"class"⟩, "sock/decode", .contentAddressed,
    .topologyScoped, .shared, true, "fabric", "tp2", "decode", [], ⟨"", []⟩⟩]
  shapeEnvelope := ⟨[]⟩
  artifactRequirements := []
  warmupObligations := []
  materializationGraph := ⟨[], [], [], [], [], []⟩
  guaranteeEnvelope := ⟨⟨.shapeBoundedAot, .failClosed⟩, ⟨.warmupBounded, .failClosed⟩,
    .shapeBoundedAot, .warmupBounded, [], [], []⟩
  guaranteeEvidence := ⟨[], [], [], [], []⟩
  rewriteTrace := []
  structuralIdentity := ⟨⟨"request"⟩, ⟨"optimization"⟩, ⟨"decision"⟩, ⟨"registry"⟩, ⟨"shape"⟩,
    ⟨"regions"⟩, ⟨"capability"⟩, ⟨"abi"⟩, ⟨"extension"⟩, ⟨"portability"⟩, ⟨"artifacts"⟩,
    ⟨"evidence"⟩, sampleIdentity⟩

/-- The report of an execution of `samplePlan`. -/
def sampleReport : MaterializationExecutionReport where
  schemaVersion := .current
  planIdentity := sampleIdentity
  artifactRoot := "artifacts"
  cacheRoot := "cache"
  nodeRoot := "nodes"
  waveRoot := "waves"
  artifactCount := 0
  executedArtifactCount := 0
  reusedArtifactCount := 0
  wallClockMs := 0
  totalBytesWritten := 0
  totalCompileMs := 0
  totalTransferMs := 0
  totalRebuildMs := 0
  uniqueArtifactCount := 0
  duplicateArtifactCount := 0
  uniqueArtifactBytes := 0
  duplicateArtifactBytes := 0
  artifactDeserializationMs := 0
  duplicateRankLocalCompileCount := 0
  duplicateRankLocalLoadCount := 0
  closureExpansion := ⟨[], [], [], [], [], [], [], [], true⟩
  closureOutcome := .closureByAssumption
  readiness := ⟨.performance, .performance, true, true, true⟩
  runtimeJitObservations := []
  verifyReplayCompileFree := true
  verifyReplayStatus := .passed
  artifacts := []
  nodes := []
  waves := []

/-- An artifact of the closure. -/
def sampleArtifact (scope : String) : ArtifactManifestEntry :=
  ⟨"flashinfer:CompiledGraph:" ++ scope, .compiledGraph, .flashInfer, scope,
    ⟨⟨"proof"⟩, scope, .compiledGraph, .flashInfer, .vendorPrebuilt, .topologyScoped, ⟨"abi"⟩,
      ⟨"shape"⟩, ⟨2, 1, 1⟩, [], [], true, []⟩⟩

/-- The bundle of the plan and its report. -/
def sampleBundle (C : Canon) : ReplayBundle where
  buildPlan := samplePlan
  artifactClosure := ⟨sampleIdentity,
    [sampleArtifact "prefill_attention", sampleArtifact "decode_attention"]⟩
  verificationReport := samplePlan.validate
  diagnostics := ⟨.current, sampleIdentity, [("diagnostics", .array [])]⟩
  rewriteTrace := ⟨.current, sampleIdentity, []⟩
  optimizationExplain := .fromPlan samplePlan
  backendDecision := .fromPlan samplePlan
  materializationReport := sampleReport
  replayProof := .fromPlanAndMaterialization C samplePlan sampleReport
  vllmIntegration := ⟨.current, sampleIdentity, [("surfaces", .array [])]⟩
  socPlan := ⟨.current, sampleIdentity, [("namespaces", .array [])]⟩
  vllmEntrypoints := ⟨.current, sampleIdentity, [("entrypoints", .array [])]⟩

theorem sampleBundle_consistent (C : Canon) : (sampleBundle C).Consistent C where
  identities := by
    intro identity hmem
    simpa [ReplayBundle.planIdentities, sampleBundle, OptimizationExplainDocument.fromPlan,
      BackendDecisionDocument.fromPlan, ReplayProofDocument.fromPlanAndMaterialization,
      ResolvedBuildPlan.planIdentity, samplePlan, sampleReport] using hmem
  verification := rfl
  backendDecision := rfl
  replayProof := rfl

section Results

variable {P : Parsers} {C : Canon} {dir : Directory}

/-! ## Acceptance -/

/-- **Acceptance.** A directory loads as `b` exactly when its documents parse, every digest that
    the metadata lists is right, every document declares the plan's identity, and the report,
    the backend decision and the replay proof are those derived from the plan; `b` has the
    documents as they were parsed, with the closure sorted. The closure, the rewrite trace, the
    explanation and the plan identity itself are not derived again. -/
theorem loadFrom_accepts_iff {b : ReplayBundle} :
    P.loadFrom C dir = .ok b ↔
      ∃ docs : LoadedDocuments, docs.ParsedFrom P dir ∧
        DigestsMatch C dir docs.metadata.fileDigests ∧ docs.Agrees C ∧ docs.bundle = b := by
  unfold Parsers.loadFrom
  simp only [bind_eq_ok, loadDocuments_eq_ok]
  constructor
  · rintro ⟨docs, ⟨hparsed, hdigests⟩, ⟨⟩, hcheck, hb⟩
    exact ⟨docs, hparsed, hdigests, check_eq_ok.mp hcheck, Except.ok.inj hb⟩
  · rintro ⟨docs, hparsed, hdigests, hagrees, rfl⟩
    exact ⟨docs, ⟨hparsed, hdigests⟩, (), check_eq_ok.mpr hagrees, rfl⟩

/-- The sample with another rewrite trace and explanation, and no digests. -/
def forgedDocuments : LoadedDocuments :=
  { (sampleBundle .ideal).written .ideal (fun _ => "") with
    metadata := ⟨.current, sampleIdentity, ∅, "./replay.sh"⟩
    rewriteTrace := ⟨.current, sampleIdentity, [⟨⟨"normalize", .normalizeRequest, [], [], []⟩,
      "before", "after", [], [], [], [], []⟩]⟩
    optimizationExplain := { OptimizationExplainDocument.fromPlan samplePlan with
      profileName := "max_materialized_prod" } }

/-- The text of an array begins with a bracket. -/
theorem ideal_canonicalHash_array_ne (items : List Value) :
    Canon.ideal.canonicalHash (Value.array items) ≠ sampleIdentity := by
  intro h
  have htext : (sortJson (.array items)).toStringPretty = "plan" := CanonicalHash.mk.inj h
  have hchars := congrArg (fun s => s.toList.head?) htext
  simp [sortJson, Value.toStringPretty, Value.chars] at hchars

theorem forgedDocuments_agrees : forgedDocuments.Agrees .ideal :=
  let h := (sampleBundle_consistent .ideal).agrees (fun _ => "")
  ⟨by
    intro e he
    have hmem : e.2 ∈ forgedDocuments.identities.map Prod.snd := List.mem_map_of_mem he
    have hsame : forgedDocuments.identities.map Prod.snd =
      ((sampleBundle .ideal).written .ideal (fun _ => "")).identities.map Prod.snd := rfl
    rw [hsame] at hmem
    obtain ⟨e', he', heq⟩ := List.mem_map.mp hmem
    rw [← heq]
    exact h.identities e' he', h.verification, h.backendDecision, h.replayProof⟩

/-- Accepted although the closure, the rewrite trace, the explanation and the plan identity all
    differ from what the plan says. -/
theorem loadFrom_forged :
    (forgedDocuments.parsers .ideal).loadFrom .ideal (forgedDocuments.directory .ideal) =
        .ok forgedDocuments.bundle ∧
      ¬ forgedDocuments.bundle.artifactClosure.artifacts.Perm
        forgedDocuments.bundle.buildPlan.guaranteeEvidence.artifactManifest ∧
      forgedDocuments.bundle.rewriteTrace.passes ≠
        forgedDocuments.bundle.buildPlan.rewriteTrace ∧
      forgedDocuments.bundle.optimizationExplain ≠
        OptimizationExplainDocument.fromPlan forgedDocuments.bundle.buildPlan ∧
      forgedDocuments.bundle.buildPlan.planIdentity ≠
        (structuralIdentity .ideal forgedDocuments.bundle.buildPlan.parts).planIdentity := by
  refine ⟨loadFrom_of_agrees (forgedDocuments.parsedFrom_directory .ideal) ?_
    forgedDocuments_agrees, ?_, ?_, ?_, (ideal_canonicalHash_array_ne _).symm⟩
  · intro file digest hget
    simp [forgedDocuments] at hget
  · intro hperm
    exact absurd hperm.length_eq (by decide)
  · decide
  · intro h
    exact absurd (congrArg OptimizationExplainDocument.profileName h) (by decide)

/-! ## Integrity -/

/-- The files that are parsed into the bundle. -/
def documentFiles : List String :=
  ["buildplan.json", "artifact_manifest.json", "verification_report.json", "diagnostics.json",
    "rewrite_trace.json", "optimization_explain.json", "backend_decision.json",
    "materialization_report.json", "replay_proof.json", "vllm_integration.json",
    "soc_plan.json", "vllm_entrypoints.json"]

/-- Every parsed document has an entry in the table, the digest of its bytes. -/
def DigestsCover (C : Canon) (dir : Directory) (metadata : ReplayBundleMetadata) : Prop :=
  ∀ file ∈ documentFiles, ∃ bytes, dir file = some bytes ∧
    metadata.fileDigests[file]? = some (C.sha256 bytes)

/-- **Integrity.** In a directory that loads, a digest stands behind every parsed document
    exactly when the metadata lists all of them. -/
theorem digests_cover_iff {b : ReplayBundle} {metadata : ReplayBundleMetadata}
    (hmetadata : dir.readJson "bundle_metadata.json" P.metadata = .ok metadata)
    (h : P.loadFrom C dir = .ok b) :
    DigestsCover C dir metadata ↔ ∀ file ∈ documentFiles, file ∈ metadata.fileDigests := by
  have hdigests := digestsMatch_of_loadFrom hmetadata h
  constructor
  · intro hcover file hfile
    obtain ⟨bytes, -, hget⟩ := hcover file hfile
    exact Std.ExtTreeMap.mem_iff_isSome_getElem?.mpr (by rw [hget]; rfl)
  · intro hlisted file hfile
    obtain ⟨digest, hget⟩ := Option.isSome_iff_exists.mp
      (Std.ExtTreeMap.mem_iff_isSome_getElem?.mp (hlisted file hfile))
    obtain ⟨bytes, hbytes, hdigest⟩ := hdigests file digest hget
    exact ⟨bytes, hbytes, by rw [hget, hdigest]⟩

/-- The table lists every file. -/
theorem mem_digestTable {files : List (String × String)} {f : String × String} (h : f ∈ files) :
    f.1 ∈ digestTable C files := by
  have hfold : ∀ (files : List (String × String)) (acc : Std.ExtTreeMap String String),
      f ∈ files ∨ f.1 ∈ acc →
      f.1 ∈ files.foldl (fun digests f => digests.insert f.1 (C.sha256 (.text f.2))) acc := by
    intro files
    induction files with
    | nil => exact fun acc h => h.resolve_left List.not_mem_nil
    | cons g files ih =>
        intro acc h
        apply ih
        rcases h with h | h
        · rcases List.mem_cons.mp h with rfl | h
          · exact .inr Std.ExtTreeMap.mem_insert_self
          · exact .inl h
        · exact .inr (Std.ExtTreeMap.mem_insert.mpr (.inr h))
  exact hfold files ∅ (.inl h)

/-- The documents of a written bundle are listed. -/
theorem documentFiles_listed (explain : ReplayBundle → String) (b : ReplayBundle) :
    ∀ file ∈ documentFiles, file ∈ (b.metadata C explain).fileDigests := by
  intro file hfile
  have hnames : documentFiles = (b.documents C).map Prod.fst := rfl
  rw [hnames] at hfile
  obtain ⟨f, hf, rfl⟩ := List.mem_map.mp hfile
  exact mem_digestTable (List.mem_append_left _ hf)

/-- The sample bundle as it is written. -/
def sampleDocuments : LoadedDocuments := (sampleBundle .ideal).written .ideal fun _ => ""

theorem digests_cover_sample :
    DigestsCover .ideal ((sampleBundle .ideal).writeTo .ideal (fun _ => "") .empty).2
      sampleDocuments.metadata :=
  have hparsed := (sampleDocuments.roundTrip_parsers .ideal).parsedFrom fun _ hf =>
    ReplayBundle.writeTo_of_mem_texts (fun _ => "") .empty hf
  (digests_cover_iff hparsed.metadata (loadFrom_of_agrees hparsed
    (ReplayBundle.digestsMatch_writeTo _ _) ((sampleBundle_consistent .ideal).agrees _))).mpr
    (documentFiles_listed _ _)

/-- Accepted although no parsed document has a digest. -/
theorem loadFrom_without_digests :
    (forgedDocuments.parsers .ideal).loadFrom .ideal (forgedDocuments.directory .ideal) =
        .ok forgedDocuments.bundle ∧
      (forgedDocuments.directory .ideal).readJson "bundle_metadata.json"
        (forgedDocuments.parsers .ideal).metadata = .ok forgedDocuments.metadata ∧
      ¬ DigestsCover .ideal (forgedDocuments.directory .ideal) forgedDocuments.metadata := by
  have hparsed := forgedDocuments.parsedFrom_directory .ideal
  refine ⟨loadFrom_of_agrees hparsed ?_ forgedDocuments_agrees, hparsed.metadata, ?_⟩
  · intro file digest hget
    simp [forgedDocuments] at hget
  · intro hcover
    obtain ⟨bytes, -, hget⟩ := hcover "buildplan.json" (by decide)
    simp [forgedDocuments] at hget

/-! ## Round trip -/

/-- **Round trip.** A consistent bundle, written to any directory, loads as itself with the
    artifacts of its closure sorted; so no digest or identity is reported as a mismatch. -/
theorem loadFrom_writeTo (explain : ReplayBundle → String) {b : ReplayBundle} (hb : b.Consistent C)
    (hround : (b.written C explain).RoundTrip P C) :
    P.loadFrom C (b.writeTo C explain dir).2 = .ok b.sortClosure := by
  rw [← ReplayBundle.bundle_written explain]
  exact loadFrom_of_agrees
    (hround.parsedFrom fun f hf => ReplayBundle.writeTo_of_mem_texts explain dir hf)
    (ReplayBundle.digestsMatch_writeTo explain dir) (hb.agrees explain)

theorem loadFrom_writeTo_sample :
    (sampleBundle .ideal).Consistent .ideal ∧
      (sampleDocuments.parsers .ideal).loadFrom .ideal
        ((sampleBundle .ideal).writeTo .ideal (fun _ => "") .empty).2 =
          .ok (sampleBundle .ideal).sortClosure ∧
      (sampleBundle .ideal).sortClosure.artifactClosure.artifacts =
        [sampleArtifact "decode_attention", sampleArtifact "prefill_attention"] :=
  ⟨sampleBundle_consistent .ideal, loadFrom_writeTo _ (sampleBundle_consistent .ideal)
    (sampleDocuments.roundTrip_parsers .ideal), by decide⟩

end Results

end Sock.Core
