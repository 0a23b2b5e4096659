import LexiconAudit.Database.Dump
import LexiconAudit.Database.Export
import LexiconAudit.Database.Memory
import LexiconAudit.Database.Verification
import LexiconAudit.Proofs.Checking
import LexiconAudit.Proofs.Database.Collections
import LexiconAudit.Proofs.Json.NoNul
import LexiconAudit.Proofs.Json.RoundTrip
import LexiconAudit.Proofs.Text.Utf8

/-!
This module contains the agreement of the stores: documents that are held in memory, dumped to a file or
written by a program are answered alike, and so are verifications over them.
-/

namespace LexiconAudit.Database

open Json (Bounded lines maxDepth)
open Text.Utf8 (decode? decodeLenient encode)

theorem parseDocuments_lines {documents : List Json} (h : ∀ document ∈ documents, Bounded maxDepth document)
    (source : String) : parseDocuments (lines documents) source = .ok documents := by
  rw [parseDocuments, Json.parseStream_lines h]

theorem parseDocuments_eq_ok_iff {text source : String} {documents : List Json} :
    parseDocuments text source = .ok documents ↔ Json.parseStream text = .ok documents := by
  unfold parseDocuments
  split
  . next h => rw [h, Except.ok.injEq, Except.ok.injEq]
  . next h =>
    rw [h]
    constructor <;> intro heq <;> cases heq

/-! Collections in memory. -/

namespace Memory

variable (memory : Memory) (database collection : String) (documents : List Json)

theorem documents_replace_self : (memory.replace database collection documents).documents database collection =
    documents := by
  rw [Memory.documents, replace, Keyed.lookup_alter_self, Option.bind_some, Keyed.set, Keyed.lookup_alter_self]
  rfl

theorem documents_replace_of_ne {other : String} (h : other ≠ collection) :
    (memory.replace database collection documents).documents database other =
      memory.documents database other := by
  rw [documents_eq, documents_eq, collections, replace, Keyed.lookup_alter_self, Option.getD_some, Keyed.set,
    Keyed.lookup_alter_of_ne h]
  rfl

theorem findAll_replace : (memory.replace database collection documents).store.findAll database collection =
    .ok documents :=
  congrArg Except.ok (documents_replace_self memory database collection documents)

end Memory

/-! Collections in files. -/

namespace Dump

variable {files : Files.Tree} {directory database collection : String} {bytes : List UInt8} {documents : List Json}

def Holds (files : Files.Tree) (directory database collection : String) (documents : List Json) : Prop :=
  files.readBytes (collectionPath directory database collection) = .ok (encode (lines documents))

theorem findAll_of_readBytes (h : files.readBytes (collectionPath directory database collection) = .ok bytes) :
    (store files directory).findAll database collection =
      text (collectionPath directory database collection) bytes >>= fun text =>
        parseDocuments text (collectionPath directory database collection) := by
  have hexists : files.pathExists (collectionPath directory database collection) = true := by
    obtain ⟨found, hfound, -⟩ := bind_eq_ok_iff.1 h
    rw [Files.Tree.pathExists, hfound]
    rfl
  change (if _ then readDocuments files _ else _) = _
  rw [if_pos hexists, readDocuments, h]

theorem text_eq_ok_iff {path text : String} :
    Dump.text path bytes = .ok text ↔ 0 ∉ bytes ∧ decode? bytes = some text := by
  unfold Dump.text
  split
  . next hcontains =>
    constructor
    . intro h
      cases h
    . intro h
      exact absurd (List.contains_iff_mem.1 hcontains) h.1
  . next hcontains =>
    rw [and_iff_right fun hmem => hcontains (List.contains_iff_mem.2 hmem)]
    split
    . next hdecode => rw [hdecode, Except.ok.injEq, Option.some.injEq]
    . next hdecode =>
      rw [hdecode]
      constructor <;> intro h <;> cases h

theorem findAll_of_holds (hbounded : ∀ document ∈ documents, Bounded maxDepth document)
    (h : Holds files directory database collection documents) :
    (store files directory).findAll database collection = .ok documents := by
  have hzero : 0 ∉ encode (lines documents) := fun hmem =>
    Json.nul_not_mem_of_parseStream (Json.parseStream_lines hbounded)
      (Text.Utf8.nul_mem_of_decode? (Text.Utf8.decode?_encode _) hmem)
  rw [findAll_of_readBytes h, text_eq_ok_iff.2 ⟨hzero, Text.Utf8.decode?_encode _⟩]
  exact parseDocuments_lines hbounded _

end Dump

/-! Collections that a program writes. -/

namespace Export

variable {e : Export} {files : Files.Tree} {database collection : String} {bytes : List UInt8}
  {documents : List Json}

def Prints (e : Export) (files : Files.Tree) (database collection : String) (bytes : List UInt8) : Prop :=
  ∃ program, files.start e.program (e.arguments database collection) = .ok program ∧
    program.status = 0 ∧ program.output = bytes

theorem findAll_of_prints (h : e.Prints files database collection bytes) :
    (e.store files).findAll database collection =
      parseDocuments (decodeLenient bytes) s!"{e.program} {database}.{collection}" := by
  obtain ⟨program, hstart, hstatus, rfl⟩ := h
  have hrun : e.run files (e.arguments database collection) = .ok (decodeLenient program.output) := by
    rw [run, hstart]
    exact if_pos hstatus
  change e.run files (e.arguments database collection) >>= _ = _
  rw [hrun]
  rfl

theorem findAll_of_prints_lines (hbounded : ∀ document ∈ documents, Bounded maxDepth document)
    (h : e.Prints files database collection (encode (lines documents))) :
    (e.store files).findAll database collection = .ok documents := by
  rw [findAll_of_prints h, Text.Utf8.decodeLenient_of_decode? (Text.Utf8.decode?_encode _)]
  exact parseDocuments_lines hbounded _

theorem findAll_dump_of_findAll {text directory : String} {dumps : Files.Tree} (htext : decode? bytes = some text)
    (hdump : dumps.readBytes (Dump.collectionPath directory database collection) = .ok bytes)
    (hprints : e.Prints files database collection bytes)
    (h : (e.store files).findAll database collection = .ok documents) :
    (Dump.store dumps directory).findAll database collection = .ok documents := by
  rw [findAll_of_prints hprints, Text.Utf8.decodeLenient_of_decode? htext, parseDocuments_eq_ok_iff] at h
  have hzero : 0 ∉ bytes := fun hmem =>
    Json.nul_not_mem_of_parseStream h (Text.Utf8.nul_mem_of_decode? htext hmem)
  rw [Dump.findAll_of_readBytes hdump, Dump.text_eq_ok_iff.2 ⟨hzero, htext⟩]
  exact parseDocuments_eq_ok_iff.2 h

end Export

/-! Verification. -/

section Verify

variable {store store' : Store} {database : String}
  (hlexicon : store.findAll database lexiconCollection = store'.findAll database lexiconCollection)
  (hcomments : store.findAll database commentsCollection = store'.findAll database commentsCollection)

include hlexicon

theorem verifyLexicon_congr (lexicon : Node) :
    verifyLexicon store database lexicon = verifyLexicon store' database lexicon := by
  unfold verifyLexicon fetch
  rw [hlexicon]

include hcomments

theorem openComments_congr : openComments store database = openComments store' database := by
  unfold openComments fetch
  rw [hlexicon, hcomments]

theorem verify_congr (expected : Node) : verify store database expected = verify store' database expected := by
  have hsection : verifySection store database = verifySection store' database := by
    funext part
    unfold verifySection verifyNotes
    rw [verifyLexicon_congr hlexicon, openComments_congr hlexicon hcomments]
  unfold verify
  rw [hsection]

end Verify

def Dump.Copies (files : Files.Tree) (directory : String) (memory : Memory) (database : String) : Prop :=
  ∀ collection ∈ [lexiconCollection, commentsCollection],
    Dump.Holds files directory database collection (memory.documents database collection) ∨
      files.pathExists (Dump.collectionPath directory database collection) = false ∧
        memory.documents database collection = []

theorem Dump.Copies.findAll_eq {files : Files.Tree} {directory database : String} {memory : Memory}
    (h : Dump.Copies files directory memory database) {collection : String}
    (hcollection : collection ∈ [lexiconCollection, commentsCollection])
    (hbounded : ∀ document ∈ memory.documents database collection, Bounded maxDepth document) :
    (Dump.store files directory).findAll database collection = memory.store.findAll database collection := by
  change _ = Except.ok (memory.documents database collection)
  rcases h collection hcollection with hholds | ⟨hmissing, hempty⟩
  . exact Dump.findAll_of_holds hbounded hholds
  . rw [hempty]
    change (if _ then _ else _) = _
    rw [hmissing]
    rfl

/--
The three stores answer the same documents, in order, so that a verification ends alike over dumps and over
memory. Well-formed bytes that no documents can be read from in a dump are not read from a program either.
-/
theorem stores_agree :
    (∀ documents : List Json, (∀ document ∈ documents, Bounded maxDepth document) →
      ∀ database collection : String,
        (∀ (files : Files.Tree) (directory : String), Dump.Holds files directory database collection documents →
          (Dump.store files directory).findAll database collection = .ok documents) ∧
        (∀ (e : Export) (files : Files.Tree), e.Prints files database collection (encode (lines documents)) →
          (e.store files).findAll database collection = .ok documents) ∧
        ∀ memory : Memory,
          (memory.replace database collection documents).store.findAll database collection = .ok documents) ∧
    (∀ (files : Files.Tree) (directory database : String) (memory : Memory),
      Dump.Copies files directory memory database →
        (∀ collection ∈ [lexiconCollection, commentsCollection],
          ∀ document ∈ memory.documents database collection, Bounded maxDepth document) →
            ∀ expected : Node,
              verify (Dump.store files directory) database expected = verify memory.store database expected) ∧
    ∀ (bytes : List UInt8) (text : String), decode? bytes = some text →
      ∀ (dumps : Files.Tree) (directory database collection : String) (fault : StoreFault),
        dumps.readBytes (Dump.collectionPath directory database collection) = .ok bytes →
          (Dump.store dumps directory).findAll database collection = .error fault →
            ∀ (e : Export) (files : Files.Tree), e.Prints files database collection bytes →
              ∃ fault', (e.store files).findAll database collection = .error fault' := by
  refine ⟨fun documents hbounded database collection => ⟨?_, ?_, ?_⟩, ?_, ?_⟩
  . exact fun files directory hholds => Dump.findAll_of_holds hbounded hholds
  . exact fun e files hprints => Export.findAll_of_prints_lines hbounded hprints
  . exact fun memory => memory.findAll_replace database collection documents
  . intro files directory database memory hcopies hbounded expected
    have hfindAll : ∀ collection ∈ [lexiconCollection, commentsCollection],
        (Dump.store files directory).findAll database collection = memory.store.findAll database collection :=
      fun collection hcollection => hcopies.findAll_eq hcollection (hbounded collection hcollection)
    simp only [List.forall_mem_cons] at hfindAll
    exact verify_congr hfindAll.1 hfindAll.2.1 expected
  . intro bytes text htext dumps directory database collection fault hdump hfault e files hprints
    cases h : (e.store files).findAll database collection with
    | error fault' => exact ⟨fault', rfl⟩
    | ok documents =>
      rw [Export.findAll_dump_of_findAll htext hdump hprints h] at hfault
      cases hfault

/-! One database, dumped, written by a program and held in memory, and a dump that is torn off. -/

def riverDocuments : List Json := [
  .object [("_id", .string "w1"), ("lexeme", .object [("fr", .object [("value", .string "rivi\u00e8re")])])],
  .object [("_id", .string "w2"), ("tags", .array [.null, .bool true, .number (.integer (-7)), .string "\"\n"])]]

def tornBytes : List UInt8 := [0x7b, 0x22, 0x00]

def exportRiver (arguments : List String) : Files.Program :=
  if arguments.contains lexiconCollection then { output := encode (lines riverDocuments) }
  else { output := tornBytes }

def riverFiles : Files.Tree where
  tops := [(some 0, [
    ("dump", .directory [
      ("sf_river.lexicon.json", .file (.plain (encode (lines riverDocuments))) false),
      ("sf_river.torn.json", .file (.plain tornBytes) false)]),
    ("bin", .directory [
      ("export", .file (.script (encode "#!/bin/sh\n") exportRiver) true),
      ("torn", .file (.program { output := tornBytes }) true)])])]
  installed := [("mongoexport", .script (encode "#!/bin/sh\n") exportRiver)]

def riverMemory : Memory :=
  ({} : Memory).replace "sf_river" lexiconCollection riverDocuments

theorem bounded_riverDocuments : ∀ document ∈ riverDocuments, Bounded maxDepth document := by
  simp only [riverDocuments, List.forall_mem_cons]
  refine ⟨?_, ?_, nofun⟩
  . refine .object (by decide) ?_
    simp only [List.forall_mem_cons]
    refine ⟨.string _, .object (by decide) ?_, nofun⟩
    exact List.forall_mem_singleton.2 (.object (by decide) (List.forall_mem_singleton.2 (.string _)))
  . refine .object (by decide) ?_
    simp only [List.forall_mem_cons]
    refine ⟨.string _, .array ?_, nofun⟩
    simp only [List.forall_mem_cons]
    exact ⟨.null, .bool _, .integer (by decide) (by decide), .string _, nofun⟩

theorem holds_riverFiles : Dump.Holds riverFiles "dump" "sf_river" lexiconCollection riverDocuments := by
  have hfind : riverFiles.find (Dump.collectionPath "dump" "sf_river" lexiconCollection) =
      .ok (⟨some 0, ["dump", "sf_river.lexicon.json"]⟩, .file (.plain (encode (lines riverDocuments))) false) := by
    with_unfolding_all rfl
  rw [Dump.Holds, Files.Tree.readBytes, hfind]
  rfl

theorem prints_riverDocuments : ∀ program ∈ ["mongoexport", "bin/export"],
    Export.Prints { program } riverFiles "sf_river" lexiconCollection (encode (lines riverDocuments)) := by
  rw [List.forall_mem_cons, List.forall_mem_singleton]
  constructor
  . exact ⟨_, by with_unfolding_all rfl, rfl, rfl⟩
  . exact ⟨_, by with_unfolding_all rfl, rfl, rfl⟩

theorem prints_tornBytes : ∀ program ∈ ["mongoexport", "bin/torn"],
    Export.Prints { program } riverFiles "sf_river" "torn" tornBytes := by
  rw [List.forall_mem_cons, List.forall_mem_singleton]
  constructor
  . exact ⟨_, by with_unfolding_all rfl, rfl, rfl⟩
  . exact ⟨_, by with_unfolding_all rfl, rfl, rfl⟩

theorem copies_riverFiles : Dump.Copies riverFiles "dump" riverMemory "sf_river" := by
  unfold Dump.Copies
  simp only [List.forall_mem_cons]
  refine ⟨.inl ?_, .inr ⟨?_, ?_⟩, nofun⟩
  . unfold riverMemory
    rw [Memory.documents_replace_self]
    exact holds_riverFiles
  . with_unfolding_all rfl
  . with_unfolding_all rfl

theorem stores_agree_river :
    (Dump.store riverFiles "dump").findAll "sf_river" lexiconCollection = .ok riverDocuments ∧
      (∀ program ∈ ["mongoexport", "bin/export"],
        (Export.store { program } riverFiles).findAll "sf_river" lexiconCollection = .ok riverDocuments) ∧
      (∀ expected, verify (Dump.store riverFiles "dump") "sf_river" expected =
        verify riverMemory.store "sf_river" expected) ∧
      ∀ program ∈ ["mongoexport", "bin/torn"],
        ∃ fault, (Export.store { program } riverFiles).findAll "sf_river" "torn" = .error fault := by
  have hread : riverFiles.readBytes (Dump.collectionPath "dump" "sf_river" "torn") = .ok tornBytes := by
    with_unfolding_all rfl
  have hfault : (Dump.store riverFiles "dump").findAll "sf_river" "torn" =
      .error (.holdsNul "dump/sf_river.torn.json") := by with_unfolding_all rfl
  refine ⟨?_, ?_, ?_, ?_⟩
  . exact (stores_agree.1 _ bounded_riverDocuments _ _).1 _ _ holds_riverFiles
  . intro program hprogram
    exact (stores_agree.1 _ bounded_riverDocuments _ _).2.1 _ _ (prints_riverDocuments program hprogram)
  . refine stores_agree.2.1 _ _ _ _ copies_riverFiles ?_
    simp only [List.forall_mem_cons]
    refine ⟨?_, ?_, nofun⟩
    . unfold riverMemory
      rw [Memory.documents_replace_self]
      exact bounded_riverDocuments
    . have hnone : riverMemory.documents "sf_river" commentsCollection = [] := by with_unfolding_all rfl
      rw [hnone]
      exact nofun
  . intro program hprogram
    exact stores_agree.2.2 tornBytes "\x7b\"\x00" (by decide +kernel) _ _ _ _ _ hread hfault _ _
      (prints_tornBytes program hprogram)

end LexiconAudit.Database
