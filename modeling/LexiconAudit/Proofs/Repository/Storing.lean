import LexiconAudit.Proofs.Files.Paths
import LexiconAudit.Proofs.Repository.Lookup
import LexiconAudit.Proofs.Repository.Storable

/-!
This module contains the writing of a tree into a repository, and that the repository is verified against
the tree then.
-/

namespace LexiconAudit.Repository

open Files (Place checkPath lead origin segments)
open Files.Tree (Way Written)
open Fixture (EntryShape NoteShape SectionShape TreeShape WellMade)
open Fixture.Reader (container gloss lexemeForm)
open Node (Layout markup)

def lexiconFile (root : String) : String :=
  Files.join (lexiconDirectory root) "Lexicon_01.lexdb"

def written (layout : Layout) (node : Node) : Files.Content :=
  .plain (Text.Utf8.encode (String.ofList (markup layout 0 node)))

def store (lexiconLayout notesLayout : Layout) (files : Files.Tree) (root : String) (tree : Node) :
    Except Files.Fault Files.Tree := do
  let files ← files.write (lexiconFile root) (written lexiconLayout (lexiconOf tree))
  match tree.child? Node.notesName with
  | none => return files
  | some notes => files.write (notesFile root) (written notesLayout notes.withoutMarkers)

/-! The paths of the files. -/

section Paths

variable (root : String)

theorem lead_lexiconDirectory : lead (lexiconDirectory root) = lead root ++ ["Linguistics", "Lexicon"] := by
  unfold lexiconDirectory
  rw [Files.lead_join (by decide) (by decide), Files.lead_join (by decide) (by decide), List.append_assoc]
  rfl

theorem segments_lexiconDirectory :
    segments (lexiconDirectory root) = lead root ++ ["Linguistics", "Lexicon"] := by
  unfold lexiconDirectory
  rw [Files.segments_join (by decide), Files.lead_join (by decide) (by decide), List.append_assoc]
  rfl

theorem segments_lexiconFile :
    segments (lexiconFile root) = lead root ++ ["Linguistics", "Lexicon"] ++ ["Lexicon_01.lexdb"] := by
  unfold lexiconFile
  rw [Files.segments_join (by decide), lead_lexiconDirectory]

theorem segments_notesFile : segments (notesFile root) = lead root ++ ["Lexicon.fwstub.ChorusNotes"] :=
  Files.segments_join (by decide) root

theorem origin_lexiconDirectory : origin (lexiconDirectory root) = origin root := by
  unfold lexiconDirectory
  rw [Files.origin_join (by decide), Files.origin_join (by decide)]

theorem origin_lexiconFile : origin (lexiconFile root) = origin root := by
  unfold lexiconFile
  rw [Files.origin_join (by decide), origin_lexiconDirectory]

theorem origin_notesFile : origin (notesFile root) = origin root :=
  Files.origin_join (by decide) root

theorem lexiconDirectory_ne_empty : lexiconDirectory root ≠ "" := by
  unfold lexiconDirectory
  exact Files.join_ne_empty (by decide) (by decide) _

theorem lexiconFile_ne_empty : lexiconFile root ≠ "" := by
  unfold lexiconFile
  exact Files.join_ne_empty (by decide) (by decide) _

theorem notesFile_ne_empty : notesFile root ≠ "" := by
  unfold notesFile
  exact Files.join_ne_empty (by decide) (by decide) _

end Paths

/-! Writing the files. -/

structure Ways (files : Files.Tree) (root : String) (base : Place) : Prop where
  start : Way files (origin root) (lead root) base
  down : Way files base ["Linguistics", "Lexicon"] (base.below ["Linguistics", "Lexicon"])

variable {files made stored : Files.Tree} {root : String} {base : Place} {content : Files.Content}

namespace Ways

theorem mono (h : Ways files root base) (hkeeps : Files.Tree.KeepsDirectories files stored) :
    Ways stored root base :=
  ⟨h.start.mono hkeeps, h.down.mono hkeeps⟩

theorem to_lexiconDirectory (h : Ways files root base) : Way files (origin (lexiconDirectory root))
    (segments (lexiconDirectory root)) (base.below ["Linguistics", "Lexicon"]) := by
  rw [origin_lexiconDirectory, segments_lexiconDirectory]
  exact h.start.append h.down

theorem to_lexiconFile (h : Ways files root base) : Way files (origin (lexiconFile root))
    (lead root ++ ["Linguistics", "Lexicon"]) (base.below ["Linguistics", "Lexicon"]) := by
  rw [origin_lexiconFile]
  exact h.start.append h.down

theorem to_notesFile (h : Ways files root base) : Way files (origin (notesFile root)) (lead root) base := by
  rw [origin_notesFile]
  exact h.start

theorem of_makeDirectory (h : files.makeDirectory (lexiconDirectory root) = .ok made) :
    checkPath (lexiconDirectory root) = .ok () ∧ ∃ base, Ways made root base := by
  unfold Files.Tree.makeDirectory at h
  rw [bind_unit_eq_ok_iff, segments_lexiconDirectory, origin_lexiconDirectory, bind_eq_ok_iff] at h
  obtain ⟨hpath, ⟨_, goal⟩, hway, heq⟩ := h
  cases heq
  obtain ⟨-, hway⟩ := Files.Tree.makeWay_way (Files.Tree.get?_origin files root) hway
  obtain ⟨base, hbase, hdown⟩ := hway.of_append
  refine ⟨hpath, base, hbase, ?_⟩
  rwa [← hdown.eq_below (by decide)]

theorem exists_list (h : Ways files root base) (hpath : checkPath (lexiconDirectory root) = .ok ()) :
    ∃ inside, files.get? (base.below ["Linguistics", "Lexicon"]) = some (.directory inside) ∧
      files.list (lexiconDirectory root) = .ok (inside.map Prod.fst) := by
  obtain ⟨inside, hinside, hfind⟩ :=
    Files.Tree.find_of_way hpath (lexiconDirectory_ne_empty root) h.to_lexiconDirectory
  exact ⟨inside, hinside, Files.Tree.list_of_find hfind⟩

end Ways

/--
The only file of the lexicon has this content.
-/
structure HoldsLexicon (files : Files.Tree) (root : String) (base : Place) (content : Files.Content) : Prop where
  ways : Ways files root base
  listed : ∃ inside, files.get? (base.below ["Linguistics", "Lexicon"]) = some (.directory inside) ∧
    (inside.map Prod.fst).filter isLexiconFile = ["Lexicon_01.lexdb"]
  file : ∃ executable, files.get? (base.below ["Linguistics", "Lexicon", "Lexicon_01.lexdb"]) =
    some (.file content executable)

theorem filter_of_lexiconFiles_eq_nil {names : List String} (h : lexiconFiles files root = .ok [])
    (hlist : files.list (lexiconDirectory root) = .ok names) : names.filter isLexiconFile = [] := by
  unfold lexiconFiles at h
  dsimp only at h
  rw [hlist] at h
  simp only [Except.ok.injEq, List.map_eq_nil_iff] at h
  have hlength := congrArg List.length h
  rw [List.length_mergeSort] at hlength
  exact List.eq_nil_of_length_eq_zero hlength

theorem HoldsLexicon.of_write (hways : Ways files root base) (hpath : checkPath (lexiconDirectory root) = .ok ())
    (hfree : lexiconFiles files root = .ok []) (h : files.write (lexiconFile root) content = .ok stored) :
    checkPath (lexiconFile root) = .ok () ∧ HoldsLexicon stored root base content := by
  obtain ⟨inside, hinside, hlist⟩ := hways.exists_list hpath
  obtain ⟨hchecked, hwritten⟩ :=
    Files.Tree.written_of_write h (segments_lexiconFile root) (by decide) hways.to_lexiconFile
  refine ⟨hchecked, hways.mono (hwritten.keepsDirectories hinside), ?_, ?_⟩
  . obtain ⟨executable, haround⟩ := hwritten.get?_around hinside
    have hnone := filter_of_lexiconFiles_eq_nil hfree hlist
    -- the file is new, or else it would have been listed before
    have hnew : "Lexicon_01.lexdb" ∉ inside.map Prod.fst := by
      intro hmem
      have hfilter := List.mem_filter.2 ⟨hmem, show isLexiconFile "Lexicon_01.lexdb" = true by decide⟩
      rw [hnone] at hfilter
      cases hfilter
    refine ⟨_, haround, ?_⟩
    rw [Keyed.set, Keyed.keys_alter, if_neg hnew, List.filter_append, hnone]
    rfl
  . obtain ⟨executable, hfile⟩ := hwritten.get?_inside hinside
    refine ⟨executable, ?_⟩
    rw [← hfile]
    simp [Place.below, Place.inside]

theorem HoldsLexicon.of_write_notes {content' : Files.Content} (h : HoldsLexicon files root base content)
    (hwrite : files.write (notesFile root) content' = .ok stored) : HoldsLexicon stored root base content ∧
      ∃ place executable, stored.find (notesFile root) = .ok (place, .file content' executable) := by
  obtain ⟨hpath, hwritten⟩ :=
    Files.Tree.written_of_write hwrite (segments_notesFile root) (by decide) h.ways.to_notesFile
  obtain ⟨inside, hbase⟩ := h.ways.start.exists_directory (Files.Tree.get?_origin files root)
  refine ⟨⟨h.ways.mono (hwritten.keepsDirectories hbase), ?_, ?_⟩, ?_⟩
  . rw [hwritten.get?_of_ne hbase (by decide)]
    exact h.listed
  . rw [hwritten.get?_of_ne hbase (by decide)]
    exact h.file
  . obtain ⟨executable, hfind⟩ := hwritten.find_eq hbase hpath (notesFile_ne_empty root)
      (segments_notesFile root) (by decide) h.ways.to_notesFile
    exact ⟨_, executable, hfind⟩

theorem HoldsLexicon.stores {layout : Layout} {lexicon : Node}
    (h : HoldsLexicon files root base (written layout lexicon))
    (hdirectory : checkPath (lexiconDirectory root) = .ok ()) (hfile : checkPath (lexiconFile root) = .ok ()) :
    Stores files root [(lexiconFile root, lexicon)] where
  listed := by
    obtain ⟨inside, hinside, hlist⟩ := h.ways.exists_list hdirectory
    obtain ⟨inside', hinside', hfilter⟩ := h.listed
    cases hinside.symm.trans hinside'
    rw [lexiconFiles_of_list hlist hfilter]
    rfl
  written := by
    obtain ⟨executable, hget⟩ := h.file
    have hlook : files.look (base.below ["Linguistics", "Lexicon"]) "Lexicon_01.lexdb" =
        .ok (base.below ["Linguistics", "Lexicon", "Lexicon_01.lexdb"],
          .file (written layout lexicon) executable) := by
      refine Files.Tree.look_eq_ok_iff.2 ⟨by decide, ?_, hget⟩
      rw [Place.next, if_pos (by decide)]
      simp [Place.below, Place.inside]
    have hfind := Files.Tree.find_of_look hfile (lexiconFile_ne_empty root) (segments_lexiconFile root)
      h.ways.to_lexiconFile hlook
    exact List.forall_mem_singleton.2 ⟨layout, Files.Tree.readText_of_find hfind⟩

/-! Verifying what was written. -/

theorem verifyEntries_eq_ok {locator : Locator} {entries : List Node}
    (h : ∀ entry ∈ entries, ∀ record, verifyEntry files locator record entry = .ok ()) (record : Nat) :
    verifyEntries files locator record entries = .ok () := by
  induction entries generalizing record with
  | nil => rfl
  | cons entry entries ih =>
    rw [List.forall_mem_cons] at h
    rw [verifyEntries, bind_unit_eq_ok_iff]
    exact ⟨h.1 record, ih h.2 (record + 1)⟩

theorem compareNotes_eq_ok {notes : List Node} (h : ∀ note ∈ notes, Covers note note.returned) (record : Nat) :
    compareNotes record notes (notes.map Node.returned) = .ok () := by
  induction notes generalizing record with
  | nil => rfl
  | cons note notes ih =>
    rw [List.forall_mem_cons] at h
    rw [List.map_cons, compareNotes, bind_unit_eq_ok_iff, compare_eq_ok_iff]
    exact ⟨h.1, ih h.2 (record + 1)⟩

theorem children_normal_lexiconOf (tree : Node) :
    (lexiconOf tree).normal.children = (entriesOf tree).map Node.returned := by
  rw [Node.children_normal]
  exact List.map_map

section Lexicon

variable {tree : Node} (hshape : ∀ entry ∈ entriesOf tree, EntryShape entry)
  (hclear : ∀ entry ∈ entriesOf tree, entry.Throughout Clear) (hkeys : ((entriesOf tree).map entryKey?).Nodup)

include hshape hclear hkeys

theorem findEntry?_lexiconOf {entry form : Node} (hentry : entry ∈ entriesOf tree)
    (hform : entry.entryForm? = some form) :
    findEntry? (searchKey form) (lexiconOf tree).normal = some entry.returned := by
  have hkey {other : Node} (hother : other ∈ entriesOf tree) : other.returned.entryForm? = other.entryForm? := by
    obtain ⟨form, hform, hreturned, -⟩ := EntryShape.exists_form (hshape other hother) (hclear other hother)
    rw [hreturned, hform]
  have hmem : entry.returned ∈ (lexiconOf tree).normal.childrenNamed Node.entryName := by
    obtain ⟨-, -⟩ := hshape entry hentry
    refine List.mem_filter.2 ⟨?_, ?_⟩
    . rw [children_normal_lexiconOf]
      exact List.mem_map_of_mem hentry
    . rw [Node.name_returned]
      exact decide_eq_true rfl
  refine find?_eq_some_of_unique hmem ?_ fun found hfound hsame => ?_
  . rw [hkey hentry, hform]
    exact decide_eq_true rfl
  -- an entry with the same key is the same entry, since no two of them share theirs
  . have hfound := (List.mem_filter.1 hfound).1
    rw [children_normal_lexiconOf] at hfound
    obtain ⟨other, hother, rfl⟩ := List.mem_map.1 hfound
    rw [hkey hother] at hsame
    split at hsame
    . next form' hform' =>
      have heq : entryKey? other = entryKey? entry := by
        rw [entryKey?, entryKey?, hform', hform, Option.map_some, Option.map_some, of_decide_eq_true hsame]
      rw [List.inj_on_of_nodup_map hkeys hother hentry heq]
    . cases hsame

theorem verifyEntry_stored {entry : Node} (hentry : entry ∈ entriesOf tree) {file : String}
    (hstores : Stores files root [(file, lexiconOf tree)]) (hwritable : Xml.Writable (lexiconOf tree))
    (record : Nat) : verifyEntry files (.ofRoot files root) record entry = .ok () := by
  obtain ⟨form, hform, -, hinfix⟩ := EntryShape.exists_form (hshape entry hentry) (hclear entry hentry)
  have hfirst : firstHolding? (searchKey form) [(file, lexiconOf tree)] = some (file, lexiconOf tree) := by
    apply List.find?_cons_of_pos
    rw [Text.occurs_iff]
    exact hinfix.trans (searchKey_infix_of_mem (List.mem_map_of_mem hentry))
  obtain ⟨layout, htext⟩ := hstores.written _ List.mem_cons_self
  rw [verifyEntry_of_located hstores hform hfirst, loadDocument_of_written htext hwritable]
  dsimp only [bind, Except.bind]
  rw [findEntry?_lexiconOf hshape hclear hkeys hentry hform]
  exact (compare_eq_ok_iff entry).2 (covers_returned (hclear entry hentry))

end Lexicon

theorem verifyNotes_stored {notes : List Node} (hshape : ∀ note ∈ notes, NoteShape note)
    (hplain : (container Node.notesName notes).Throughout Plain)
    (hapart : (container Node.notesName notes).Throughout MarkersApart) {layout : Layout} {place : Place}
    {executable : Bool} (hfind : files.find (notesFile root) =
      .ok (place, .file (written layout (container Node.notesName notes).withoutMarkers) executable)) :
    verifyNotes files (.ofRoot files root) (container Node.notesName notes) = .ok () := by
  have hmade : (container Node.notesName notes).Throughout WellMade := (SectionShape.notes hshape).throughout
  have hwritable := writable_withoutMarkers hmade hplain rfl
  have hreturned : (container Node.notesName notes).withoutMarkers.normal.childrenNamed Node.annotationName =
      ((container Node.notesName notes).childrenNamed Node.annotationName).map Node.returned := by
    refine childrenNamed_returned fun note hnote hmark => ?_
    cases (hshape note hnote).expectsAbsence.symm.trans hmark
  have hcovers : ∀ note ∈ (container Node.notesName notes).childrenNamed Node.annotationName,
      Covers note note.returned := by
    intro note hnote
    have hmem : note ∈ notes := (List.mem_filter.1 hnote).1
    exact covers_returned (NoteShape.clear (hshape note hmem) (hplain.of_mem hmem) (hapart.of_mem hmem))
  have hisFile : files.isFile (Locator.ofRoot files root).notes = true := Files.Tree.isFile_of_find hfind
  unfold verifyNotes
  rw [if_pos hisFile, bind_eq_ok_iff]
  refine ⟨_, loadDocument_of_written (Files.Tree.readText_of_find hfind) hwritable, ?_⟩
  dsimp only
  rw [hreturned, List.length_map, if_pos rfl]
  exact compareNotes_eq_ok hcovers 0

/-! Verifying the whole. -/

theorem entryShape_of_mem_entriesOf {tree entry : Node} (h : TreeShape tree) (hentry : entry ∈ entriesOf tree) :
    EntryShape entry := by
  obtain ⟨part, hpart, hname, hentry⟩ := mem_entriesOf_iff.1 hentry
  obtain ⟨hsections⟩ := h
  cases hsections part hpart with
  | lexicon hentries => exact hentries entry hentry
  | notes => exact absurd (show Node.notesName = Node.lexiconName from hname) (by decide)

theorem throughout_of_mem_entriesOf {P : Node → Prop} {tree entry : Node} (h : tree.Throughout P)
    (hentry : entry ∈ entriesOf tree) : entry.Throughout P := by
  obtain ⟨part, hpart, -, hentry⟩ := mem_entriesOf_iff.1 hentry
  exact (h.of_mem hpart).of_mem hentry

theorem child?_of_childrenNamed_le_one {node child : Node} {name : String}
    (h : (node.childrenNamed name).length ≤ 1) (hchild : child ∈ node.childrenNamed name) :
    node.child? name = some child := by
  have hhead : node.child? name = (node.childrenNamed name).head? := (List.head?_filter ..).symm
  obtain ⟨other, hother⟩ := List.length_eq_one_iff.1
    (Nat.le_antisymm h (List.length_pos_iff.2 (List.ne_nil_of_mem hchild)))
  rw [hother, List.mem_singleton] at hchild
  rw [hhead, hother, hchild]
  rfl

theorem stores_of_store {lexiconLayout notesLayout : Layout} {tree : Node}
    (hmade : files.makeDirectory (lexiconDirectory root) = .ok made) (hfree : lexiconFiles made root = .ok [])
    (hstored : store lexiconLayout notesLayout made root tree = .ok stored) :
    Stores stored root [(lexiconFile root, lexiconOf tree)] ∧ ∀ notes, tree.child? Node.notesName = some notes →
      ∃ place executable, stored.find (notesFile root) =
        .ok (place, .file (written notesLayout notes.withoutMarkers) executable) := by
  obtain ⟨hdirectory, base, hways⟩ := Ways.of_makeDirectory hmade
  obtain ⟨files₁, hlexicon, hnotes⟩ := bind_eq_ok_iff.1 hstored
  obtain ⟨hfile, hholds⟩ := HoldsLexicon.of_write hways hdirectory hfree hlexicon
  split at hnotes
  . next hnone =>
    cases hnotes
    refine ⟨hholds.stores hdirectory hfile, fun notes hsome => ?_⟩
    cases hnone.symm.trans hsome
  . next notes hsome =>
    obtain ⟨hholds, hfind⟩ := hholds.of_write_notes hnotes
    refine ⟨hholds.stores hdirectory hfile, fun notes' hsome' => ?_⟩
    cases hsome.symm.trans hsome'
    exact hfind

/--
A repository in which a tree was stored is verified against the tree.
-/
theorem verify_stored {text : String} {tree : Node} (htree : Fixture.parse text = .ok tree) (h : Storable tree)
    {lexiconLayout notesLayout : Layout} (hmade : files.makeDirectory (lexiconDirectory root) = .ok made)
    (hfree : lexiconFiles made root = .ok [])
    (hstored : store lexiconLayout notesLayout made root tree = .ok stored) : verify stored root tree = .ok () := by
  -- the text only matters for the shape of its tree
  have htreeShape := Fixture.treeShape_of_parse htree
  have hshape : ∀ entry ∈ entriesOf tree, EntryShape entry :=
    fun _ hentry => entryShape_of_mem_entriesOf htreeShape hentry
  have hplain : ∀ entry ∈ entriesOf tree, entry.Throughout Plain :=
    fun _ hentry => throughout_of_mem_entriesOf h.strings hentry
  have hclear : ∀ entry ∈ entriesOf tree, entry.Throughout Clear := fun entry hentry =>
    EntryShape.clear (hshape entry hentry) (hplain entry hentry) (throughout_of_mem_entriesOf h.apart hentry)
      (h.single entry hentry)
  obtain ⟨hstores, hnotes⟩ := stores_of_store hmade hfree hstored
  refine forM_eq_ok_iff.2 fun part hpart => ?_
  have hsection : SectionShape part := by
    obtain ⟨hsections⟩ := htreeShape
    exact hsections part hpart
  cases hsection with
  | lexicon =>
    rw [verifySection_lexicon]
    refine verifyEntries_eq_ok (fun entry hentry record => ?_) 0
    exact verifyEntry_stored hshape hclear h.keys (mem_entriesOf_iff.2 ⟨_, hpart, rfl, hentry⟩) hstores
      (writable_lexiconOf hshape hplain) record
  | @notes notes hshapes =>
    have hmem : container Node.notesName notes ∈ tree.childrenNamed Node.notesName :=
      List.mem_filter.2 ⟨hpart, decide_eq_true rfl⟩
    obtain ⟨place, executable, hfind⟩ := hnotes _ (child?_of_childrenNamed_le_one h.notes hmem)
    rw [verifySection_notes]
    exact verifyNotes_stored hshapes (h.strings.of_mem hpart) (h.apart.of_mem hpart) hfind

/-! A fixture with markers and with characters that are escaped. -/

def saltText : String :=
  "[\x7blexicon: [\x7blexeme: \x7ben: \x7bvalue: 'salt & <sea>'\x7d\x7d, senses: ["
    ++ "\x7bgloss: \x7ben: \x7bvalue: 'NaCl'\x7d\x7d /* no definition */\x7d]\x7d]\x7d, "
    ++ "\x7bnotes: [\x7bref: 'salt', message: \x7bvalue: 'check'\x7d /* no reply */\x7d]\x7d]"

def saltNotes : Node :=
  container Node.notesName [{
    name := Node.annotationName
    attributes := [(Node.referenceKey, "label=salt")]
    children := [.leaf Node.messageName "check", Node.absent "Reply"] }]

def saltTree : Node :=
  container Node.rootName [
    container Node.lexiconName [container Node.entryName [lexemeForm "en" "salt & <sea>",
      container Node.sensesName [container Node.senseName [gloss "en" "NaCl", Node.absent "Definition"]]]],
    saltNotes]

theorem storable_saltTree : Storable saltTree where
  single := List.forall_mem_singleton.2 (by decide +kernel)
  apart := by decide +kernel
  keys := by decide +kernel
  notes := by decide +kernel
  strings := by decide +kernel

def emptyRepository : Files.Tree where
  tops := [(some 0, [("repo", .directory [("Linguistics", .directory [("Lexicon", .directory [])])])])]

theorem store_saltTree : ∃ stored, store .indented .compact emptyRepository "repo" saltTree = .ok stored := by
  have hwrite (lexicon notes : Files.Content) : ∃ stored, (do
      let files ← emptyRepository.write (lexiconFile "repo") lexicon
      files.write (notesFile "repo") notes) = .ok stored := ⟨_, by with_unfolding_all rfl⟩
  have hnotes : saltTree.child? Node.notesName = some saltNotes := rfl
  unfold store
  rw [hnotes]
  exact hwrite _ _

set_option maxRecDepth 10000 in
theorem verify_saltTree :
    Fixture.parse saltText = .ok saltTree ∧ Storable saltTree ∧
      Files.Tree.makeDirectory {} (lexiconDirectory "repo") = .ok emptyRepository ∧
        lexiconFiles emptyRepository "repo" = .ok [] ∧
          ∃ stored, store .indented .compact emptyRepository "repo" saltTree = .ok stored ∧
            verify stored "repo" saltTree = .ok () := by
  have htree : Fixture.parse saltText = .ok saltTree := by with_unfolding_all rfl
  have hmade : Files.Tree.makeDirectory {} (lexiconDirectory "repo") = .ok emptyRepository := by
    with_unfolding_all rfl
  have hfree : lexiconFiles emptyRepository "repo" = .ok [] := by with_unfolding_all rfl
  obtain ⟨stored, hstored⟩ := store_saltTree
  exact ⟨htree, storable_saltTree, hmade, hfree, stored, hstored,
    verify_stored htree storable_saltTree hmade hfree hstored⟩

end LexiconAudit.Repository
