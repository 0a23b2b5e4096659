import LexiconAudit.Database.Memory
import LexiconAudit.Proofs.Database.Failures
import LexiconAudit.Proofs.Database.Matching
import LexiconAudit.Proofs.Repository.Failures
import LexiconAudit.Proofs.Repository.Storable

/-!
This module contains what a verification makes of the lexemes of an entry. The reader of fixtures sees to it
that every entry has one, but a verification looks at the first child that is called a lexeme form, which
may be a marker. Only then is an entry without form or without lexeme reported, on either side.
-/

namespace LexiconAudit

open Fixture (EntryShape)
open Fixture.Reader (alternative container lexemeForm)

def LexemeDenied (entry : Node) : Prop :=
  ∃ mark, entry.child? Node.lexemeFormName = some mark ∧ mark.expectsAbsence = true

def DeniesLexemeAt (tree : Node) (n : Nat) : Prop :=
  ∃ part ∈ tree.children, part.name = Node.lexiconName ∧
    ∃ entry, part.children[n]? = some entry ∧ LexemeDenied entry

/--
An entry whose form, and whose headword, is that of its first lexeme.
-/
def HasLexeme (entry : Node) : Prop :=
  ∃ system value, entry.child? Node.lexemeFormName = some (lexemeForm system value) ∧
    entry.entryForm? = some (container Node.formName [alternative Node.uniName system value]) ∧
    Database.expectedHeadword? entry = some value

theorem Fixture.EntryShape.exists_lexeme {entry : Node} (h : EntryShape entry) :
    ∃ system value, lexemeForm system value ∈ entry.children := by
  obtain ⟨-, hlexeme⟩ := h
  exact ⟨_, _, hlexeme⟩

theorem Fixture.EntryShape.child?_lexemeForm {entry : Node} (h : EntryShape entry) :
    ∃ first, entry.child? Node.lexemeFormName = some first ∧
      (Fixture.IsMarker first ∨ ∃ system value, first = lexemeForm system value) := by
  obtain ⟨system, value, hlexeme⟩ := h.exists_lexeme
  obtain ⟨first, hfirst⟩ := Option.isSome_iff_exists.1 (Repository.isSome_child?_of_mem hlexeme)
  obtain ⟨hmem, hname⟩ := Repository.mem_of_child? hfirst
  refine ⟨first, hfirst, ?_⟩
  obtain ⟨hchildren, -⟩ := h
  cases hchildren first hmem with
  | marker hmarker => exact .inl hmarker
  | lexeme system value => exact .inr ⟨system, value, rfl⟩
  | senses => exact absurd hname (show Node.sensesName ≠ Node.lexemeFormName by decide)

theorem hasLexeme_of_child? {entry : Node} {system value : String}
    (h : entry.child? Node.lexemeFormName = some (lexemeForm system value)) : HasLexeme entry := by
  refine ⟨system, value, h, ?_, ?_⟩
  . unfold Node.entryForm? Node.descend?
    rw [h]
    rfl
  . unfold Database.expectedHeadword?
    rw [h]
    simp [Database.systemTexts_lexemeForm]

theorem eq_none_of_lexemeDenied {entry : Node} (h : EntryShape entry) (hdenied : LexemeDenied entry) :
    entry.entryForm? = none ∧ Database.expectedHeadword? entry = none := by
  obtain ⟨mark, hmark, habsence⟩ := hdenied
  obtain ⟨first, hfirst, hshape⟩ := h.child?_lexemeForm
  cases hmark.symm.trans hfirst
  rcases hshape with ⟨field, rfl⟩ | ⟨system, value, rfl⟩
  . constructor
    . unfold Node.entryForm? Node.descend?
      rw [hfirst]
      rfl
    . unfold Database.expectedHeadword?
      rw [hfirst]
      rfl
  . cases habsence

theorem lexemeDenied_or_hasLexeme {entry : Node} (h : EntryShape entry) : LexemeDenied entry ∨ HasLexeme entry := by
  obtain ⟨first, hfirst, ⟨field, rfl⟩ | ⟨system, value, rfl⟩⟩ := h.child?_lexemeForm
  . exact .inl ⟨_, hfirst, rfl⟩
  . exact .inr (hasLexeme_of_child? hfirst)

theorem HasLexeme.not_eq_none {entry : Node} (h : HasLexeme entry) :
    entry.entryForm? ≠ none ∧ Database.expectedHeadword? entry ≠ none := by
  obtain ⟨system, value, -, hform, hword⟩ := h
  simp [hform, hword]

theorem entryShape_of_mem_entriesOf {text : String} {tree entry : Node} (h : Fixture.parse text = .ok tree)
    (hentry : entry ∈ Repository.entriesOf tree) : EntryShape entry := by
  obtain ⟨hsections⟩ := Fixture.treeShape_of_parse h
  obtain ⟨part, hpart, hname, hmem⟩ := Repository.mem_entriesOf_iff.1 hentry
  cases hsections part hpart with
  | lexicon hentries => exact hentries entry hmem
  | notes => exact absurd hname (show Node.notesName ≠ Node.lexiconName by decide)

/--
Every entry of a fixture has a lexeme. Its form and its headword are those of the first one, unless a marker
stands in front of it that denies the lexeme form; only then does it have neither, and only of such an entry
does a verification, of any repository or any database, report that it has no form or no lexeme.
-/
theorem lexemes_of_parse {text : String} {tree : Node} (h : Fixture.parse text = .ok tree) :
    (∀ entry ∈ Repository.entriesOf tree, (∃ system value, lexemeForm system value ∈ entry.children) ∧
      (¬LexemeDenied entry → HasLexeme entry) ∧
      (LexemeDenied entry → entry.entryForm? = none ∧ Database.expectedHeadword? entry = none)) ∧
    (∀ files root n, Repository.verify files root tree = .error (.entryWithoutForm n) → DeniesLexemeAt tree n) ∧
    ∀ store database n,
      Database.verify store database tree = .error (.entryWithoutLexeme n) → DeniesLexemeAt tree n := by
  have hdenied : ∀ {part : Node} {n : Nat} {entry : Node}, part ∈ tree.children → part.name = Node.lexiconName →
      part.children[n]? = some entry → ¬HasLexeme entry → DeniesLexemeAt tree n := by
    intro part n entry hpart hname hentry hnone
    have hmem := Repository.mem_entriesOf_iff.2 ⟨part, hpart, hname, List.mem_of_getElem? hentry⟩
    have hdenied := (lexemeDenied_or_hasLexeme (entryShape_of_mem_entriesOf h hmem)).resolve_right hnone
    exact ⟨part, hpart, hname, entry, hentry, hdenied⟩
  refine ⟨fun entry hentry => ?_, fun files root n hverify => ?_, fun store database n hverify => ?_⟩
  . have hshape := entryShape_of_mem_entriesOf h hentry
    exact ⟨hshape.exists_lexeme, (lexemeDenied_or_hasLexeme hshape).resolve_left, eq_none_of_lexemeDenied hshape⟩
  . obtain ⟨part, hpart, hname, entry, hentry, hform⟩ := Repository.exists_entry_of_verify hverify
    exact hdenied hpart hname hentry fun hlexeme => hlexeme.not_eq_none.1 hform
  . obtain ⟨part, hpart, hname, entry, hentry, hword⟩ := Database.exists_entry_of_verify hverify
    exact hdenied hpart hname hentry fun hlexeme => hlexeme.not_eq_none.2 hword

/-! An entry with a comment in front of its lexeme that denies the lexeme form. -/

def deniedText : String :=
  "[\x7blexicon: [\x7b/* no lexemeForm */ lexeme: \x7ben: \x7bvalue: 'sun'\x7d\x7d\x7d]\x7d]"

def deniedTree : Node :=
  container Node.rootName [container Node.lexiconName [container Node.entryName
    [Node.absent Node.lexemeFormName, lexemeForm "en" "sun"]]]

theorem parse_deniedText : Fixture.parse deniedText = .ok deniedTree := by
  with_unfolding_all rfl

theorem lexemes_deniedText :
    Fixture.parse deniedText = .ok deniedTree ∧ ∀ entry ∈ Repository.entriesOf deniedTree,
      (∃ system value, lexemeForm system value ∈ entry.children) ∧ (¬LexemeDenied entry → HasLexeme entry) ∧
        (LexemeDenied entry → entry.entryForm? = none ∧ Database.expectedHeadword? entry = none) :=
  ⟨parse_deniedText, (lexemes_of_parse parse_deniedText).1⟩

theorem verify_deniedText :
    Fixture.parse deniedText = .ok deniedTree ∧
      (∃ entry ∈ Repository.entriesOf deniedTree,
        entry.entryForm? = none ∧ Database.expectedHeadword? entry = none) ∧
      Repository.verify {} "." deniedTree = .error (.entryWithoutForm 0) ∧
      Database.verify (Database.Memory.store {}) "sf_demo" deniedTree = .error (.entryWithoutLexeme 0) := by
  refine ⟨parse_deniedText, ⟨_, List.mem_cons_self, rfl, rfl⟩, ?_, ?_⟩
  . with_unfolding_all rfl
  . with_unfolding_all rfl

end LexiconAudit
