import LexiconAudit.Database.Memory
import LexiconAudit.Database.Verification
import LexiconAudit.Proofs.Database.Index
import LexiconAudit.Proofs.Database.Matching

/-!
This module contains the verification of a lexicon: it passes if and only if no two live entries share a
headword and every expected entry has a live one with its headword and matching fields.
-/

namespace LexiconAudit.Database

open Fixture (EntryChild EntryShape SectionShape)

/--
A live document has the headword that the first lexeme of the entry gives, and the fields that the entry
asks for.
-/
def IsStored (documents : List Json) (entry : Node) : Prop :=
  ∃ form system word fields, entry.child? Node.lexemeFormName = some form ∧ Writes form system word ∧
    .object fields ∈ liveDocuments documents ∧ headword? (.object fields) = some word ∧
      ∀ child ∈ entry.children, Matches fields child

theorem mem_entriesOf_iff {documents : List Json} {document : Json} {word : String} :
    document ∈ entriesOf documents word ↔
      document ∈ liveDocuments documents ∧ headword? document = some word := by
  simp [entriesOf]

theorem entry?_ofDocuments_eq_some_iff {documents : List Json} {document : Json} {word : String}
    (h : ((liveDocuments documents).filterMap headword?).Nodup) :
    LexiconIndex.entry? (LexiconIndex.ofDocuments documents) word = some document ↔
      document ∈ liveDocuments documents ∧ headword? document = some word := by
  have hlength := List.nodup_iff_count.1 h word
  rw [← length_entriesOf] at hlength
  rw [LexiconIndex.entry?_ofDocuments, ← mem_entriesOf_iff]
  match hentries : entriesOf documents word with
  | [] => simp
  | [entry] => simp [eq_comm]
  | _ :: _ :: _ => simp [hentries] at hlength

theorem expectedHeadword?_eq_some_iff {entry : Node} {word : String} (h : EntryShape entry) :
    expectedHeadword? entry = some word ↔
      ∃ form system, entry.child? Node.lexemeFormName = some form ∧ Writes form system word := by
  have hform {form : Node} (hform : entry.child? Node.lexemeFormName = some form) :
      systemTexts form = [] ∨ ∃ text, systemTexts form = [text] := by
    have hname : form.name = Node.lexemeFormName := by simpa using List.find?_some hform
    obtain ⟨hchildren, -⟩ := h
    cases hchildren form (List.mem_of_find?_eq_some hform) with
    | marker hmarker =>
      obtain ⟨name, rfl⟩ := hmarker
      exact .inl rfl
    | lexeme system value => exact .inr ⟨_, systemTexts_lexemeForm system value⟩
    | senses => exact absurd (show Node.sensesName = Node.lexemeFormName from hname) (by decide)
  unfold expectedHeadword?
  cases hchild : entry.child? Node.lexemeFormName with
  | none => simp
  | some form =>
    simp only [Option.some.injEq, ← mem_systemTexts_iff]
    rcases hform hchild with hnil | ⟨⟨system, value⟩, hsingle⟩
    . simp [hnil]
    . simp [hsingle, eq_comm]

theorem verifyEntry_eq_ok_iff {documents : List Json} {record : Nat} {entry : Node}
    (hunique : ((liveDocuments documents).filterMap headword?).Nodup) (h : EntryShape entry) :
    verifyEntry (.ofDocuments documents) record entry = .ok () ↔ IsStored documents entry := by
  have hfields {fields : List (String × Json)} : compareFields record fields entry.children = .ok () ↔
      ∀ child ∈ entry.children, Matches fields child := by
    obtain ⟨hchildren, -⟩ := h
    rw [compareFields_eq_ok_iff]
    exact forall₂_congr fun child hchild => compareField_entryChild_iff (hchildren child hchild)
  unfold verifyEntry
  constructor
  . intro hverify
    split at hverify
    . cases hverify
    next word hword =>
    split at hverify
    . cases hverify
    next fields hentry =>
    obtain ⟨form, system, hform, hwrites⟩ := (expectedHeadword?_eq_some_iff h).1 hword
    rw [bind_asObject?_eq_some_iff, entry?_ofDocuments_eq_some_iff hunique] at hentry
    exact ⟨form, system, word, fields, hform, hwrites, hentry.1, hentry.2, hfields.1 hverify⟩
  . intro ⟨form, system, word, fields, hform, hwrites, hlive, hheadword, hmatches⟩
    rw [(expectedHeadword?_eq_some_iff h).2 ⟨form, system, hform, hwrites⟩]
    dsimp only
    rw [(entry?_ofDocuments_eq_some_iff hunique).2 ⟨hlive, hheadword⟩]
    exact hfields.2 hmatches

theorem verifyEntries_eq_ok_iff {documents : List Json} {record : Nat} {entries : List Node}
    (hunique : ((liveDocuments documents).filterMap headword?).Nodup)
    (h : ∀ entry ∈ entries, EntryShape entry) :
    verifyEntries (.ofDocuments documents) record entries = .ok () ↔
      ∀ entry ∈ entries, IsStored documents entry := by
  induction entries generalizing record with
  | nil => simp [verifyEntries]
  | cons entry entries ih =>
    rw [List.forall_mem_cons] at h
    unfold verifyEntries
    rw [bind_unit_eq_ok_iff, verifyEntry_eq_ok_iff hunique h.1, ih h.2, List.forall_mem_cons]

/--
The lexicon of a fixture is verified if and only if the live entries have different headwords and all
expected entries are stored.
-/
theorem verifyLexicon_eq_ok_iff {memory : Memory} {database text : String} {tree lexicon : Node}
    (htree : Fixture.parse text = .ok tree) (hmem : lexicon ∈ tree.children)
    (hname : lexicon.name = Node.lexiconName) :
    verifyLexicon memory.store database lexicon = .ok () ↔
      ((liveDocuments (memory.documents database lexiconCollection)).filterMap headword?).Nodup ∧
        ∀ entry ∈ lexicon.children, IsStored (memory.documents database lexiconCollection) entry := by
  have hentries : ∀ entry ∈ lexicon.children, EntryShape entry := by
    obtain ⟨hsections⟩ := Fixture.treeShape_of_parse htree
    cases hsections lexicon hmem with
    | lexicon h => exact h
    | notes => exact absurd (show Node.notesName = Node.lexiconName from hname) (by decide)
  unfold verifyLexicon
  rw [bind_eq_ok_iff, ← LexiconIndex.sharedWord?_ofDocuments_eq_none_iff]
  constructor
  . rintro ⟨_, hfetch, h⟩
    cases hfetch
    dsimp only at h
    split at h
    . cases h
    . next hshared =>
      have hunique := LexiconIndex.sharedWord?_ofDocuments_eq_none_iff.1 hshared
      exact ⟨hshared, (verifyEntries_eq_ok_iff hunique hentries).1 h⟩
  . rintro ⟨hshared, h⟩
    refine ⟨_, rfl, ?_⟩
    have hunique := LexiconIndex.sharedWord?_ofDocuments_eq_none_iff.1 hshared
    dsimp only
    rw [hshared]
    exact (verifyEntries_eq_ok_iff hunique hentries).2 h

/-! An entry with a gloss and without a definition. -/

def sunText : String :=
  "[\x7blexicon: [\x7blexeme: \x7ben: \x7bvalue: 'sun'\x7d\x7d, senses: ["
    ++ "\x7bgloss: \x7bfr: \x7bvalue: 'soleil'\x7d\x7d,\n// no definition\n\x7d]\x7d]\x7d]"

def sunLexicon : Node :=
  { name := Node.lexiconName, children := [{ name := Node.entryName, children := [
    Fixture.Reader.lexemeForm "en" "sun",
    { name := Node.sensesName, children := [{ name := Node.senseName, children := [
      Fixture.Reader.gloss "fr" "soleil", .absent Node.definitionName] }] }] }] }

def sunMemory : Memory where
  databases := [("sf_demo", [(lexiconCollection, [.object [
    ("lexeme", .object [("en", .object [("value", .string "sun")])]),
    ("senses", .array [.object [("gloss", .object [("fr", .object [("value", .string "soleil")])])]])]])])]

set_option maxRecDepth 10000 in
theorem isStored_sunLexicon :
    ((liveDocuments (sunMemory.documents "sf_demo" lexiconCollection)).filterMap headword?).Nodup ∧
      ∀ entry ∈ sunLexicon.children, IsStored (sunMemory.documents "sf_demo" lexiconCollection) entry := by
  have hparse : Fixture.parse sunText = .ok { name := Node.rootName, children := [sunLexicon] } := by
    with_unfolding_all rfl
  have hverify : verifyLexicon sunMemory.store "sf_demo" sunLexicon = .ok () := by with_unfolding_all rfl
  exact (verifyLexicon_eq_ok_iff hparse List.mem_cons_self rfl).1 hverify

end LexiconAudit.Database
