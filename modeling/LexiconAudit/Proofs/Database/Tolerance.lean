import LexiconAudit.Proofs.Database.Frame
import LexiconAudit.Proofs.Database.Lexicon
import LexiconAudit.Proofs.Repository.Storable
import LexiconAudit.Proofs.Thinning

/-!
This module contains what a lexicon may hold beyond the expected tree: further fields, writing systems and entries
that the tree is not about. With them and without them every verification has the same result, be it a discrepancy
or none.
-/

namespace LexiconAudit.Database

/-! What a tree is about. -/

/--
A marker of the tree is about the field.
-/
def MarkedAbsent (tree : Node) (key : String) : Prop :=
  ∃ mark ∈ tree.elements, mark.expectsAbsence = true ∧ fieldName mark.name = key

instance (tree : Node) (key : String) : Decidable (MarkedAbsent tree key) :=
  inferInstanceAs (Decidable (∃ mark ∈ tree.elements, mark.expectsAbsence = true ∧ fieldName mark.name = key))

def WrittenIn (tree : Node) (system : String) : Prop :=
  ∃ element ∈ tree.elements, element.attribute? Node.writingSystemKey = some system

instance (tree : Node) (system : String) : Decidable (WrittenIn tree system) :=
  inferInstanceAs (Decidable (∃ element ∈ tree.elements, element.attribute? Node.writingSystemKey = some system))

def AskedOf (nodes : List Node) (key : String) : Prop :=
  ∃ node ∈ nodes, ∃ child ∈ node.children, fieldName child.name = key

instance (nodes : List Node) (key : String) : Decidable (AskedOf nodes key) :=
  inferInstanceAs (Decidable (∃ node ∈ nodes, ∃ child ∈ node.children, fieldName child.name = key))

def expectedSenses (tree : Node) : List Node :=
  (Repository.entriesOf tree).flatMap fun entry =>
    (entry.childrenNamed Node.sensesName).flatMap (Node.childrenNamed · Node.senseName)

/--
No entry of the tree is about the field, and neither is the index of the lexicon.
-/
def FreeInEntry (tree : Node) (key : String) : Prop :=
  key ∉ ["_id", "isDeleted", "lexeme"] ∧ ¬AskedOf (Repository.entriesOf tree) key

instance (tree : Node) (key : String) : Decidable (FreeInEntry tree key) :=
  inferInstanceAs (Decidable (key ∉ ["_id", "isDeleted", "lexeme"] ∧ ¬AskedOf (Repository.entriesOf tree) key))

def FreeInSense (tree : Node) (key : String) : Prop :=
  ¬AskedOf (expectedSenses tree) key

instance (tree : Node) (key : String) : Decidable (FreeInSense tree key) :=
  inferInstanceAs (Decidable (¬AskedOf (expectedSenses tree) key))

/-! What can be added. -/

/--
The first multitext has the writing systems of the second one and, behind the first one of them, more in which the
tree is not written.
-/
inductive MoreSystems (tree : Node) : (value value' : Json) → Prop where
  | object {first : String × Json} {systems systems' : List (String × Json)} :
    ThinnedFields (fun system => ¬WrittenIn tree system) (fun _ => Eq) systems systems' →
      MoreSystems tree (.object (first :: systems)) (.object (first :: systems'))

inductive MoreText (tree : Node) (key : String) : (value value' : Json) → Prop where
  | same (value : Json) : MoreText tree key value value
  | systems {value value' : Json} : ¬MarkedAbsent tree key → MoreSystems tree value value' →
    MoreText tree key value value'

inductive MoreSense (tree : Node) : (sense sense' : Json) → Prop where
  | same (sense : Json) : MoreSense tree sense sense
  | object {fields fields' : List (String × Json)} :
    ThinnedFields (FreeInSense tree) (MoreText tree) fields fields' → MoreSense tree (.object fields) (.object fields')

/--
The value of a field of an entry with more writing systems, or with more in its senses if no marker is about these.
-/
inductive MoreValue (tree : Node) : (key : String) → (value value' : Json) → Prop where
  | same (key : String) (value : Json) : MoreValue tree key value value
  | text {key : String} {value value' : Json} : key ≠ "_id" → MoreText tree key value value' →
    MoreValue tree key value value'
  | senses {senses senses' : List Json} : ¬MarkedAbsent tree "senses" →
    List.Forall₂ (MoreSense tree) senses senses' → MoreValue tree "senses" (.array senses) (.array senses')

inductive MoreEntry (tree : Node) : (entry entry' : Json) → Prop where
  | same (entry : Json) : MoreEntry tree entry entry
  | object {fields fields' : List (String × Json)} :
    ThinnedFields (FreeInEntry tree) (MoreValue tree) fields fields' → MoreEntry tree (.object fields) (.object fields')

/--
A live entry with a headword that neither another live entry has nor the tree expects, at which no live comment
points.
-/
structure Unexpected (tree : Node) (comments lexicon : List Json) (entry : Json) : Prop where
  live : isDeleted entry = false
  headword : ∃ word, headword? entry = some word ∧ entriesOf lexicon word = [entry] ∧
    ∀ expected ∈ Repository.entriesOf tree, expectedHeadword? expected ≠ some word
  unreferenced : Unreferenced comments entry

/--
The first database has what the second one has and, in the lexicon, more that the tree is not about.
-/
structure Exceeds (tree : Node) (database : String) (memory memory' : Memory) : Prop where
  comments : memory.documents database commentsCollection = memory'.documents database commentsCollection
  entries : Thinned
    (Unexpected tree (memory.documents database commentsCollection) (memory.documents database lexiconCollection))
    (MoreEntry tree) (memory.documents database lexiconCollection) (memory'.documents database lexiconCollection)

/-! Fields of a sense. -/

theorem Writes.writtenIn {tree node : Node} {system value : String} (h : Writes node system value)
    (hnode : node.elements ⊆ tree.elements) : WrittenIn tree system := by
  induction h with
  | here hsystem => exact ⟨_, hnode (Node.mem_elements_self _), hsystem⟩
  | inside _ hchild _ ih => exact ih (List.Subset.trans (Node.elements_subset_of_mem hchild) hnode)

section Values

variable {tree expected : Node} (hexpected : expected.elements ⊆ tree.elements) {record : Nat} {value value' : Json}

theorem MoreSystems.field?_eq (h : MoreSystems tree value value') {system : String}
    (hsystem : WrittenIn tree system) : value.field? system = value'.field? system := by
  cases h with
  | @object first systems systems' hsystems =>
    have hfields : ThinnedFields (fun system => ¬WrittenIn tree system) (fun _ => Eq) (first :: systems)
        (first :: systems') := .keep ⟨rfl, rfl⟩ hsystems
    exact eq_of_rel (hfields.lookup (not_not_intro hsystem)) fun _ _ heq => heq

include hexpected

theorem MoreSystems.compareStored_eq (h : MoreSystems tree value value') :
    compareStored record expected value = compareStored record expected value' := by
  have hsystems : ∀ text ∈ systemTexts expected, value.field? text.1 = value'.field? text.1 := by
    intro text htext
    exact h.field?_eq (((mem_systemTexts_iff expected).1 htext).writtenIn hexpected)
  have hstring : value.asString? = value'.asString? := by
    obtain ⟨-⟩ := h
    rfl
  unfold compareStored
  rw [compareText_congr hstring hsystems]
  obtain ⟨-⟩ := h
  rfl

theorem MoreText.compareStored_eq (h : MoreText tree (fieldName expected.name) value value') :
    compareStored record expected value = compareStored record expected value' := by
  cases h with
  | same => rfl
  | systems _ hsystems => exact hsystems.compareStored_eq hexpected

theorem MoreText.eq_of_marker (h : MoreText tree (fieldName expected.name) value value')
    (hmark : expected.expectsAbsence = true) : value = value' := by
  cases h with
  | same => rfl
  | systems habsent => exact absurd ⟨expected, hexpected (Node.mem_elements_self _), hmark, rfl⟩ habsent

end Values

/-! Senses. -/

section Tree

variable {tree : Node} {record : Nat}

theorem elements_subset_of_mem_entriesOf {entry : Node} (h : entry ∈ Repository.entriesOf tree) :
    entry.elements ⊆ tree.elements := by
  obtain ⟨part, hpart, -, hentry⟩ := Repository.mem_entriesOf_iff.1 h
  exact List.Subset.trans (Node.elements_subset_of_mem hentry) (Node.elements_subset_of_mem hpart)

theorem elements_subset_of_mem_expectedSenses {sense : Node} (h : sense ∈ expectedSenses tree) :
    sense.elements ⊆ tree.elements := by
  obtain ⟨entry, hentry, hsense⟩ := List.mem_flatMap.1 h
  obtain ⟨senses, hsenses, hsense⟩ := List.mem_flatMap.1 hsense
  have hbelow := List.Subset.trans (Node.elements_subset_of_mem (List.mem_of_mem_filter hsense))
    (Node.elements_subset_of_mem (List.mem_of_mem_filter hsenses))
  exact List.Subset.trans hbelow (elements_subset_of_mem_entriesOf hentry)

theorem compareFields_of_moreSense (record : Nat) {sense : Node} {fields fields' : List (String × Json)}
    (hsense : sense ∈ expectedSenses tree) (h : ThinnedFields (FreeInSense tree) (MoreText tree) fields fields') :
    compareFields record fields sense.children = compareFields record fields' sense.children := by
  refine compareFields_congr fun part hpart => ?_
  have hsub := List.Subset.trans (Node.elements_subset_of_mem hpart) (elements_subset_of_mem_expectedSenses hsense)
  have hlookup := h.lookup (not_not_intro ⟨sense, hsense, part, hpart, rfl⟩)
  exact compareField_congr hlookup (fun hmark _ _ hvalue => hvalue.eq_of_marker hsub hmark)
    fun _ _ hvalue => hvalue.compareStored_eq hsub

theorem compareSenses_of_moreSense {index : Nat} {senses senses' : List Json} {children : List Node}
    (h : List.Forall₂ (MoreSense tree) senses senses')
    (hchildren : ∀ node ∈ children, node.name = Node.senseName → node ∈ expectedSenses tree) :
    compareSenses record index senses children = compareSenses record index senses' children := by
  induction children generalizing index senses senses' with
  | nil =>
    unfold compareSenses
    rfl
  | cons node children ih =>
    rw [List.forall_mem_cons] at hchildren
    obtain ⟨name, attributes, text, parts⟩ := node
    unfold compareSenses
    split
    . next hname =>
      have hnode := hchildren.1 hname
      cases h with
      | nil => rfl
      | @cons stored _ _ _ hsense hsenses =>
        cases hsense with
        | same =>
          cases stored with
          | object =>
            dsimp only
            rw [ih hsenses hchildren.2]
          | _ => rfl
        | object hfields =>
          have hcompare := compareFields_of_moreSense record hnode hfields
          dsimp only at hcompare ⊢
          rw [hcompare, ih hsenses hchildren.2]
    . exact ih h hchildren.2

/-! Entries. -/

theorem MoreValue.moreText {key : String} {value value' : Json} (h : MoreValue tree key value value')
    (hkey : key ≠ "senses") : MoreText tree key value value' := by
  cases h with
  | same => exact .same _
  | text _ htext => exact htext
  | senses => exact absurd rfl hkey

theorem MoreValue.eq_of_id {value value' : Json} (h : MoreValue tree "_id" value value') : value = value' := by
  generalize hkey : "_id" = key at h
  cases h with
  | same => rfl
  | text hne => exact absurd hkey.symm hne
  | senses => exact absurd hkey (by decide)

section Fields

variable {entry child : Node} (hentry : entry ∈ Repository.entriesOf tree) (hchild : child ∈ entry.children)
  {value value' : Json} (h : MoreValue tree (fieldName child.name) value value')

include hentry hchild h

theorem MoreValue.eq_of_marker (hmark : child.expectsAbsence = true) : value = value' := by
  have hsub := List.Subset.trans (Node.elements_subset_of_mem hchild) (elements_subset_of_mem_entriesOf hentry)
  generalize hkey : fieldName child.name = key at h
  cases h with
  | same => rfl
  | text _ htext =>
    subst hkey
    exact htext.eq_of_marker hsub hmark
  | senses habsent => exact absurd ⟨child, hsub (Node.mem_elements_self _), hmark, hkey⟩ habsent

theorem MoreValue.compareStored_eq :
    compareStored record child value = compareStored record child value' := by
  have hsub := List.Subset.trans (Node.elements_subset_of_mem hchild) (elements_subset_of_mem_entriesOf hentry)
  generalize hkey : fieldName child.name = key at h
  cases h with
  | same => rfl
  | text _ htext =>
    subst hkey
    exact htext.compareStored_eq hsub
  | senses _ hsenses =>
    unfold compareStored
    split
    . next hname =>
      dsimp only
      rw [hsenses.length_eq, compareSenses_of_moreSense hsenses fun node hnode hsense => ?_]
      have hmem : node ∈ child.childrenNamed Node.senseName := List.mem_filter.2 ⟨hnode, decide_eq_true hsense⟩
      have hnamed : child ∈ entry.childrenNamed Node.sensesName := List.mem_filter.2 ⟨hchild, decide_eq_true hname⟩
      exact List.mem_flatMap.2 ⟨entry, hentry, List.mem_flatMap.2 ⟨child, hnamed, hmem⟩⟩
    . exact compareText_congr rfl fun _ _ => rfl

end Fields

theorem compareFields_of_moreEntry (record : Nat) {entry : Node} {fields fields' : List (String × Json)}
    (hentry : entry ∈ Repository.entriesOf tree)
    (h : ThinnedFields (FreeInEntry tree) (MoreValue tree) fields fields') :
    compareFields record fields entry.children = compareFields record fields' entry.children := by
  refine compareFields_congr fun child hchild => ?_
  have hlookup := h.lookup fun hfree => hfree.2 ⟨entry, hentry, child, hchild, rfl⟩
  exact compareField_congr hlookup (fun hmark _ _ hvalue => hvalue.eq_of_marker hentry hchild hmark)
    fun _ _ hvalue => hvalue.compareStored_eq hentry hchild

section Entry

variable {document document' : Json} (h : MoreEntry tree document document')

include h

theorem MoreEntry.field? (key : String) (hkey : key ∈ ["_id", "isDeleted", "lexeme"]) :
    Option.Rel (MoreValue tree key) (document.field? key) (document'.field? key) := by
  cases h with
  | same =>
    cases document.field? key with
    | none => exact .none
    | some value => exact .some (.same key value)
  | object hfields => exact hfields.lookup fun hfree => hfree.1 hkey

theorem MoreEntry.documentId?_eq : documentId? document = documentId? document' := by
  unfold documentId?
  rw [eq_of_rel (h.field? "_id" (by decide)) fun _ _ hvalue => hvalue.eq_of_id]

theorem MoreEntry.isDeleted_eq : isDeleted document = isDeleted document' := by
  have hfield := h.field? "isDeleted" (by decide)
  unfold isDeleted
  generalize document.field? "isDeleted" = value at hfield
  generalize document'.field? "isDeleted" = value' at hfield
  cases hfield with
  | none => rfl
  | some hvalue =>
    cases hvalue.moreText (by decide) with
    | same => rfl
    | systems _ hsystems =>
      obtain ⟨-⟩ := hsystems
      rfl

theorem MoreEntry.headword?_eq : headword? document = headword? document' := by
  have hfield := h.field? "lexeme" (by decide)
  unfold headword?
  generalize document.field? "lexeme" = value at hfield
  generalize document'.field? "lexeme" = value' at hfield
  cases hfield with
  | none => rfl
  | some hvalue =>
    cases hvalue.moreText (by decide) with
    | same => rfl
    | systems _ hsystems =>
      obtain ⟨-⟩ := hsystems
      rfl

theorem MoreEntry.wordFor?_eq (id : String) : wordFor? id document = wordFor? id document' := by
  rw [wordFor?, wordFor?, h.documentId?_eq, h.headword?_eq]

end Entry

/-! The lexicon. -/

section Lexicon

variable {comments lexicon lexicon' : List Json}
  (h : Thinned (Unexpected tree comments lexicon) (MoreEntry tree) lexicon lexicon')

include h

theorem forall₂_entriesOf (word : String) (hword : ∀ entry, Unexpected tree comments lexicon entry →
    headword? entry ≠ some word) :
    List.Forall₂ (MoreEntry tree) (entriesOf lexicon word) (entriesOf lexicon' word) := by
  rw [entriesOf_eq_filter, entriesOf_eq_filter]
  refine h.filter (fun entry hentry => ?_) fun entry entry' hmore => by rw [hmore.headword?_eq, hmore.isDeleted_eq]
  simp [hword entry hentry]

theorem shared_iff (word : String) : 1 < (entriesOf lexicon word).length ↔ 1 < (entriesOf lexicon' word).length := by
  by_cases hadded : ∃ entry, Unexpected tree comments lexicon entry ∧ headword? entry = some word
  . obtain ⟨entry, hentry, hword⟩ := hadded
    obtain ⟨word', hword', honly, -⟩ := hentry.headword
    cases hword.symm.trans hword'
    have hle : (entriesOf lexicon' word).length ≤ (entriesOf lexicon word).length := by
      rw [entriesOf_eq_filter, entriesOf_eq_filter]
      exact h.length_filter_le fun entry entry' hmore => by rw [hmore.headword?_eq, hmore.isDeleted_eq]
    rw [honly, List.length_singleton] at hle ⊢
    omega
  . have hword : ∀ entry, Unexpected tree comments lexicon entry → headword? entry ≠ some word :=
      fun entry hentry heq => hadded ⟨entry, hentry, heq⟩
    rw [(forall₂_entriesOf h word hword).length_eq]

theorem verifyEntry_of_thinned {expected : Node} (hexpected : expected ∈ Repository.entriesOf tree) (record : Nat) :
    verifyEntry (.ofDocuments lexicon) record expected = verifyEntry (.ofDocuments lexicon') record expected := by
  unfold verifyEntry
  cases hword : expectedHeadword? expected with
  | none => rfl
  | some word =>
    have hentries := forall₂_entriesOf h word fun entry hentry heq => by
      obtain ⟨word', hword', -, hfresh⟩ := hentry.headword
      cases heq.symm.trans hword'
      exact hfresh expected hexpected hword
    dsimp only
    rw [LexiconIndex.entry?_ofDocuments, LexiconIndex.entry?_ofDocuments]
    generalize entriesOf lexicon word = entries at hentries
    generalize entriesOf lexicon' word = entries' at hentries
    cases hentries with
    | nil => rfl
    | cons hentry _ =>
      cases hentry with
      | same => rfl
      | object hfields => exact compareFields_of_moreEntry record hexpected hfields

theorem interchangeable_of_thinned : Interchangeable tree comments lexicon lexicon' where
  shared := LexiconIndex.sharedWord?_ofDocuments_congr (shared_iff h)
  entries part hpart hname entry hentry record :=
    verifyEntry_of_thinned h (Repository.mem_entriesOf_iff.2 ⟨part, hpart, hname, hentry⟩) record
  words comment hcomment id hid := by
    rw [LexiconIndex.wordOfId?_ofDocuments, LexiconIndex.wordOfId?_ofDocuments]
    refine congrArg List.getLast? (h.filterMap (fun entry hentry => ?_) fun _ _ hmore => hmore.wordFor?_eq id)
    exact if_neg (hentry.unreferenced comment hcomment id hid)

end Lexicon

end Tree

/--
Further fields, writing systems and entries that the tree is not about can be added to a lexicon, anywhere and in any
number: the verification has the same result.
-/
theorem verify_exceeding {tree : Node} {database : String} {memory memory' : Memory}
    (h : Exceeds tree database memory memory') :
    verify memory.store database tree = verify memory'.store database tree := by
  refine verify_eq (interchangeable_of_thinned h.entries) ?_
  rw [h.comments]
  exact List.forall₂_same.2 fun comment _ => .refl comment

/-! An entry with more fields and writing systems than are expected of it, and one that is not expected. -/

def sunTree : Node where
  name := Node.rootName
  children := [sunLexicon]

def inSystems (texts : List (String × String)) : Json :=
  .object (texts.map fun (system, value) => (system, .object [("value", .string value)]))

def sunDocument (systems glosses : List (String × String)) (fields senseFields : List (String × Json)) : Json :=
  .object (fields ++ [("lexeme", inSystems systems),
    ("senses", .array [.object (senseFields ++ [("gloss", inSystems glosses)])])])

def brightMemory : Memory where
  databases := [("sf_demo", [(lexiconCollection, [
    .object [("_id", .string "e2"), ("lexeme", inSystems [("en", "moon")])],
    sunDocument [("en", "sun"), ("de", "Sonne")] [("fr", "soleil"), ("de", "Sonne")]
      [("note", .string "rises")] [("usage", .string "common")]])])]

theorem verify_brightMemory :
    Exceeds sunTree "sf_demo" brightMemory sunMemory ∧ verify brightMemory.store "sf_demo" sunTree = .ok () := by
  have hsystems (first value : String) : MoreSystems sunTree (inSystems [(first, value), ("de", "Sonne")])
      (inSystems [(first, value)]) := .object (.leave (by decide) .nil)
  have hsense : MoreSense sunTree
      (.object [("usage", .string "common"), ("gloss", inSystems [("fr", "soleil"), ("de", "Sonne")])])
      (.object [("gloss", inSystems [("fr", "soleil")])]) :=
    .object (.leave (by decide) (.keep ⟨rfl, .systems (by decide) (hsystems _ _)⟩ .nil))
  have hentry : MoreEntry sunTree
      (sunDocument [("en", "sun"), ("de", "Sonne")] [("fr", "soleil"), ("de", "Sonne")]
        [("note", .string "rises")] [("usage", .string "common")])
      (sunDocument [("en", "sun")] [("fr", "soleil")] [] []) := by
    refine .object (.leave (by decide) (.keep ⟨rfl, ?_⟩ (.keep ⟨rfl, ?_⟩ .nil)))
    . exact .text (by decide) (.systems (by decide) (hsystems _ _))
    . exact .senses (by decide) (.cons hsense .nil)
  have hexceeds : Exceeds sunTree "sf_demo" brightMemory sunMemory := by
    refine ⟨rfl, .leave ⟨rfl, ⟨"moon", rfl, rfl, ?_⟩, nofun⟩ (.keep hentry .nil)⟩
    decide
  refine ⟨hexceeds, ?_⟩
  rw [verify_exceeding hexceeds]
  with_unfolding_all rfl

end LexiconAudit.Database
