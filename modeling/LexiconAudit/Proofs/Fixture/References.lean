import LexiconAudit.Proofs.Fixture.Shape

/-!
This module contains the form of the references that fixtures spell: what a note is about stands behind the
mark of a label.
-/

namespace LexiconAudit.Fixture

open Reading
open Reader hiding lexicon notes object sense entry note reply message senses fixture

theorem attribute?_setAttribute_of_ne {node : Node} {key other : String} (h : other ≠ key) (value : String) :
    (node.setAttribute key value).attribute? other = node.attribute? other :=
  Keyed.lookup_alter_of_ne h _ _

theorem attribute?_setAttribute_self (node : Node) (key value : String) :
    (node.setAttribute key value).attribute? key = some value :=
  Keyed.lookup_alter_self key _ _

def Labelled (note : Node) : Prop :=
  ∀ reference, note.attribute? Node.referenceKey = some reference →
    ∃ target, reference = Node.labelMark ++ target

theorem Labelled.setClass {node : Node} (h : Labelled node) (value : String) :
    Labelled (node.setAttribute Node.classKey value) := by
  intro reference hreference
  rw [attribute?_setAttribute_of_ne (by decide)] at hreference
  exact h reference hreference

theorem labelled_setReference (node : Node) (target : String) :
    Labelled (node.setAttribute Node.referenceKey (Node.labelMark ++ target)) := by
  intro reference hreference
  rw [attribute?_setAttribute_self] at hreference
  exact ⟨target, (Option.some.inj hreference).symm⟩

theorem answers_note_property_labelled {p : Property} {read : NoteDraft → Reader NoteDraft}
    (hread : Reader.note.property p = some read) {draft : NoteDraft} (h : Labelled draft.node) :
    (read draft).Answers fun draft => Labelled draft.node := by
  cases p <;> cases hread
  all_goals
    refine Answers.bind (Answers.trivial _) fun marks _ => ?_
    refine Answers.bind (Answers.trivial _) fun value _ => ?_
  . exact Answers.pure (h.setClass value)
  . exact Answers.pure (labelled_setReference _ value)
  . exact Answers.pure h
  . exact Answers.bind (Answers.trivial _) fun _ _ => Answers.pure h
  . exact Answers.bind (Answers.trivial _) fun _ _ => Answers.pure h

theorem answers_note_labelled : Reader.note.Answers Labelled := by
  unfold Reader.note
  refine Answers.bind (Answers.trivial _) fun _ _ => ?_
  refine Answers.bind (P := fun draft : NoteDraft => Labelled draft.node)
    (answers_object (fun hread _ h => answers_note_property_labelled hread h) nofun) fun draft h => ?_
  -- messages and markers are children, so that the reference stays what it is
  exact Answers.bind (Answers.trivial _) fun _ _ => Answers.pure h

theorem labelled_of_parse {text : String} {tree part note : Node} (h : parse text = .ok tree)
    (hpart : part ∈ tree.children) (hname : part.name = Node.notesName) (hnote : note ∈ part.children) :
    Labelled note := by
  obtain ⟨tokens, -, htokens⟩ := bind_eq_ok_iff.1 h
  obtain ⟨sections, rfl, hsections⟩ :=
    sections_of_ofTokens (Answers.trivial _) answers_note_labelled htokens
  cases hsections part hpart with
  | lexicon => exact absurd (show Node.lexiconName = Node.notesName from hname) (by decide)
  | notes hnotes => exact hnotes note hnote

end LexiconAudit.Fixture
