import LexiconAudit.Proofs.Database.Order
import LexiconAudit.Proofs.Fixture.WellMade

/-!
This module contains what a verification of a database reads of an expected note: what the note is about, and
its messages. The markers of a note are not among it, so that they are never enforced.
-/

namespace LexiconAudit.Database

structure SameNote (note note' : Node) : Prop where
  name : note.name = note'.name
  target : note.targetKey? = note'.targetKey?
  messages : note.childrenNamed Node.messageName = note'.childrenNamed Node.messageName

theorem matchNote_of_sameNote {note note' : Node} (h : SameNote note note') (record : Nat)
    (comments : List OpenComment) : matchNote record note comments = matchNote record note' comments := by
  unfold matchNote
  rw [h.target, h.messages]

theorem matchNotes_of_sameNotes {notes notes' : List Node} (h : List.Forall₂ SameNote notes notes') (record : Nat)
    (comments : List OpenComment) : matchNotes record notes comments = matchNotes record notes' comments := by
  induction h generalizing record comments with
  | nil => rfl
  | cons hnote _ ih =>
    unfold matchNotes
    rw [matchNote_of_sameNote hnote]
    exact congrArg _ (funext fun rest => ih (record + 1) rest)

theorem childrenNamed_of_sameNotes {part part' : Node} (h : List.Forall₂ SameNote part.children part'.children) :
    List.Forall₂ SameNote (part.childrenNamed Node.annotationName) (part'.childrenNamed Node.annotationName) := by
  refine List.rel_filter (fun note note' hsame => ?_) h
  simp only [hsame.name]

theorem verifyNotes_of_sameNotes {part part' : Node} (h : List.Forall₂ SameNote part.children part'.children)
    (store : Store) (database : String) : verifyNotes store database part = verifyNotes store database part' := by
  have hnotes := childrenNamed_of_sameNotes h
  unfold verifyNotes
  refine congrArg _ (funext fun comments => ?_)
  dsimp only
  rw [hnotes.length_eq, matchNotes_of_sameNotes hnotes]

/-! Notes without their markers. -/

def unmarkedNote (note : Node) : Node :=
  { note with children := note.present }

def unmarkedNotes (tree : Node) : Node :=
  { tree with
    children := tree.children.map fun part =>
      if part.name = Node.notesName then
        { part with children := part.children.map unmarkedNote }
      else
        part }

theorem sameNote_unmarked {note : Node}
    (h : ∀ child ∈ note.children, child.expectsAbsence = true → child.name ≠ Node.messageName) :
    SameNote (unmarkedNote note) note where
  name := rfl
  target := rfl
  messages := by
    unfold unmarkedNote Node.present Node.childrenNamed
    rw [List.filter_filter]
    refine List.filter_congr fun child hchild => ?_
    cases hmarker : child.expectsAbsence with
    | false => simp
    | true => simp [h child hchild hmarker]

/--
The markers that absence comments make in notes change no verification of a database: whatever fields the
comments hold that match the notes, the result is that without the markers.
-/
theorem verify_unmarkedNotes {text : String} {tree : Node} (h : Fixture.parse text = .ok tree) (store : Store)
    (database : String) : verify store database (unmarkedNotes tree) = verify store database tree := by
  have hmade := Fixture.wellMade_of_parse h
  unfold verify unmarkedNotes
  dsimp only
  rw [forM_map]
  refine forM_congr fun part hpart => ?_
  split
  . next hname =>
    unfold verifySection
    rw [if_neg (by simp [hname]; decide), if_pos hname, if_neg (by rw [hname]; decide), if_pos hname]
    refine verifyNotes_of_sameNotes (List.forall₂_map_left_iff.2 (List.forall₂_same.2 fun note hnote => ?_)) _ _
    exact sameNote_unmarked ((hmade.of_mem hpart).of_mem hnote).self.markers
  . rfl

/-! A note that must have no tags, and a comment with tags that matches it. -/

def untaggedText : String :=
  "[\x7bnotes: [\x7bref: 'sun', message: \x7bvalue: 'hot'\x7d /* no tags */\x7d]\x7d]"

def untaggedNote : Node where
  name := Node.annotationName
  attributes := [(Node.referenceKey, "label=sun")]
  children := [.leaf Node.messageName "hot", .absent "Tags"]

def untaggedTree : Node where
  name := Node.rootName
  children := [{ name := Node.notesName, children := [untaggedNote] }]

def taggedComment : Json :=
  .object [("regarding", .object [("word", .string "sun"), ("meaning", .string "")]), ("content", .string "hot"),
    ("tags", .array [.string "weather"])]

theorem parse_untaggedText : Fixture.parse untaggedText = .ok untaggedTree := by
  with_unfolding_all rfl

theorem verify_unmarkedNotes_untagged :
    Fixture.parse untaggedText = .ok untaggedTree ∧
      verify (skyMemory [] [taggedComment]).store "sf_demo" (unmarkedNotes untaggedTree) = .ok () := by
  refine ⟨parse_untaggedText, ?_⟩
  rw [verify_unmarkedNotes parse_untaggedText]
  with_unfolding_all rfl

theorem verify_untagged_tagged :
    Fixture.parse untaggedText = .ok untaggedTree ∧
      verify (skyMemory [] [taggedComment]).store "sf_demo" untaggedTree = .ok () ∧
      matchNote 0 untaggedNote [⟨"sun", taggedComment⟩] = .ok [] ∧
      Node.absent "Tags" ∈ untaggedNote.children ∧
      (taggedComment.field? (fieldName "Tags")).any isPopulated = true :=
  ⟨parse_untaggedText, by with_unfolding_all rfl, by with_unfolding_all rfl, by simp [untaggedNote], by decide⟩

end LexiconAudit.Database
