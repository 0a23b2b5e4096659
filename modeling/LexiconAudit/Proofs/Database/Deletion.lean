import LexiconAudit.Proofs.Database.Order
import LexiconAudit.Proofs.Thinning
import Mathlib.Logic.Relation

/-!
This module contains the independence of a verification from deleted data. Deleted comments, deleted replies and
deleted entries at which no live comment points can come and go: the result is the same, down to the positions and
counts that a discrepancy gives.
-/

namespace LexiconAudit.Database

/-! What can be left out. -/

/--
The value of a field of a comment without some deleted replies, if it is the field that holds the replies.
-/
inductive ThinnedReplies : (key : String) → (value value' : Json) → Prop where
  | same (key : String) (value : Json) : ThinnedReplies key value value
  | replies {replies replies' : List Json} : Thinned (fun reply => isDeleted reply = true) Eq replies replies' →
    ThinnedReplies "replies" (.array replies) (.array replies')

/--
A comment without some of its deleted replies.
-/
inductive ThinnedComment : (comment comment' : Json) → Prop where
  | same (comment : Json) : ThinnedComment comment comment
  | object {fields fields' : List (String × Json)} : ThinnedFields (fun _ => False) ThinnedReplies fields fields' →
    ThinnedComment (.object fields) (.object fields')

/--
The second database is the first one without some deleted comments, some deleted replies, and some deleted entries
at which no live comment points.
-/
structure Purged (database : String) (memory memory' : Memory) : Prop where
  comments : Thinned (fun comment => isDeleted comment = true) ThinnedComment
    (memory.documents database commentsCollection) (memory'.documents database commentsCollection)
  entries : Thinned (fun entry => isDeleted entry = true ∧
      Unreferenced (memory.documents database commentsCollection) entry) Eq
    (memory.documents database lexiconCollection) (memory'.documents database lexiconCollection)

/-! Comments. -/

section Comment

variable {comment comment' : Json}

theorem ThinnedComment.field? (h : ThinnedComment comment comment') (key : String) :
    Option.Rel (ThinnedReplies key) (comment.field? key) (comment'.field? key) := by
  cases h with
  | same =>
    cases comment.field? key with
    | none => exact .none
    | some value => exact .some (.same key value)
  | object hfields => exact hfields.lookup id

theorem ThinnedComment.field?_eq (h : ThinnedComment comment comment') {key : String} (hkey : key ≠ "replies") :
    comment.field? key = comment'.field? key := by
  refine eq_of_rel (h.field? key) fun value value' hvalue => ?_
  cases hvalue with
  | same => rfl
  | replies => exact absurd rfl hkey

theorem ThinnedComment.replyTexts_eq (h : ThinnedComment comment comment') :
    replyTexts comment = replyTexts comment' := by
  have hfield := h.field? "replies"
  unfold replyTexts
  generalize comment.field? "replies" = value at hfield
  generalize comment'.field? "replies" = value' at hfield
  cases hfield with
  | none => rfl
  | some hvalue =>
    cases hvalue with
    | same => rfl
    | replies hreplies =>
      have hlive := hreplies.filter (p := fun reply => !isDeleted reply) (by simp) (by simp)
      rw [List.forall₂_eq_eq_eq] at hlive
      exact congrArg (List.map _) hlive

theorem ThinnedComment.same_comment (h : ThinnedComment comment comment') : SameComment comment comment' where
  content := by rw [h.field?_eq (by decide)]
  status := by rw [h.field?_eq (by decide)]
  replies := h.replyTexts_eq
  id := by rw [documentId?, documentId?, h.field?_eq (by decide)]
  target := by
    unfold Database.target
    rw [h.field?_eq (show "regarding" ≠ "replies" by decide), h.field?_eq (show "entryRef" ≠ "replies" by decide)]

theorem ThinnedComment.isDeleted_eq (h : ThinnedComment comment comment') :
    isDeleted comment = isDeleted comment' := by
  rw [isDeleted, isDeleted, h.field?_eq (by decide)]

end Comment

/-! Databases. -/

section Memory

variable {memory memory' : Memory} {database : String} (h : Purged database memory memory')

include h

theorem Purged.liveComments : List.Forall₂ SameComment
    (liveDocuments (memory.documents database commentsCollection))
    (liveDocuments (memory'.documents database commentsCollection)) := by
  have hlive := h.comments.filter (p := fun comment => !isDeleted comment)
    (fun comment hdeleted => by simp [hdeleted]) (fun comment comment' hthinned => by rw [hthinned.isDeleted_eq])
  exact hlive.imp fun _ _ hthinned => hthinned.same_comment

theorem Purged.liveEntries : liveDocuments (memory.documents database lexiconCollection) =
    liveDocuments (memory'.documents database lexiconCollection) := by
  have hlive := h.entries.filter (p := fun entry => !isDeleted entry) (fun entry hspare => by simp [hspare.1])
    (fun entry entry' heq => by rw [heq])
  rwa [List.forall₂_eq_eq_eq] at hlive

theorem Purged.interchangeable (expected : Node) : Interchangeable expected
    (memory.documents database commentsCollection) (memory.documents database lexiconCollection)
    (memory'.documents database lexiconCollection) where
  shared := by
    refine LexiconIndex.sharedWord?_ofDocuments_congr fun word => ?_
    rw [entriesOf, entriesOf, h.liveEntries]
  entries part _ _ entry _ record := by
    refine verifyEntry_congr (fun word => ?_) record entry
    rw [LexiconIndex.entry?_ofDocuments, LexiconIndex.entry?_ofDocuments, entriesOf, entriesOf, h.liveEntries]
  words comment hcomment id hid := by
    rw [LexiconIndex.wordOfId?_ofDocuments, LexiconIndex.wordOfId?_ofDocuments]
    refine congrArg List.getLast? (h.entries.filterMap (fun entry hspare => ?_) fun entry entry' heq => by rw [heq])
    exact if_neg (hspare.2 comment hcomment id hid)

end Memory

/--
Deleted comments, deleted replies and deleted entries at which no live comment points can be removed and inserted
anywhere, and in any number: every verification has the same result.
-/
theorem verify_purged {memory memory' : Memory} {database : String}
    (h : Relation.EqvGen (Purged database) memory memory') (expected : Node) :
    verify memory.store database expected = verify memory'.store database expected := by
  induction h with
  | rel memory memory' h => exact verify_eq (h.interchangeable expected) h.liveComments
  | refl => rfl
  | symm _ _ _ ih => exact ih.symm
  | trans _ _ _ _ _ ih ih' => exact ih.trans ih'

/-! A deleted entry, a deleted comment and a deleted reply beside live ones. -/

def staleComment : Json :=
  .object [("isDeleted", .bool true), ("content", .string "check")]

def staleReply : Json :=
  .object [("isDeleted", .bool true), ("content", .string "done")]

def sunThread (replies : List Json) : Json :=
  .object [("regarding", .object [("word", .string "sun"), ("meaning", .string "")]),
    ("content", .string "check"), ("replies", .array replies)]

def crowdedSky : Memory :=
  skyMemory [moonEntry, sunEntry] [staleComment, sunThread [.object [("content", .string "yes")], staleReply]]

def clearedSky : Memory :=
  skyMemory [sunEntry] [sunThread [.object [("content", .string "yes")]]]

theorem verify_crowdedSky :
    Relation.EqvGen (Purged "sf_demo") crowdedSky clearedSky ∧
      verify crowdedSky.store "sf_demo" (skyTree ["sun", "moon"]) = .error (.noteCount 2 1) := by
  have hthread : ThinnedComment (sunThread [.object [("content", .string "yes")], staleReply])
      (sunThread [.object [("content", .string "yes")]]) :=
    .object (.keep ⟨rfl, .same _ _⟩ (.keep ⟨rfl, .same _ _⟩
      (.keep ⟨rfl, .replies (.keep rfl (.leave rfl .nil))⟩ .nil)))
  have hunreferenced :
      Unreferenced [staleComment, sunThread [.object [("content", .string "yes")], staleReply]] moonEntry := by
    intro comment hcomment id hid
    cases List.mem_singleton.1 hcomment
    cases hid
  have hpurged : Relation.EqvGen (Purged "sf_demo") crowdedSky clearedSky :=
    .rel _ _ ⟨.leave rfl (.keep hthread .nil), .leave ⟨rfl, hunreferenced⟩ (.keep rfl .nil)⟩
  refine ⟨hpurged, ?_⟩
  rw [verify_purged hpurged]
  with_unfolding_all rfl

end LexiconAudit.Database
