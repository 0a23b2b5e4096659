import LexiconAudit.Database.Comment
import LexiconAudit.Database.Thread

/-!
This module contains the matching of expected notes with stored comments. A note takes the one comment that
is about the same word and has the same text; then status and replies are compared. Replies behind those
that are expected do not matter.
-/

namespace LexiconAudit.Database

structure OpenComment where
  key : String
  comment : Json
  deriving Repr

def replyTexts (comment : Json) : List String :=
  let replies := ((comment.field? "replies").bind Json.asArray?).getD []
  (replies.filter fun reply => !isDeleted reply).map fun reply =>
    ((reply.field? "content").bind Json.asString?).getD ""

/--
Compare expected replies with stored ones, of which `index` have been used.
-/
def compareReplies (key : String) (record index : Nat) :
    (expected found : List String) → Except Discrepancy Unit
  | text :: texts, other :: others =>
    if text = other then
      compareReplies key record (index + 1) texts others
    else
      .error (.replyDiffers index key record text other)
  | _, _ => .ok ()

def compareStatus (key : String) (record : Nat) (comment : Json) : Option String → Except Discrepancy Unit
  | none => .ok ()
  | some expected =>
    let found := normalStatus (((comment.field? "status").bind Json.asString?).getD "")
    if found = expected then .ok () else .error (.statusDiffers key record expected found)

def compareThread (key : String) (record : Nat) (comment : Json) (thread : Thread) :
    Except Discrepancy Unit := do
  compareStatus key record comment thread.status
  let found := replyTexts comment
  if found.length < thread.replies.length then
    .error (.replyCount key record thread.replies.length found.length)
  else
    compareReplies key record 0 thread.replies found

def OpenComment.fits (key : String) (content : Option String) (c : OpenComment) : Bool :=
  c.key = key &&
    match content with
    | none => true
    | some content => (c.comment.field? "content").bind Json.asString? = some content

def takeOnly {α : Type} (p : α → Bool) : List α → Option (α × List α)
  | [] => none
  | x :: xs =>
    if p x then
      if xs.any p then none else some (x, xs)
    else
      (takeOnly p xs).map fun (found, rest) => (found, x :: rest)

/--
Match an expected note, the `record`-th of its section. The answer is the comments still open.
-/
def matchNote (record : Nat) (note : Node) (comments : List OpenComment) :
    Except Discrepancy (List OpenComment) :=
  match note.targetKey? with
  | none => .error (.noteWithoutReference record)
  | some key =>
    let thread := Thread.ofMessages? ((note.childrenNamed Node.messageName).map Message.ofNode)
    let content := thread.map Thread.content
    match takeOnly (OpenComment.fits key content) comments with
    | some (found, rest) => do
      if let some thread := thread then
        compareThread key record found.comment thread
      return rest
    | none =>
      if comments.any (OpenComment.fits key content) then
        .error (.noteAmbiguous key (content.getD "") record)
      else if comments.any (OpenComment.fits key none) then
        .error (.noteWithContentMissing key (content.getD "") record)
      else
        .error (.noteMissing key record)

def matchNotes (record : Nat) : (notes : List Node) → List OpenComment → Except Discrepancy Unit
  | [], _ => .ok ()
  | note :: notes, comments => do
    matchNotes (record + 1) notes (← matchNote record note comments)

end LexiconAudit.Database
