import LexiconAudit.Fixture.Fault
import LexiconAudit.Reading

/-!
This module contains the tokens that a reader of fixtures has still to read, and the steps that take
tokens off them. Comments are never seen by a step: those in front of a token are put aside when the token
is looked at, and wait there until they are used or dropped.
-/

namespace LexiconAudit.Fixture

open Text (Position)

structure Unread where
  tokens : List Token
  comments : List String := []
  stop : Position
  deriving Repr

instance : Source Unread where
  size u := u.tokens.length

@[simp]
theorem size_unread (u : Unread) : Source.size u = u.tokens.length := rfl

abbrev Reader := Reading Unread Rejection

/--
The comments in front of the first other token, and the tokens from there on.
-/
def leadingComments : List Token → List String × List Token
  | ⟨.comment body, _⟩ :: tokens =>
    let (bodies, rest) := leadingComments tokens
    (body :: bodies, rest)
  | tokens => ([], tokens)

theorem length_leadingComments_le (tokens : List Token) :
    (leadingComments tokens).2.length ≤ tokens.length := by
  fun_induction leadingComments tokens with
  | case1 _ _ tokens _ _ heq ih =>
    rw [heq] at ih
    exact Nat.le_succ_of_le ih
  | case2 => exact Nat.le_refl _

def Unread.settle (u : Unread) : Unread :=
  let (bodies, tokens) := leadingComments u.tokens
  { u with tokens, comments := u.comments ++ bodies }

theorem Unread.length_settle_le (u : Unread) : u.settle.tokens.length ≤ u.tokens.length :=
  length_leadingComments_le u.tokens

namespace Reader

variable {α : Type}

def next (atEnd : Fault := .unclosedArray) : Reader Token where
  run u :=
    match u.settle.tokens with
    | [] => .error ⟨atEnd, u.stop⟩
    | token :: tokens => .ok (token, { u.settle with tokens })
  size_le {u token v} h := by
    have := u.length_settle_le
    split at h
    . cases h
    . next heq =>
      cases h
      simp only [size_unread, heq, List.length_cons] at this ⊢
      omega

theorem strict_next (atEnd : Fault) : (next atEnd).Strict := by
  intro u token v h
  have := u.length_settle_le
  simp only [next] at h
  split at h
  . cases h
  . next heq =>
    cases h
    simp only [size_unread, heq, List.length_cons] at this ⊢
    omega

def front : Reader Token where
  run u :=
    match u.settle.tokens with
    | [] => .error ⟨.unclosedArray, u.stop⟩
    | token :: _ => .ok (token, u.settle)
  size_le {u token v} h := by
    split at h
    . cases h
    . cases h
      exact u.length_settle_le

def finish : Reader Unit where
  run u :=
    match u.settle.tokens with
    | [] => .ok ((), u.settle)
    | token :: _ => .error ⟨.trailingContent, token.position⟩
  size_le {u a v} h := by
    split at h
    . cases h
      exact u.length_settle_le
    . cases h

def reject (token : Token) (fault : Fault) : Reader α :=
  Reading.fail ⟨fault, token.position⟩

def unexpected (wanted : String) (token : Token) : Reader α :=
  reject token (.unexpected wanted token.kind)

def expect (kind : Kind) (wanted : String) : Reader Token := do
  let token ← next
  if token.kind = kind then return token else unexpected wanted token

def expectString (owner : String) : Reader String := do
  let token ← next
  match token.kind with
  | .string value => return value
  | _ => unexpected s!"a string for {owner}" token

def takeComments : Reader (List String) where
  run u := .ok (u.comments, { u with comments := [] })
  size_le h := by
    cases h
    exact Nat.le_refl _

def dropComments : Reader Unit := do
  let _ ← takeComments

structure Key where
  name : String
  token : Token

def membersRound (member : Key → α → Reader α) (a : α) : Reader (Reading.Round α α) := do
  let token ← next
  match token.kind with
  | .rightBrace => return .done a
  | .string name | .word name =>
    let _ ← expect .colon "':'"
    let a ← member ⟨name, token⟩ a
    let token ← next
    match token.kind with
    | .comma => return .again a
    | .rightBrace => return .done a
    | _ => unexpected "',' or '\x7d'" token
  | _ => unexpected "a property name or '\x7d'" token

def members (member : Key → α → Reader α) (a : α) : Reader α :=
  Reading.loop (membersRound member) (fun _ => ((strict_next _).bind_left _).advances) a

def itemsRound (item : α → Reader α) (a : α) : Reader (Reading.Round α α) := do
  let token ← front
  if token.kind = .rightBracket then
    let _ ← next
    return .done a
  else
    let a ← item a
    let token ← next
    match token.kind with
    | .comma => return .again a
    | .rightBracket => return .done a
    | _ => unexpected "',' or ']'" token

theorem strict_itemsRound (item : α → Reader α) (a : α) : (itemsRound item a).Strict := by
  refine Reading.Strict.bind_right _ fun token => ?_
  split
  . exact (strict_next _).bind_left _
  . exact Reading.Strict.bind_right _ fun _ => (strict_next _).bind_left _

def foldItems (item : α → Reader α) (a : α) : Reader α :=
  Reading.loop (itemsRound item) (fun a => (strict_itemsRound item a).advances) a

def items (item : Reader α) : Reader (List α) :=
  foldItems (fun as => do return as ++ [← item]) []

end Reader

end LexiconAudit.Fixture
