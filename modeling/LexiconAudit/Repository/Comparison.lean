import LexiconAudit.Node.Vocabulary
import LexiconAudit.Repository.Discrepancy

/-!
This module contains the comparison of an expected element with the stored one that it was matched to. The
stored element may hold more than is expected. Messages are compared position by position, every other
child with the first stored child of its name.
-/

namespace LexiconAudit.Repository

/--
Compare the expected attributes with those of the stored element. A reference has to contain the expected
value, any other attribute has to equal it; the mark of absence is about the element itself.
-/
def compareAttributes (element : String) (record : Nat) (stored : Node) :
    List (String × String) → Except Discrepancy Unit
  | [] => .ok ()
  | (name, value) :: attributes =>
    if name = Node.absenceKey then
      compareAttributes element record stored attributes
    else
      match stored.attribute? name with
      | none => .error (.attributeMissing name element record)
      | some found =>
        if name = Node.referenceKey then
          if Text.occurs value.toList found.toList then
            compareAttributes element record stored attributes
          else
            .error (.referenceDiffers name element record)
        else if found = value then
          compareAttributes element record stored attributes
        else
          .error (.attributeDiffers name element record)

mutual

def compare (record : Nat) (expected stored : Node) : Except Discrepancy Unit :=
  match expected with
  | ⟨name, attributes, text, children⟩ => do
    compareAttributes name record stored attributes
    if children.isEmpty then
      if stored.value = text.getD "" then
        .ok ()
      else
        .error (.valueDiffers name record)
    else
      compareChildren name record stored false children

/--
Compare expected children with those of the stored element. All messages are compared where the first of
them stands; `messagesDone` says that this has happened.
-/
def compareChildren (parent : String) (record : Nat) (stored : Node) (messagesDone : Bool) :
    List Node → Except Discrepancy Unit
  | [] => .ok ()
  | child :: children =>
    if child.name = Node.messageName then do
      if !messagesDone then
        match stored.childrenNamed Node.messageName with
        | [] => .error (.messageMissing 0 parent record)
        | message :: messages => do
          compare record child message
          compareMessages parent record 1 messages children
      compareChildren parent record stored true children
    else do
      match stored.child? child.name with
      | some found =>
        if child.expectsAbsence then
          .error (.elementPresent child.name parent record)
        else
          compare record child found
      | none =>
        if child.expectsAbsence then
          .ok ()
        else
          .error (.elementMissing child.name parent record)
      compareChildren parent record stored messagesDone children

def compareMessages (parent : String) (record index : Nat) (messages : List Node) :
    List Node → Except Discrepancy Unit
  | [] => .ok ()
  | child :: children =>
    if child.name = Node.messageName then
      match messages with
      | [] => .error (.messageMissing index parent record)
      | message :: messages => do
        compare record child message
        compareMessages parent record (index + 1) messages children
    else
      compareMessages parent record index messages children

end

end LexiconAudit.Repository
