import LexiconAudit.Database.Discrepancy
import LexiconAudit.Database.Document

/-!
This module contains the comparison of the elements of an expected entry with the fields of a stored one.
Fields and writing systems that are not expected do not matter.
-/

namespace LexiconAudit.Database

mutual

/--
The texts of an element by writing system: those of the outermost elements that name one.
-/
def systemTexts (node : Node) : List (String × String) :=
  match node with
  | ⟨name, attributes, text, children⟩ =>
    let node : Node := ⟨name, attributes, text, children⟩
    match node.attribute? Node.writingSystemKey with
    | some system => [(system, node.value)]
    | none => allSystemTexts children

def allSystemTexts : List Node → List (String × String)
  | [] => []
  | node :: nodes => systemTexts node ++ allSystemTexts nodes

end

def compareSystems (field : String) (record : Nat) (stored : Json) :
    List (String × String) → Except Discrepancy Unit
  | [] => .ok ()
  | (system, value) :: texts =>
    match ((stored.field? system).bind (·.field? "value")).bind Json.asString? with
    | none => .error (.systemMissing system field record)
    | some found =>
      if found = value then
        compareSystems field record stored texts
      else
        .error (.systemDiffers field system record value found)

/--
Compare an element with the field that it is about, `stored`. One without writing systems counts by its
text, if it has any.
-/
def compareText (field : String) (record : Nat) (expected : Node) (stored : Json) :
    Except Discrepancy Unit :=
  match systemTexts expected, expected.text with
  | [], some text =>
    if stored.asString? = some text then .ok () else .error (.valueDiffers field record)
  | [], none => .ok ()
  | texts, _ => compareSystems field record stored texts

def requireAbsence (field element : String) (record : Nat) (stored : Option Json) :
    Except Discrepancy Unit :=
  if stored.any isPopulated then .error (.fieldPresent field element record) else .ok ()

mutual

def compareField (record : Nat) (fields : List (String × Json)) (expected : Node) :
    Except Discrepancy Unit :=
  match expected with
  | ⟨name, attributes, text, children⟩ =>
    let expected : Node := ⟨name, attributes, text, children⟩
    let field := fieldName name
    let stored := fields.lookup field
    if expected.expectsAbsence then
      requireAbsence field name record stored
    else
      match stored with
      | none => .error (.fieldMissing field name record)
      | some stored =>
        if name = Node.sensesName then
          match stored with
          | .array senses =>
            let count := (expected.childrenNamed Node.senseName).length
            if senses.length = count then
              compareSenses record 0 senses children
            else
              .error (.senseCount record count senses.length)
          | _ => .error (.sensesNotList record)
        else
          compareText field record expected stored

/--
Compare the expected senses among `children` with stored ones, of which `index` have been used.
-/
def compareSenses (record index : Nat) (senses : List Json) : (children : List Node) → Except Discrepancy Unit
  | [] => .ok ()
  | ⟨name, _, _, parts⟩ :: children =>
    if name = Node.senseName then
      match senses with
      | [] => .ok ()
      | .object fields :: senses => do
        compareFields record fields parts
        compareSenses record (index + 1) senses children
      | _ :: _ => .error (.senseNotDocument index record)
    else
      compareSenses record index senses children

def compareFields (record : Nat) (fields : List (String × Json)) : List Node → Except Discrepancy Unit
  | [] => .ok ()
  | node :: nodes => do
    compareField record fields node
    compareFields record fields nodes

end

end LexiconAudit.Database
