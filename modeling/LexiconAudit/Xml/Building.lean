import LexiconAudit.Node.Basic
import LexiconAudit.Text.Blank
import LexiconAudit.Xml.Markup

/-!
This module contains the tree under construction while a document is read: the elements that are open, with
what they hold so far and the namespaces in scope. Elements with other elements in them keep only those;
all others keep their text.
-/

namespace LexiconAudit.Xml

abbrev Scope := List (List Char × List Char)

def xmlNamespace : List Char := "http://www.w3.org/XML/1998/namespace".toList

def declaringNamespace : List Char := "http://www.w3.org/2000/xmlns/".toList

structure OpenElement where
  name : QName
  attributes : List (String × String)
  scope : Scope
  children : List Node := []
  text : List Char := []
  deriving Repr

/--
The element, once it is closed. A text of blanks counts as none.
-/
def OpenElement.toNode (e : OpenElement) : Node :=
  let name := String.ofList e.name.base
  if e.children.isEmpty then
    { name, attributes := e.attributes, text := some (if e.text.all Text.isBlank then "" else String.ofList e.text) }
  else
    { name, attributes := e.attributes, children := e.children }

structure Building where
  /-- The open elements, the innermost first. -/
  stack : List OpenElement := []
  roots : List Node := []
  /-- The attributes of a tag that no element has taken yet. -/
  attributes : List (QName × List Char) := []
  /-- The namespaces that such a tag declares. -/
  declared : Scope := []
  /-- Whether a tag that opens an element has been read in the text of the current entity. -/
  tagSeen : Bool := false
  /-- How many references the text of entities has resolved since the last reference outside of it. -/
  references : Nat := 0
  deriving Repr

namespace Building

def addNode (b : Building) (node : Node) : Building :=
  match b.stack with
  | [] => { b with roots := b.roots ++ [node] }
  | e :: stack => { b with stack := { e with children := e.children ++ [node] } :: stack }

def addText (b : Building) (text : List Char) : Building :=
  match b.stack with
  | [] => b
  | e :: stack => { b with stack := { e with text := e.text ++ text } :: stack }

def addAttribute? (b : Building) (name : QName) (value : List Char) : Option Building :=
  if name.qualifier = "xmlns".toList then
    let reserved := value = xmlNamespace
    if value = declaringNamespace ∨ (name.base = "xml".toList) ≠ reserved
        ∨ b.declared.any (·.1 = name.base) then
      none
    else if reserved then
      some b
    else
      some { b with declared := b.declared ++ [(name.base, value)] }
  else if name.base = "xmlns".toList then
    if value = xmlNamespace ∨ value = declaringNamespace then
      none
    else
      some { b with declared := b.declared ++ [([], value)] }
  else
    some { b with attributes := b.attributes ++ [(name, value)] }

/--
The namespaces in scope for the tag at hand: its own, and those around it that it does not declare anew.
-/
def scope (b : Building) : Scope :=
  let around :=
    match b.stack with
    | [] => []
    | e :: _ => e.scope
  b.declared ++ around.filter fun (name, _) => !b.declared.any (·.1 = name)

/--
The namespace of an attribute: none without a qualifier. A qualifier has to be in scope.
-/
def attributeNamespace? (scope : Scope) (qualifier : List Char) : Option (Option (List Char)) :=
  if qualifier = "xml".toList then some (some xmlNamespace)
  else if qualifier.isEmpty then some none
  else (scope.lookup qualifier).map some

/--
The attributes of an element under their names without qualifiers, if no two are the same in the same
namespace. Of two with one name the last counts, at the place of the first.
-/
def resolve? (scope : Scope) (attributes : List (QName × List Char)) : Option (List (String × String)) := do
  let keys ← attributes.mapM fun (name, _) => do
    return (← attributeNamespace? scope name.qualifier, name.base)
  if keys.Nodup then
    return attributes.foldl
      (fun set (name, value) => Keyed.set (String.ofList name.base) (String.ofList value) set) []
  else
    none

def element? (b : Building) (name : QName) : Option OpenElement := do
  let scope := b.scope
  let attributes ← resolve? scope b.attributes
  if name.qualifier.isEmpty || scope.any (·.1 = name.qualifier) then
    return { name, attributes, scope }
  else
    none

def endTag (b : Building) : Building :=
  { b with attributes := [], declared := [] }

def openElement? (b : Building) (name : QName) : TagEnd → Option Building
  | .cut => some b
  | .opened => (b.element? name).map fun e => { b.endTag with stack := e :: b.stack }
  | .closed => (b.element? name).map fun e => b.endTag.addNode e.toNode

def closeElement? (b : Building) (name : QName) : Option Building :=
  match b.stack with
  | [] => none
  | e :: stack =>
    if b.tagSeen ∧ e.name = name ∧ (resolve? b.scope b.attributes).isSome then
      some ({ b.endTag with stack }.addNode e.toNode)
    else
      none

end Building

end LexiconAudit.Xml
