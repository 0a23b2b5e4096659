import LexiconAudit.Xml.Building
import LexiconAudit.Xml.Prolog

/-!
This module contains the logic to read the content of elements, with the references in it resolved. A
reference to an entity stands for the text of the entity, which is read as content in turn, or as part of
an attribute value; it may not resolve too many references within each other, so it cannot hold itself.
-/

namespace LexiconAudit.Xml

def maxNesting : Nat := 10

def maxReferences : Nat := 255

/-! Attribute values. -/

/--
A character as it counts in an attribute value: line ends and tabs are blanks.
-/
def valueChar (c : Char) : Char :=
  if c = '\n' ∨ c = '\r' ∨ c = '\t' then ' ' else c

/--
How many references have been resolved after one more, where `nested` says whether it is itself in the text
of an entity.
-/
def countReference? (nested : Bool) (references : Nat) : Option Nat :=
  if !nested then some references
  else if references < maxReferences then some (references + 1)
  else none

def valueWith (entities : Entities) (expand : Nat → List Char → Option (List Char × Nat)) (nested : Bool)
    (references : Nat) (cs : List Char) : Option (List Char × Nat) :=
  match cs with
  | [] => some ([], references)
  | '\r' :: '\n' :: cs => valueWith entities expand nested references ('\n' :: cs)
  | '&' :: cs =>
    match hrun : Scan.reference.run cs with
    | .error _ => none
    | .ok (.char c, rest) =>
      have := Scan.reference.size_le hrun
      if nested ∧ c = '<' then
        none
      else do
        let (value, references) ← valueWith entities expand nested references rest
        return ((if nested then valueChar c else c) :: value, references)
    | .ok (.entity name, rest) =>
      have := Scan.reference.size_le hrun
      do
        let body ← entities.lookup name
        let references ← countReference? nested references
        let (first, references) ← expand references body
        let (value, references) ← valueWith entities expand nested (if nested then references else 0) rest
        return (first ++ value, references)
  | c :: cs => do
    let (value, references) ← valueWith entities expand nested references cs
    return (valueChar c :: value, references)
termination_by cs.length
decreasing_by all_goals simp only [List.length_cons, Source.size_list] at *; omega

/--
The value that is written as `cs`, inside `maxNesting - level` entities.
-/
def value (entities : Entities) : (level references : Nat) → List Char → Option (List Char × Nat)
  | 0 => valueWith entities (fun _ _ => none) true
  | level + 1 => valueWith entities (value entities level) (level + 1 < maxNesting)

/-! Text. -/

abbrev Reversed := List Char

/--
Add a character to a text. A line end is one character, however it is written: `atEnd` says that the
character is the last of its run.
-/
def pushLine (text : Reversed) (c : Char) (atEnd : Bool) : Reversed :=
  match text with
  | '\r' :: text =>
    if atEnd ∧ c = '\r' then '\n' :: '\n' :: text
    else if c = '\n' then '\n' :: text
    else c :: '\n' :: text
  | text => if atEnd ∧ c = '\r' then '\n' :: text else c :: text

def markedText (run : List Char) : List Char :=
  (go [] run).reverse
where
  go (text : Reversed) : List Char → Reversed
    | [] => text
    | c :: cs => go (pushLine text c cs.isEmpty) cs

/--
Add a run of text to the innermost open element. `expand` reads the text of an entity as content; `nested`
says whether the run is itself in such a text. A character given by its code is kept as it is, together
with the one behind it.
-/
def textWith (entities : Entities) (expand : Building → List Char → Option Building) (nested : Bool)
    (b : Building) (text : Reversed) (exact : Bool) (cs : List Char) : Option Building :=
  match cs with
  | [] => some (b.addText text.reverse)
  | '&' :: cs =>
    match hrun : Scan.reference.run cs with
    | .error _ => none
    | .ok (.char c, rest) =>
      have := Scan.reference.size_le hrun
      if nested then
        textWith entities expand nested b (pushLine text c rest.isEmpty) exact rest
      else
        textWith entities expand nested b (c :: text) true rest
    | .ok (.entity name, rest) =>
      have := Scan.reference.size_le hrun
      do
        let body ← entities.lookup name
        let references ← countReference? nested b.references
        let b := b.addText text.reverse
        let inner ← expand { b with references, tagSeen := false } body
        textWith entities expand nested
          { inner with tagSeen := b.tagSeen, references := if nested then inner.references else 0 } [] false
          rest
  | c :: cs =>
    textWith entities expand nested b (if exact then c :: text else pushLine text c cs.isEmpty) false cs
termination_by cs.length
decreasing_by all_goals simp only [List.length_cons, Source.size_list] at *; omega

/-! Content. -/

def openTag? (value : (references : Nat) → List Char → Option (List Char × Nat)) (b : Building)
    (tag : Tag) : Option Building := do
  if tag.name.qualifier = "xmlns".toList then
    none
  else
    let b ← tag.attributes.foldlM (fun b (name, written) => do
      let (value, references) ← value b.references written
      { b with references }.addAttribute? name value) { b with tagSeen := true }
    b.openElement? tag.name tag.ending

def contentWith (text : Building → List Char → Option Building)
    (value : (references : Nat) → List Char → Option (List Char × Nat)) (depth : Nat) (b : Building)
    (cs : List Char) : Option (Building × List Char) :=
  match cs with
  | [] => some (b, [])
  | c :: cs =>
    match hrun : Scan.piece.run (c :: cs) with
    | .error _ => none
    | .ok (piece, rest) =>
      have := Scan.strict_piece hrun
      match piece with
      | .aside => contentWith text value depth b rest
      | .marked run => contentWith text value depth (b.addText (markedText run)) rest
      | .text run => do contentWith text value depth (← text b run) rest
      | .tag tag => do
        let b ← openTag? value b tag
        contentWith text value (if tag.ending = .opened then depth + 1 else depth) b rest
      | .endTag name => do
        let b ← b.closeElement? name
        match depth with
        | 0 => some (b, rest)
        | depth + 1 => contentWith text value depth b rest
termination_by cs.length
decreasing_by all_goals exact this

/--
Read content inside `maxNesting - level` entities.
-/
def content (entities : Entities) (level : Nat) : Building → List Char → Option (Building × List Char) :=
  let expand : Building → List Char → Option Building :=
    match level with
    | 0 => fun _ _ => none
    | level + 1 => fun b body => (content entities level b body).map Prod.fst
  contentWith (fun b run => textWith entities expand (level < maxNesting) b [] false run)
    (value entities level) 0

end LexiconAudit.Xml
