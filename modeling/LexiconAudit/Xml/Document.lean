import LexiconAudit.Xml.Content

/-!
This module contains the logic to read a document into the tree of its root element. Names lose their
qualifiers. A document without faults has exactly one root element.
-/

namespace LexiconAudit.Xml

def root (entities : Entities) (cs : List Char) : Option (Building × List Char) :=
  match Scan.tag.run cs with
  | .error _ => none
  | .ok (tag, rest) => do
    let b ← openTag? (value entities maxNesting) {} tag
    if tag.ending = .opened then content entities maxNesting b rest else some (b, rest)

def parse (text : String) : Option Node :=
  match Scan.prolog.run text.toList with
  | .ok (entities, '<' :: cs) =>
    match root entities cs with
    | some (b, rest) =>
      match (do Scan.asides; Text.Scanner.finish : Text.Scanner Unit).run rest with
      | .ok _ => if b.stack.isEmpty then b.roots.head? else none
      | .error _ => none
    | none => none
  | _ => none

end LexiconAudit.Xml
