import LexiconAudit.Node.Basic

/-!
This module contains the written form of a tree as markup: on one line, or indented with one element per
line. An element with children is written with its children alone, one without children with its text.
-/

namespace LexiconAudit.Node

/--
A character of a text: the three that delimit markup are named.
-/
def escapedChar : Char → List Char
  | '&' => "&amp;".toList
  | '<' => "&lt;".toList
  | '>' => "&gt;".toList
  | c => [c]

/--
A character of an attribute value: the quote that ends the value is named as well.
-/
def escapedQuotedChar (c : Char) : List Char :=
  if c = '"' then "&quot;".toList else escapedChar c

def escapedText (s : String) : List Char :=
  s.toList.flatMap escapedChar

def escapedValue (s : String) : List Char :=
  s.toList.flatMap escapedQuotedChar

def attributeMarkup : String × String → List Char
  | (name, value) => ' ' :: name.toList ++ '=' :: '"' :: escapedValue value ++ ['"']

def attributesMarkup (attributes : List (String × String)) : List Char :=
  attributes.flatMap attributeMarkup

def startTag (name : String) (attributes : List (String × String)) : List Char :=
  '<' :: name.toList ++ attributesMarkup attributes ++ ['>']

def endTag (name : String) : List Char :=
  '<' :: '/' :: name.toList ++ ['>']

def leafMarkup (name : String) (attributes : List (String × String)) : Option String → List Char
  | none => '<' :: name.toList ++ attributesMarkup attributes ++ " />".toList
  | some text => startTag name attributes ++ escapedText text ++ endTag name

inductive Layout where
  | compact
  | indented

def Layout.indent : Layout → (depth : Nat) → List Char
  | .compact, _ => []
  | .indented, depth => List.replicate (2 * depth) ' '

def Layout.lineEnd : Layout → List Char
  | .compact => []
  | .indented => ['\n']

mutual

def markup (layout : Layout) (depth : Nat) : Node → List Char
  | ⟨name, attributes, text, children⟩ =>
    layout.indent depth ++
      if children.isEmpty then
        leafMarkup name attributes text
      else
        startTag name attributes ++ markups layout (depth + 1) children
          ++ layout.lineEnd ++ layout.indent depth ++ endTag name

def markups (layout : Layout) (depth : Nat) : List Node → List Char
  | [] => []
  | node :: nodes => layout.lineEnd ++ markup layout depth node ++ markups layout depth nodes

end

def toXml (node : Node) : String :=
  String.ofList (markup .compact 0 node)

def toXmlPretty (node : Node) : String :=
  String.ofList (markup .indented 0 node)

end LexiconAudit.Node
