import LexiconAudit.Keyed

/-!
This module contains the tree that expected and stored lexicon data is compared in: elements with a name,
attributes, a text and children. A well-made element is either a leaf with a text or a container with
children; a container may also carry nothing at all.
-/

namespace LexiconAudit

structure Node where
  name : String
  attributes : List (String × String) := []
  text : Option String := none
  children : List Node := []
  deriving Repr, Inhabited

namespace Node

/--
Set an attribute; its place is that of its first setting.
-/
def setAttribute (node : Node) (name value : String) : Node :=
  { node with attributes := Keyed.set name value node.attributes }

def addChild (node : Node) (child : Node) : Node :=
  { node with children := node.children ++ [child] }

def addChildren (node : Node) (children : List Node) : Node :=
  { node with children := node.children ++ children }

def setText (node : Node) (text : String) : Node :=
  { node with text := some text }

def leaf (name text : String) : Node :=
  { name, text := some text }

def attribute? (node : Node) (name : String) : Option String :=
  node.attributes.lookup name

def hasAttributes (node : Node) : Bool :=
  !node.attributes.isEmpty

def hasChildren (node : Node) : Bool :=
  !node.children.isEmpty

def child? (node : Node) (name : String) : Option Node :=
  node.children.find? fun child => child.name = name

def childrenNamed (node : Node) (name : String) : List Node :=
  node.children.filter fun child => child.name = name

def descend? (node : Node) : (path : List String) → Option Node
  | [] => some node
  | name :: path => (node.child? name).bind fun child => child.descend? path

mutual

/--
The text of the element and of all elements below it, in document order.
-/
def value (node : Node) : String :=
  match node with
  | { text, children, .. } => text.getD "" ++ values children

def values : List Node → String
  | [] => ""
  | node :: nodes => node.value ++ values nodes

end

theorem value_eq (node : Node) : node.value = node.text.getD "" ++ values node.children := by
  cases node
  rw [value]

end Node

end LexiconAudit
