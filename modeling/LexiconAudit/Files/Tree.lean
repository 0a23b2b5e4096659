import LexiconAudit.Files.Entry
import LexiconAudit.Files.Fault
import LexiconAudit.Files.Path

/-!
This module contains the files that a run can see, as a tree, and what happens when a path is followed, read
or listed.
-/

namespace LexiconAudit.Files

/--
Everything there is. The directories that places start from are always there; those with something inside
are listed, by the base of the places in them.
-/
structure Tree where
  tops : List (Option Nat × Directory) := []
  installed : List (String × Content) := []
  deriving Inhabited

/--
Refuse a path that cannot be followed at all, because it holds a zero character or is too long.
-/
def checkPath (path : String) : Except Fault Unit :=
  if path.toList.contains '\x00' then .error .nameHoldsNul
  else if pathLimit ≤ path.utf8ByteSize then .error .nameTooLong
  else .ok ()

namespace Tree

def top (tree : Tree) (base? : Option Nat) : Directory :=
  (tree.tops.lookup base?).getD []

def get? (tree : Tree) (place : Place) : Option Entry :=
  (Entry.directory (tree.top place.base?)).get? place.names

def look (tree : Tree) (here : Place) (segment : String) : Except Fault (Place × Entry) :=
  if isName segment ∧ nameLimit < segment.utf8ByteSize then
    .error .nameTooLong
  else
    match tree.get? (here.next segment) with
    | none => .error .notFound
    | some entry => .ok (here.next segment, entry)

def follow (tree : Tree) : Place × Entry → List String → Except Fault (Place × Entry)
  | here, [] => .ok here
  | (here, .directory _), segment :: segments => do follow tree (← tree.look here segment) segments
  | (_, .file ..), _ :: _ => .error .notADirectory

def find (tree : Tree) (path : String) : Except Fault (Place × Entry) := do
  checkPath path
  if path.isEmpty then
    .error .notFound
  else
    tree.follow (origin path, .directory (tree.top (origin path).base?)) (segments path)

def pathExists (tree : Tree) (path : String) : Bool :=
  (tree.find path).toBool

def isFile (tree : Tree) (path : String) : Bool :=
  match tree.find path with
  | .ok (_, .file ..) => true
  | _ => false

def readBytes (tree : Tree) (path : String) : Except Fault (List UInt8) := do
  match ← tree.find path with
  | (_, .file content _) => .ok content.read
  | (_, .directory _) => .error .isADirectory

def readText (tree : Tree) (path : String) : Except Fault String := do
  match Text.Utf8.decode? (← tree.readBytes path) with
  | some text => .ok text
  | none => .error .notText

def list (tree : Tree) (path : String) : Except Fault (List String) := do
  match ← tree.find path with
  | (_, .directory inside) => .ok (inside.map Prod.fst)
  | (_, .file ..) => .error .notADirectory

end Tree

end LexiconAudit.Files
