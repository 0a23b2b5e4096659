import LexiconAudit.Files.Tree

/-!
This module contains the changes to a tree of files: writing a file, making a directory, and removing what
is at the end of a path.
-/

namespace LexiconAudit.Files.Tree

def change (tree : Tree) (directory : Place) (f : Directory → Directory) : Tree :=
  { tree with
    tops := Keyed.alter directory.base?
      (fun top? => Directory.change f directory.names (top?.getD [])) tree.tops }

def put (tree : Tree) (directory : Place) (name : String) (entry : Entry) : Tree :=
  tree.change directory (Keyed.set name entry)

def erase (tree : Tree) (place : Place) : Tree :=
  match place.names.getLast? with
  | none => tree
  | some name => tree.change place.around fun inside => inside.filter fun (other, _) => other ≠ name

/--
Follow the parts of a path, all of which lead to directories, and make the directories that are missing.
-/
def makeWay (tree : Tree) (here : Place) : List String → Except Fault (Tree × Place)
  | [] => .ok (tree, here)
  | segment :: segments =>
    match tree.look here segment with
    | .ok (there, .directory _) => makeWay tree there segments
    | .ok (_, .file ..) => .error .notADirectory
    | .error .notFound => makeWay (tree.put here segment (.directory [])) (here.inside segment) segments
    | .error fault => .error fault

def makeDirectory (tree : Tree) (path : String) : Except Fault Tree := do
  checkPath path
  return (← tree.makeWay (origin path) (segments path)).1

/--
Write a file at the end of a path, and make the directories on the way. Unless the permission to start the
file is given or taken, a new file lacks it and an old one keeps what it had.
-/
def write (tree : Tree) (path : String) (content : Content) (executable? : Option Bool := none) :
    Except Fault Tree := do
  checkPath path
  let name := (segments path).getLast?.getD ""
  let (tree, here) ← tree.makeWay (origin path) (segments path).dropLast
  match tree.look here name with
  | .ok (_, .file _ executable) => .ok (tree.put here name (.file content (executable?.getD executable)))
  | .ok (_, .directory _) => .error .isADirectory
  | .error .notFound => .ok (tree.put here name (.file content (executable?.getD false)))
  | .error fault => .error fault

/--
Remove what is at the end of a path, if there is something. A directory is emptied first. Then it is removed
itself, if the path ends with its name and still leads to it: the way may have been through what was in it.
-/
def remove (tree : Tree) (path : String) : Tree :=
  match tree.find path with
  | .error _ => tree
  | .ok (place, .file ..) => tree.erase place
  | .ok (place, .directory _) =>
    let emptied := tree.change place fun _ => []
    if endsWithName path ∧ emptied.pathExists path then emptied.erase place else emptied

end LexiconAudit.Files.Tree
