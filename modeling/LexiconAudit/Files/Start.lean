import LexiconAudit.Files.Tree

/-!
This module contains the start of a program: one that is installed, or one that is among the files.
-/

namespace LexiconAudit.Files

def argumentLimit : Nat := 131072

namespace Tree

/--
What is started by a name without a slash. Every directory that is searched for it has itself and the one around it
to offer too, and they cannot be started.
-/
def findInstalled (tree : Tree) (name : String) : Except Fault Content :=
  if nameLimit < name.utf8ByteSize then .error .nameTooLong
  else if name = "." ∨ name = ".." then .error .permissionDenied
  else if name.isEmpty then .error .notFound
  else
    match tree.installed.lookup name with
    | some content => .ok content
    | none => .error .notFound

def findExecutable (tree : Tree) (path : String) : Except Fault Content := do
  match ← tree.find path with
  | (_, .file content true) => .ok content
  | (_, .file _ false) => .error .permissionDenied
  | (_, .directory _) => .error .permissionDenied

def start (tree : Tree) (program : String) (arguments : List String) : Except Fault Program := do
  if (program :: arguments).any fun text => text.toList.contains '\x00' then
    .error .argumentHoldsNul
  else
    let content ←
      if program.toList.contains '/' then tree.findExecutable program else tree.findInstalled program
    if arguments.any fun argument => argumentLimit ≤ argument.utf8ByteSize then
      .error .argumentsTooLong
    else
      match content with
      | .script _ run => .ok (run arguments)
      | .plain _ => .error .notAProgram

end Tree

end LexiconAudit.Files
