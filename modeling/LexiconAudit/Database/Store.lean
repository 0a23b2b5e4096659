import LexiconAudit.Files.Tree
import LexiconAudit.Json.Reader

/-!
This module contains document stores: whatever can answer all documents of a collection, in order. A
collection that does not exist is empty.
-/

namespace LexiconAudit.Database

inductive StoreFault where
  | unreadable (path : String) (fault : Files.Fault)
  | malformed (source : String) (line : Nat) (cause : Json.Cause)
  | holdsNul (path : String)
  | notText (path : String)
  | notInstalled (program : String)
  | commandFailed (command reason : String)
  deriving DecidableEq, Repr

def StoreFault.source : StoreFault → String
  | unreadable path _ => path
  | malformed source _ _ => source
  | holdsNul path => path
  | notText path => path
  | notInstalled program => program
  | commandFailed command _ => command

def StoreFault.message : StoreFault → String
  | unreadable path fault => s!"{path}: I/O error: {fault.message}"
  | malformed source line cause => s!"{source}: line {line}: parse error: {cause.message}"
  | holdsNul path => s!"{path}: corrupted dump: contains NUL byte(s)"
  | notText path => s!"{path}: corrupted dump: contains non-UTF-8 byte sequence(s)"
  | notInstalled program => s!"{program} is not installed or not on PATH"
  | commandFailed command reason => s!"\x60{command}\x60 failed: {reason}"

structure Store where
  findAll : (database collection : String) → Except StoreFault (List Json)

/--
The line of a text on which a reader stopped that left `unread`.
-/
def stopLine (text : String) (unread : List Char) : Nat :=
  1 + (text.toList.count '\n' - unread.count '\n')

def parseDocuments (text source : String) : Except StoreFault (List Json) :=
  match Json.parseStream text with
  | .ok documents => .ok documents
  | .error m => .error (.malformed source (stopLine text m.unread) m.cause)

end LexiconAudit.Database
