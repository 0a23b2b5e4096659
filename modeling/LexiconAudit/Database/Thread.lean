import LexiconAudit.Node.Vocabulary

/-!
This module contains the folding of a note into the comment that it becomes: the first message is the
comment, later messages with a text are its replies, and the last status that any message gives is the
status of the whole.
-/

namespace LexiconAudit.Database

structure Message where
  status : Option String := none
  content : String
  deriving DecidableEq, Repr

def Message.ofNode (node : Node) : Message :=
  { status := node.attribute? Node.statusKey, content := node.value }

structure Thread where
  content : String
  status : Option String
  replies : List String
  deriving DecidableEq, Repr

/--
A status as it counts: an empty one means open.
-/
def normalStatus (status : String) : String :=
  if status.isEmpty then "open" else status

/--
The last status that a message gives, as it counts.
-/
def finalStatus (messages : List Message) : Option String :=
  (messages.reverse.findSome? Message.status).map normalStatus

def Thread.ofMessages? : List Message → Option Thread
  | [] => none
  | head :: rest => some {
      content := head.content
      status := finalStatus (head :: rest)
      replies := (rest.map Message.content).filter fun content => !content.isEmpty }

end LexiconAudit.Database
