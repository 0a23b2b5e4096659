/-!
This module contains the two normal forms of a text that lookup and messages use.
-/

namespace LexiconAudit.Text

/--
`cs` without blanks, tabs and line ends: the form in which written elements are searched for, so that the
layout of a file does not matter.
-/
def stripLayout (cs : List Char) : List Char :=
  cs.filter fun c => c ≠ ' ' ∧ c ≠ '\t' ∧ c ≠ '\r' ∧ c ≠ '\n'

def onOneLine (s : String) : String :=
  String.ofList (s.toList.filter fun c => c ≠ '\t' ∧ c ≠ '\r' ∧ c ≠ '\n')

end LexiconAudit.Text
