import LexiconAudit.Node.Vocabulary
import LexiconAudit.Text.Blank
import LexiconAudit.Text.Case

/-!
This module contains the comments that say that a field must not be there: `no`, blanks, and the name of
the field up to the next blank.
-/

namespace LexiconAudit.Fixture

open Text (isBlank)

def absentField? (body : String) : Option String :=
  match body.toList with
  | 'n' :: 'o' :: c :: cs =>
    if isBlank c then
      match (cs.dropWhile isBlank).takeWhile (!isBlank ·) with
      | [] => none
      | field => some (String.ofList field)
    else
      none
  | _ => none

/--
The markers that comments stand for, in order. A marker bears the name of an element: that of the field
with its first letter in upper case.
-/
def markers (comments : List String) : List Node :=
  comments.filterMap fun body => (absentField? body).map fun field => Node.absent (Text.upperFirst field)

theorem markers_append (bodies bodies' : List String) :
    markers (bodies ++ bodies') = markers bodies ++ markers bodies' :=
  List.filterMap_append

end LexiconAudit.Fixture
