/-!
This module contains the class of blank characters (the White_Space property) and the removal of blanks
from both ends of a text.
-/

namespace LexiconAudit.Text

/--
Whether `c` has the White_Space property.
-/
def isBlank (c : Char) : Bool :=
  let n := c.toNat
  (0x9 ≤ n && n ≤ 0xD) || n == 0x20 || n == 0x85 || n == 0xA0 || n == 0x1680
    || (0x2000 ≤ n && n ≤ 0x200A) || n == 0x2028 || n == 0x2029 || n == 0x202F || n == 0x205F
    || n == 0x3000

def trimEnd : List Char → List Char
  | [] => []
  | c :: cs =>
    match trimEnd cs with
    | [] => if isBlank c then [] else [c]
    | kept => c :: kept

def trim (cs : List Char) : List Char :=
  trimEnd (cs.dropWhile isBlank)

def allBlank (s : String) : Bool :=
  s.toList.all isBlank

end LexiconAudit.Text
