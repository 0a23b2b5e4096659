import LexiconAudit.Text.Digit
import LexiconAudit.Text.Search

/-!
This module contains the numbers of TOML: whole numbers in four bases, and fractions. Of a fraction only the
form counts, and that a positive one is not too large for a double.
-/

namespace LexiconAudit.Toml

open Text (isDigit)

/--
The digits of a number. An underscore may stand between any two of them.
-/
def digits? (base : Nat) : List Char → Option (List Char)
  | [] => none
  | [c] => if isDigit base c then some [c] else none
  | c :: '_' :: cs => if isDigit base c then (digits? base cs).map (c :: ·) else none
  | c :: cs => if isDigit base c then (digits? base cs).map (c :: ·) else none

/--
The digits of a whole number in base ten. Only zero itself may start with a zero.
-/
def wholeDigits? (cs : List Char) : Option (List Char) :=
  (digits? 10 cs).filter fun digits => digits.length = 1 || digits.head? ≠ some '0'

/--
Whether the number starts with a minus, and the number without its sign.
-/
def splitSign : List Char → Bool × List Char
  | '+' :: cs => (false, cs)
  | '-' :: cs => (true, cs)
  | cs => (false, cs)

/--
The whole number that a word spells, if a signed word of 64 bits holds it. One that gives its base has no
sign.
-/
def integer? (word : List Char) : Option Int :=
  let inBase (base : Nat) (cs : List Char) : Option Int := do
    return ← Text.number? base (← digits? base cs)
  let value? : Option Int :=
    match word with
    | '0' :: 'x' :: cs => inBase 16 cs
    | '0' :: 'o' :: cs => inBase 8 cs
    | '0' :: 'b' :: cs => inBase 2 cs
    | _ => do
      let (negative, cs) := splitSign word
      let n : Int := ← Text.number? 10 (← wholeDigits? cs)
      return if negative then -n else n
  value?.filter fun n => -0x8000000000000000 ≤ n ∧ n < 0x8000000000000000

def splitAt (p : Char → Bool) (cs : List Char) : List Char × Option (List Char) :=
  match cs.dropWhile (!p ·) with
  | [] => (cs, none)
  | _ :: rest => (cs.takeWhile (!p ·), some rest)

/--
From here on a number rounds to infinity.
-/
def infinityBound : Nat := Nat.pow 2 1024 - Nat.pow 2 970

def overflows (digits : List Char) (exponent : Int) : Bool :=
  let digits := digits.dropWhile (· = '0')
  let magnitude := digits.length + exponent
  if digits.isEmpty || magnitude < 309 then false
  else if 309 < magnitude then true
  else
    let n := (Text.number? 10 digits).getD 0
    infinityBound * Nat.pow 10 (-exponent).toNat ≤ n * Nat.pow 10 exponent.toNat

def isFloat (word : List Char) : Bool :=
  let (negative, cs) := splitSign word
  cs = "inf".toList || cs = "nan".toList ||
    let (mantissa, exponent) := splitAt (fun c => c = 'e' || c = 'E') cs
    let (whole, fraction) := splitAt (· = '.') mantissa
    let parts : Option Bool := do
      let whole ← wholeDigits? whole
      let fractionDigits ← (fraction.map (digits? 10)).getD (some [])
      let (below, shift) := splitSign (exponent.getD ['0'])
      let shift : Int := ← Text.number? 10 (← digits? 10 shift)
      let shift := if below then -shift else shift
      return !(overflows (whole ++ fractionDigits) (shift - fractionDigits.length)) || negative
    (fraction.isSome || exponent.isSome) && parts.getD false

end LexiconAudit.Toml
