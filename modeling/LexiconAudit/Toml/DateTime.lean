import LexiconAudit.Text.Digit

/-!
This module contains the form of dates and times: `1979-05-27`, `07:32:00.999`, both with a `T` or a blank
between them, and then perhaps an offset such as `Z` or `-07:00`.
-/

namespace LexiconAudit.Toml

def bounded? (count low high : Nat) (cs : List Char) : Option (Nat × List Char) := do
  if cs.length < count then failure
  let n ← Text.number? 10 (cs.take count)
  if low ≤ n ∧ n ≤ high then return (n, cs.drop count) else failure

def behind? (c : Char) : List Char → Option (List Char)
  | [] => none
  | d :: cs => if d = c then some cs else none

def daysInMonth (year month : Nat) : Nat :=
  if month = 2 then
    if year % 4 = 0 ∧ (year % 100 ≠ 0 ∨ year % 400 = 0) then 29 else 28
  else if month = 4 ∨ month = 6 ∨ month = 9 ∨ month = 11 then 30
  else 31

def behindDate? (cs : List Char) : Option (List Char) := do
  let (year, cs) ← bounded? 4 0 9999 cs
  let (month, cs) ← bounded? 2 1 12 (← behind? '-' cs)
  let (_, cs) ← bounded? 2 1 (daysInMonth year month) (← behind? '-' cs)
  return cs

def behindTime? (cs : List Char) : Option (List Char) := do
  let (_, cs) ← bounded? 2 0 23 cs
  let (_, cs) ← bounded? 2 0 59 (← behind? ':' cs)
  let (_, cs) ← bounded? 2 0 60 (← behind? ':' cs)
  match cs with
  | '.' :: c :: cs => if Text.isDigit 10 c then return cs.dropWhile (Text.isDigit 10) else failure
  | '.' :: [] => failure
  | cs => return cs

def isOffset (cs : List Char) : Bool :=
  match cs with
  | [] => true
  | c :: cs =>
    if c = '+' || c = '-' then
      let rest : Option (List Char) := do
        let (_, cs) ← bounded? 2 0 23 cs
        let (_, cs) ← bounded? 2 0 59 (← behind? ':' cs)
        return cs
      rest = some []
    else
      (c = 'Z' || c = 'z') && cs.isEmpty

def isDate (cs : List Char) : Bool :=
  behindDate? cs = some []

def isTime (cs : List Char) : Bool :=
  behindTime? cs = some []

def isTimeWithOffset (cs : List Char) : Bool :=
  match behindTime? cs with
  | none => false
  | some rest => isOffset rest

def isDateAndTime (cs : List Char) : Bool :=
  match behindDate? cs with
  | some (c :: rest) => (c = 'T' || c = 't') && isTimeWithOffset rest
  | _ => false

end LexiconAudit.Toml
