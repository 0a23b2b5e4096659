import LexiconAudit.Text.Digit
import LexiconAudit.Text.Scanner

/-!
This module contains the strings of TOML. A string stands between double quotes and has escapes, or between
single quotes and has none; between three quotes on either side it may go over several lines.
-/

namespace LexiconAudit.Toml

open Text (Scanner)
open Text.Scanner

def isSpace (c : Char) : Bool :=
  c = ' ' || c = '\t'

def isGap (c : Char) : Bool :=
  isSpace c || c = '\n'

def isLineChar (c : Char) : Bool :=
  c = '\t' || (' ' ≤ c && c ≠ '\x7f')

structure Style where
  mark : Char
  escapes : Bool
  deriving DecidableEq, Repr

namespace Style

def double : Style := ⟨'"', true⟩

def single : Style := ⟨'\'', false⟩

def isPlain (style : Style) (c : Char) : Bool :=
  isLineChar c && c ≠ style.mark && !(style.escapes && c = '\\')

end Style

def code (count : Nat) : Scanner Char := do
  match Text.number? 16 (← take count) with
  | some n => if n.isValidChar then return Char.ofNat n else fail
  | none => fail

def escape : Scanner Char := do
  match ← next with
  | 'b' => return '\x08'
  | 't' => return '\t'
  | 'n' => return '\n'
  | 'f' => return '\x0c'
  | 'r' => return '\r'
  | '"' => return '"'
  | '\\' => return '\\'
  | 'u' => code 4
  | 'U' => code 8
  | _ => fail

def shortRound (style : Style) (read : List Char) : Scanner (Reading.Round (List Char) (List Char)) := do
  let read := (← takeWhile style.isPlain).reverseAux read
  let c ← next
  if c = style.mark then
    return .done read.reverse
  else if c = '\\' && style.escapes then
    return .again ((← escape) :: read)
  else
    fail

theorem advances_shortRound (style : Style) (read : List Char) : (shortRound style read).Advances :=
  Reading.Strict.advances (.bind_right _ fun _ => strict_next.bind_left _)

def short (style : Style) : Scanner (List Char) :=
  Reading.loop (shortRound style) (advances_shortRound style) []

/--
What a backslash stands for in a string on several lines: at the end of a line it swallows the line end and
all blanks behind it.
-/
def longEscape : Scanner (Option Char) := do
  if (← front).any isGap then
    let _ ← takeWhile isSpace
    expect '\n'
    let _ ← takeWhile isGap
    return none
  else
    return some (← escape)

/--
A stretch of a string on several lines, and what is behind it. One or two quotes are part of the string,
also in front of the three that end it. What was read before stands in reverse order.
-/
def longRound (style : Style) (read : List Char) : Scanner (Reading.Round (List Char) (List Char)) := do
  let read := (← takeWhile style.isPlain).reverseAux read
  let c ← next
  if c = '\n' then
    return .again (c :: read)
  else if c = style.mark then
    let marks := c :: (← takeWhile (· = c))
    if marks.length < 3 then
      return .again (marks ++ read)
    else if marks.length < 6 then
      return .done (marks.drop 3 ++ read).reverse
    else
      fail
  else if c = '\\' && style.escapes then
    return .again ((← longEscape).toList ++ read)
  else
    fail

theorem advances_longRound (style : Style) (read : List Char) : (longRound style read).Advances :=
  Reading.Strict.advances (.bind_right _ fun _ => strict_next.bind_left _)

/--
Read a string on several lines behind its first three quotes. A line end right behind them does not count.
-/
def long (style : Style) : Scanner (List Char) := do
  let _ ← optional "\n"
  Reading.loop (longRound style) (advances_longRound style) []

def lineString (style : Style) : Scanner String := do
  expect style.mark
  return String.ofList (← short style)

def string (style : Style) : Scanner String := do
  if ← optional (String.ofList (List.replicate 3 style.mark)) then
    return String.ofList (← long style)
  else
    lineString style

end LexiconAudit.Toml
