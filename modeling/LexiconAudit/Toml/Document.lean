import LexiconAudit.Toml.DateTime
import LexiconAudit.Toml.Number
import LexiconAudit.Toml.Quoted
import LexiconAudit.Toml.Table

/-!
This module contains the reading of TOML documents: keys, values, and the lines that give a value to a key
or open a table.
-/

namespace LexiconAudit.Toml

open Text (Scanner)
open Text.Scanner

/--
So many parts may a dotted key have, and so deep may values be nested.
-/
def maxDepth : Nat := 79

structure Key where
  path : List String
  name : String
  deriving DecidableEq, Repr

def skipSpaces : Scanner Unit := do
  let _ ← takeWhile isSpace

def isBareChar (c : Char) : Bool :=
  c.isAlphanum || c = '-' || c = '_'

def keyPart : Scanner String := do
  match ← front with
  | some '"' => lineString .double
  | some '\'' => lineString .single
  | _ => return String.ofList (← takeWhile1 isBareChar)

def keyRound (path : List String) : Scanner (Reading.Round (List String) Key) := do
  skipSpaces
  let name ← keyPart
  skipSpaces
  match ← front with
  | some '.' =>
    expect '.'
    return .again (path ++ [name])
  | _ => return .done { path, name }

theorem advances_keyRound (path : List String) : (keyRound path).Advances := by
  refine .bind_right _ fun _ => .bind_right _ fun _ => .bind_right _ fun _ => .bind_right _ fun c => ?_
  split
  . exact ((strict_expect _).bind_left _).advances
  . exact .done _

def key : Scanner Key := do
  let key ← Reading.loop keyRound advances_keyRound []
  require (key.path.length < maxDepth)
  return key

def isWordChar (c : Char) : Bool :=
  isBareChar c || c = '+' || c = '.' || c = ':'

/--
Read a value that is a single word, or a date and a time with a blank between them.
-/
def word : Scanner Value := do
  let word ← takeWhile isWordChar
  if word = "true".toList then
    return .boolean true
  else if word = "false".toList then
    return .boolean false
  else if let some n := integer? word then
    return .integer n
  else if isFloat word then
    return .float
  else if isTime word || isDateAndTime word then
    return .dateTime
  else if isDate word then
    let blank ← optional " "
    if blank && (← front).any Char.isDigit then
      require (isTimeWithOffset (← takeWhile isWordChar))
    return .dateTime
  else
    fail

def gapRound (_ : Unit) : Scanner (Reading.Round Unit Unit) := do
  let _ ← takeWhile isGap
  match ← front with
  | some '#' =>
    expect '#'
    let _ ← takeWhile isLineChar
    return .again ()
  | _ => return .done ()

theorem advances_gapRound (u : Unit) : (gapRound u).Advances := by
  refine .bind_right _ fun _ => .bind_right _ fun c => ?_
  split
  . exact ((strict_expect _).bind_left _).advances
  . exact .done _

def skipGap : Scanner Unit :=
  Reading.loop gapRound advances_gapRound ()

def itemsRound (value : Scanner Value) (items : List Value) :
    Scanner (Reading.Round (List Value) (List Value)) := do
  skipGap
  match ← front with
  | some ']' =>
    expect ']'
    return .done items
  | _ =>
    let item ← value
    skipGap
    match ← next with
    | ',' => return .again (items ++ [item])
    | ']' => return .done (items ++ [item])
    | _ => fail

theorem advances_itemsRound (value : Scanner Value) (items : List Value) :
    (itemsRound value items).Advances := by
  refine .bind_right _ fun _ => .bind_right _ fun c => ?_
  split
  . exact .bind_right _ fun _ => .done _
  . exact .bind_right _ fun _ => .bind_right _ fun _ => (strict_next.bind_left _).advances

def entriesRound (value : Scanner Value) (table : Table) :
    Scanner (Reading.Round Table Table) := do
  let key ← key
  expect '='
  skipSpaces
  let item ← value
  skipSpaces
  match table.assign key.name item key.path with
  | none => fail
  | some table =>
    match ← next with
    | ',' => return .again table
    | '\x7d' => return .done table
    | _ => fail

theorem advances_entriesRound (value : Scanner Value) (table : Table) :
    (entriesRound value table).Advances :=
  .bind_right _ fun _ => ((strict_expect _).bind_left _).advances

def entries (value : Scanner Value) : Scanner Table := do
  skipSpaces
  if ← optional "\x7d" then
    return []
  else
    Reading.loop (entriesRound value) (advances_entriesRound value) []

def value (depth : Nat) : Scanner Value := do
  match ← front with
  | some '"' => return .string (← string .double)
  | some '\'' => return .string (← string .single)
  | some '[' =>
    match depth with
    | 0 => fail
    | depth + 1 =>
      expect '['
      return .array (← Reading.loop (itemsRound (value depth)) (advances_itemsRound (value depth)) [])
  | some '\x7b' =>
    match depth with
    | 0 => fail
    | depth + 1 =>
      expect '\x7b'
      return .table .braces (← entries (value depth))
  | _ => word

/--
Read what may stand at the end of a line, and the line end unless the document ends here.
-/
def lineEnd : Scanner Unit := do
  skipSpaces
  if ← optional "#" then
    let _ ← takeWhile isLineChar
  match ← front with
  | none => return ()
  | some _ => expect '\n'

/--
A document as far as it has been read: its tables, and the path of the one that was opened last.
-/
structure Draft where
  root : Table := []
  opened : List String := []

def Draft.assign? (draft : Draft) (key : Key) (item : Value) : Option Draft := do
  return { draft with root := ← draft.root.changeWithin (·.assign key.name item key.path) draft.opened }

def Draft.openTable? (draft : Draft) (key : Key) : Option Draft := do
  return { root := ← draft.root.changeWithin (·.openTable key.name) key.path, opened := key.path ++ [key.name] }

def Draft.openNext? (draft : Draft) (key : Key) : Option Draft := do
  return { root := ← draft.root.changeWithin (·.openNext key.name) key.path, opened := key.path ++ [key.name] }

def header (draft : Draft) : Scanner Draft := do
  let more ← optional "["
  let key ← key
  expect ']'
  if more then expect ']'
  lineEnd
  match if more then draft.openNext? key else draft.openTable? key with
  | some draft => return draft
  | none => fail

def lineRound (draft : Draft) : Scanner (Reading.Round Draft Table) := do
  skipSpaces
  match ← front with
  | none => return .done draft.root
  | some '\n' =>
    expect '\n'
    return .again draft
  | some '#' =>
    expect '#'
    let _ ← takeWhile isLineChar
    lineEnd
    return .again draft
  | some '[' =>
    expect '['
    return .again (← header draft)
  | some _ =>
    let key ← key
    expect '='
    skipSpaces
    let item ← value maxDepth
    lineEnd
    match draft.assign? key item with
    | some draft => return .again draft
    | none => fail

theorem advances_lineRound (draft : Draft) : (lineRound draft).Advances := by
  refine .bind_right _ fun _ => .bind_right _ fun c => ?_
  split
  . exact .done _
  . exact ((strict_expect _).bind_left _).advances
  . exact ((strict_expect _).bind_left _).advances
  . exact ((strict_expect _).bind_left _).advances
  . exact .bind_right _ fun _ => ((strict_expect _).bind_left _).advances

def document : Scanner Table := do
  let _ ← optional "\uFEFF"
  Reading.loop lineRound advances_lineRound {}

/--
The text with plain line ends, if a carriage return stands in front of them only.
-/
def plainLineEnds? : List Char → Option (List Char)
  | [] => some []
  | '\r' :: '\n' :: cs => (plainLineEnds? cs).map ('\n' :: ·)
  | '\r' :: _ => none
  | c :: cs => (plainLineEnds? cs).map (c :: ·)

def parse (text : String) : Option Table := do
  match document.run (← plainLineEnds? text.toList) with
  | .ok (table, _) => return table
  | .error _ => failure

end LexiconAudit.Toml
