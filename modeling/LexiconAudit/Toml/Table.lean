import LexiconAudit.Keyed

/-!
This module contains the tables that a TOML document describes and the ways in which they grow: a key gives
a value in a table, a header opens a table. What has been given once cannot be given again.
-/

namespace LexiconAudit.Toml

/--
What has made a table. Only what has made it may add to it.
-/
inductive Origin where
  | braces
  | header
  | innerHeader
  | dottedKey
  deriving DecidableEq, Repr

/--
A value. Settings are texts and whole numbers, so nothing is kept of a fraction, an infinity or a date.
-/
inductive Value where
  | string (text : String)
  | integer (n : Int)
  | float
  | boolean (value : Bool)
  | dateTime
  | array (items : List Value)
  | table (origin : Origin) (entries : List (String × Value))
  | tables (items : List (List (String × Value)))
  deriving Repr, Inhabited

abbrev Table := List (String × Value)

namespace Table

/--
Give `name` a value in the table that a dotted key leads to through `path`.
-/
def assign (name : String) (value : Value) : (path : List String) → Table → Option Table
  | [], table =>
    match table.lookup name with
    | none => some (table ++ [(name, value)])
    | some _ => none
  | step :: path, table =>
    match table.lookup step with
    | none => do return table ++ [(step, .table .dottedKey (← assign name value path []))]
    | some (.table .dottedKey inner) => do
      return Keyed.set step (.table .dottedKey (← assign name value path inner)) table
    | some _ => none

/--
Make a change to the table that a header leads to through `path`.
-/
def changeWithin (change : Table → Option Table) : (path : List String) → Table → Option Table
  | [], table => change table
  | step :: path, table =>
    match table.lookup step with
    | none => do return table ++ [(step, .table .innerHeader (← changeWithin change path []))]
    | some (.table .braces _) => none
    | some (.table origin inner) => do
      return Keyed.set step (.table origin (← changeWithin change path inner)) table
    | some (.tables (last :: others)) => do
      return Keyed.set step (.tables ((← changeWithin change path last) :: others)) table
    | some _ => none

def openTable (name : String) (table : Table) : Option Table :=
  match table.lookup name with
  | none => some (table ++ [(name, .table .header [])])
  | some (.table .innerHeader inner) => some (Keyed.set name (.table .header inner) table)
  | some _ => none

def openNext (name : String) (table : Table) : Option Table :=
  match table.lookup name with
  | none => some (table ++ [(name, .tables [[]])])
  | some (.tables items) => some (Keyed.set name (.tables ([] :: items)) table)
  | some _ => none

end Table

end LexiconAudit.Toml
