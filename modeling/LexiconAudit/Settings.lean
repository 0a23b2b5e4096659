import LexiconAudit.Database.Document
import LexiconAudit.Database.Export
import LexiconAudit.Text.Quoted
import LexiconAudit.Toml.Document

/-!
This module contains the settings of an audit: where the repository is, which server holds the databases and
how they are named. They come from a settings file and then from the environment.
-/

namespace LexiconAudit

structure Settings where
  root : String := "."
  /-- The server with the databases, and the program that exports from it. -/
  server : Database.Export := {}
  databasePrefix : String := Database.defaultPrefix
  deriving DecidableEq, Repr

namespace Settings

inductive Fault where
  | unreadable (path : String) (fault : Files.Fault)
  | malformed (path : String)
  | unknown (path : String)
  | badPort (value : String)
  deriving DecidableEq, Repr

def hostVariable : String := "MongoHostName"

def portVariable : String := "MongoPort"

def Fault.message : Fault → String
  | unreadable path fault => s!"failed to read {path}: {fault.message}"
  | malformed path => s!"invalid settings in {path}: the file is not well formed"
  | unknown path => s!"invalid settings in {path}: unknown setting or wrong kind of value"
  | badPort value => s!"invalid value for {portVariable}: {Text.quoted value}"

/-! Settings files. -/

/--
A setting: its name in its section of the file, and how its value changes the settings.
-/
structure Setting where
  name : String
  set? : Toml.Value → Settings → Option Settings

def asText? : Toml.Value → Option String
  | .string text => some text
  | _ => none

def asPort? : Toml.Value → Option Nat
  | .integer n => if 0 ≤ n ∧ n < UInt16.size then some n.toNat else none
  | _ => none

def repositorySection : List Setting := [
  ⟨"root", fun value settings => do return { settings with root := ← asText? value }⟩]

def databaseSection : List Setting := [
  ⟨"host", fun value settings => do
    return { settings with server := { settings.server with host := ← asText? value } }⟩,
  ⟨"port", fun value settings => do
    return { settings with server := { settings.server with port := ← asPort? value } }⟩,
  ⟨"database_prefix", fun value settings => do
    return { settings with databasePrefix := ← asText? value }⟩,
  ⟨"export_command", fun value settings => do
    return { settings with server := { settings.server with program := ← asText? value } }⟩]

def sections : List (String × List Setting) :=
  [("repository", repositorySection), ("mongo", databaseSection)]

/--
Take the settings of a section. They are given by their names or, in an array, by their order, in which case
those behind the last known one do not matter.
-/
def readSection? (known : List Setting) (value : Toml.Value) (settings : Settings) : Option Settings :=
  match value with
  | .table _ entries =>
    entries.foldlM (fun settings (name, value) => do
      (← known.find? fun setting => setting.name = name).set? value settings) settings
  | .array items =>
    (known.zip items).foldlM (fun settings (setting, value) => setting.set? value settings) settings
  | _ => none

/--
The settings that a table gives. What it does not give has its default.
-/
def ofTable? (table : Toml.Table) : Option Settings :=
  table.foldlM (fun settings (name, value) => do
    readSection? (← sections.lookup name) value settings) {}

def parse (text path : String) : Except Fault Settings :=
  match Toml.parse text with
  | none => .error (.malformed path)
  | some table =>
    match ofTable? table with
    | none => .error (.unknown path)
    | some settings => .ok settings

/-! The environment. -/

def nonempty? (environment : List (String × String)) (name : String) : Option String :=
  (environment.lookup name).filter fun value => !value.isEmpty

/--
The number that a variable gives: digits, perhaps behind a plus, with blanks around them.
-/
def port? (text : String) : Option Nat :=
  let digits :=
    match Text.trim text.toList with
    | '+' :: cs => cs
    | cs => cs
  (Text.number? 10 digits).filter fun n => n < UInt16.size

def applyEnvironment (environment : List (String × String)) (settings : Settings) :
    Except Fault Settings := do
  let host := (nonempty? environment hostVariable).getD settings.server.host
  let port ←
    match nonempty? environment portVariable with
    | none => pure settings.server.port
    | some value =>
      match port? value with
      | some port => pure port
      | none => .error (.badPort value)
  return { settings with server := { settings.server with host, port } }

def load (files : Files.Tree) (environment : List (String × String)) (path : String) :
    Except Fault Settings := do
  let settings ←
    if files.pathExists path then
      match files.readText path with
      | .ok text => parse text path
      | .error fault => .error (.unreadable path fault)
    else
      pure {}
  applyEnvironment environment settings

def databaseOf (settings : Settings) (project : String) : String :=
  Database.databaseName settings.databasePrefix project

end Settings

end LexiconAudit
