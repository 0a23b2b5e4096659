/-!
This module contains the reading of the command line: the words that a run is started with, and what they
ask for.
-/

namespace LexiconAudit.CommandLine

inductive Command where
  | parse
  | auditRepository (root : Option String)
  | auditDatabase (project : String) (dumps : Option String)
  deriving DecidableEq, Repr

structure Invocation where
  command : Command
  fixture : String
  config : String
  json : Bool
  deriving DecidableEq, Repr

inductive Stop where
  | help
  | version
  | misuse
  deriving DecidableEq, Repr

inductive Word where
  | plain (text : String)
  /-- A word with two hyphens in front, and its value if an equals sign attaches one. -/
  | long (name : String) (value : Option String)
  | short (letter : Char)
  | divider
  deriving DecidableEq, Repr

def Word.ofString (word : String) : Word :=
  match word.toList with
  | ['-', '-'] => .divider
  | '-' :: '-' :: cs =>
    match cs.dropWhile (· ≠ '=') with
    | [] => .long (String.ofList cs) none
    | _ :: value => .long (String.ofList (cs.takeWhile (· ≠ '='))) (some (String.ofList value))
  | '-' :: c :: _ => .short c
  | _ => .plain word

/--
Whether a word may be the value of the option in front of it.
-/
def isValue (word : String) : Bool :=
  match Word.ofString word with
  | .plain _ => true
  | _ => false

structure Form where
  flags : List String
  options : List String

structure Given where
  fixture : Option String := none
  flags : List String := []
  options : List (String × String) := []

namespace Given

def addFixture (given : Given) (word : String) : Except Stop Given :=
  match given.fixture with
  | none => .ok { given with fixture := some word }
  | some _ => .error .misuse

def addFlag (given : Given) (name : String) : Except Stop Given :=
  if given.flags.contains name then .error .misuse
  else .ok { given with flags := name :: given.flags }

def addOption (given : Given) (name value : String) : Except Stop Given :=
  match given.options.lookup name with
  | none => .ok { given with options := (name, value) :: given.options }
  | some _ => .error .misuse

end Given

/--
Read the words behind a command. Nothing can be given twice, and the first word that asks for help or makes
no sense decides.
-/
def readWords (form : Form) (given : Given) : List String → Except Stop Given
  | [] => .ok given
  | word :: words =>
    match Word.ofString word with
    | .plain text => do readWords form (← given.addFixture text) words
    | .divider => words.foldlM Given.addFixture given
    | .short letter => .error (if letter = 'h' then .help else .misuse)
    | .long name none =>
      if name = "help" then .error .help
      else if form.flags.contains name then do
        readWords form (← given.addFlag name) words
      else if form.options.contains name then
        match words with
        | [] => .error .misuse
        | value :: words => do
          if isValue value then
            readWords form (← given.addOption name value) words
          else
            .error .misuse
      else
        .error .misuse
    | .long name (some value) =>
      if form.options.contains name then do
        readWords form (← given.addOption name value) words
      else
        .error .misuse

/--
The name of the option for the settings file, which may stand anywhere.
-/
def configOption : String := "config"

def jsonFlag : String := "json"

def defaultConfig : String := "lexsync.toml"

def commands : List (String × Form × (Given → Except Stop Command)) := [
  ("parse", ⟨[jsonFlag], [configOption]⟩, fun _ => .ok .parse),
  ("verify-depot", ⟨[jsonFlag], [configOption, "repo"]⟩, fun given =>
    .ok (.auditRepository (given.options.lookup "repo"))),
  ("verify-docstore", ⟨[jsonFlag], [configOption, "project", "dump-dir"]⟩, fun given =>
    match given.options.lookup "project" with
    | some project => .ok (.auditDatabase project (given.options.lookup "dump-dir"))
    | none => .error .misuse)]

/--
Read a command by its name and the words behind it. A settings file given there counts more than one given
in front of the command.
-/
def readCommand (config : Option String) (name : String) (words : List String) :
    Except Stop Invocation := do
  match commands.lookup name with
  | none =>
    if name = "help" ∧ words.length ≤ 1 ∧ words.all (fun word => (commands.lookup word).isSome) then
      .error .help
    else
      .error .misuse
  | some (form, command) =>
    let given ← readWords form {} words
    match given.fixture with
    | none => .error .misuse
    | some fixture => return {
        command := ← command given
        fixture
        config := ((given.options.lookup configOption).or config).getD defaultConfig
        json := given.flags.contains jsonFlag }

def readFrom (config : Option String) : List String → Except Stop Invocation
  | [] => .error .misuse
  | word :: words =>
    match Word.ofString word with
    | .plain name => readCommand config name words
    | .divider => .error .misuse
    | .short letter =>
      .error (if letter = 'h' then .help else if letter = 'V' then .version else .misuse)
    | .long name none =>
      if name = "help" then .error .help
      else if name = "version" then .error .version
      else if name = configOption ∧ config.isNone then
        match words with
        | [] => .error .misuse
        | value :: words => if isValue value then readFrom (some value) words else .error .misuse
      else
        .error .misuse
    | .long name (some value) =>
      if name = configOption ∧ config.isNone then readFrom (some value) words else .error .misuse

def Invocation.read (words : List String) : Except Stop Invocation :=
  readFrom none words

end LexiconAudit.CommandLine
