import LexiconAudit.CommandLine.Arguments
import LexiconAudit.Database.Dump
import LexiconAudit.Database.Verification
import LexiconAudit.Failure
import LexiconAudit.Fixture.Reader
import LexiconAudit.Repository.Verification
import LexiconAudit.Settings

/-!
This module contains the runs that a command line asks for: which settings, fixture and data they read, and
what they find.
-/

namespace LexiconAudit.CommandLine

inductive Finding where
  | tree (node : Node)
  | agreement (side : Side) (target : String)
  deriving Repr

inductive Fault where
  | settings (fault : Settings.Fault)
  | unreadable (path : String) (fault : Files.Fault)
  | failure (failure : Failure)
  deriving Repr

def Fault.message : Fault → String
  | settings fault => fault.message
  | unreadable path fault => s!"failed to read {path}: {fault.message}"
  | failure f => f.message

def loadSettings (files : Files.Tree) (environment : List (String × String)) (path : String) :
    Except Fault Settings :=
  (Settings.load files environment path).mapError .settings

def readFixture (files : Files.Tree) (path : String) : Except Fault Node :=
  match files.readText path with
  | .error fault => .error (.unreadable path fault)
  | .ok text => (Fixture.parse text).mapError fun rejection => .failure (.fixture rejection)

structure Origin where
  store : Database.Store
  target : String

/--
The dumps in a directory, if one is given, or else the server of the settings.
-/
def Origin.of (files : Files.Tree) (settings : Settings) (database : String) (dumps : Option String) : Origin :=
  match dumps with
  | some directory =>
    { store := Database.Dump.store files directory, target := s!"{directory} ({database})" }
  | none =>
    { store := settings.server.store files, target := s!"{settings.server.address}/{database}" }

def Invocation.run (invocation : Invocation) (files : Files.Tree) (environment : List (String × String)) :
    Except Fault Finding :=
  match invocation.command with
  | .parse => do
    return .tree (← readFixture files invocation.fixture)
  | .auditRepository root => do
    let settings ← loadSettings files environment invocation.config
    let expected ← readFixture files invocation.fixture
    let root := root.getD settings.root
    match Repository.verify files root expected with
    | .ok _ => return .agreement .repository root
    | .error discrepancy => .error (.failure (.repository discrepancy))
  | .auditDatabase project dumps => do
    let settings ← loadSettings files environment invocation.config
    let expected ← readFixture files invocation.fixture
    let database := settings.databaseOf project
    let origin := Origin.of files settings database dumps
    match Database.verify origin.store database expected with
    | .ok _ => return .agreement .database origin.target
    | .error discrepancy => .error (.failure (.database discrepancy))

def Invocation.dataPaths (invocation : Invocation) (settings : Settings) : List String :=
  match invocation.command with
  | .parse => []
  | .auditRepository root =>
    let root := root.getD settings.root
    [Repository.lexiconDirectory root, Repository.notesFile root]
  | .auditDatabase project (some directory) =>
    [Database.lexiconCollection, Database.commentsCollection].map
      (Database.Dump.collectionPath directory (settings.databaseOf project))
  | .auditDatabase _ none => []

end LexiconAudit.CommandLine
