import LexiconAudit.CommandLine.Run
import LexiconAudit.Json.Printer
import LexiconAudit.Node.Digest

/-!
This module contains what a run writes and how it ends. Findings go to the output; faults go to the error
output, apart from failures in JSON. A run ends with status 0 if it finds what it should, with 1 if it does
not, and with 2 if its command line makes no sense.
-/

namespace LexiconAudit.CommandLine

structure Outcome where
  status : Nat
  output : String := ""
  errors : String := ""
  deriving DecidableEq, Repr

def Finding.toJson (fixture : String) : Finding → Json
  | .tree node => .object [
      ("fixture", .string fixture),
      ("digest", .string node.digest),
      ("sections", .array (node.children.map fun part => .string part.name)),
      ("xml", .string node.toXml)]
  | .agreement side target => .object [
      ("result", .string "pass"),
      ("fixture", .string fixture),
      ("side", .string side.key),
      ("target", .string target)]

def Finding.toText (fixture : String) : Finding → String
  | .tree node => node.toXmlPretty
  | .agreement side target =>
    s!"lexsync verify {side.describe}\n  Fixture: {fixture}\n  Target: {target}\n  Result: pass"

def failureToJson (fixture : String) (failure : Failure) : Json :=
  .object [
    ("result", .string "fail"),
    ("fixture", .string fixture),
    ("class", .string failure.failureClass.key),
    ("side", match failure.side? with
      | some side => .string side.key
      | none => .null),
    ("message", .string failure.message)]

def Outcome.ofRun (invocation : Invocation) : Except Fault Finding → Outcome
  | .ok finding =>
    let report :=
      if invocation.json then (finding.toJson invocation.fixture).pretty
      else finding.toText invocation.fixture
    { status := 0, output := report ++ "\n" }
  | .error (.failure failure) =>
    if invocation.json then
      { status := 1, output := (failureToJson invocation.fixture failure).pretty ++ "\n" }
    else
      { status := 1, errors := s!"error: {failure.message}\n" }
  | .error fault => { status := 1, errors := s!"error: {fault.message}\n" }

def versionText : String := "lexsync 0.1.0\n"

def usageText : String :=
  "Usage: lexsync [--config FILE] COMMAND\n\n"
    ++ "Commands:\n"
    ++ "  parse FIXTURE [--json]\n"
    ++ "  verify-depot FIXTURE [--repo DIR] [--json]\n"
    ++ "  verify-docstore FIXTURE --project KEY [--dump-dir DIR] [--json]\n"

def Outcome.ofStop : Stop → Outcome
  | .help => { status := 0, output := usageText }
  | .version => { status := 0, output := versionText }
  | .misuse => { status := 2, errors := usageText }

def outcome (files : Files.Tree) (environment : List (String × String)) (words : List String) : Outcome :=
  match Invocation.read words with
  | .error stop => .ofStop stop
  | .ok invocation => .ofRun invocation (invocation.run files environment)

end LexiconAudit.CommandLine
