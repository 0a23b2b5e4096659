import LexiconAudit.Database.Store
import LexiconAudit.Files.Start
import LexiconAudit.Text.Blank

/-!
This module contains the store that runs a program to export a collection from a server, and reads what
the program writes.
-/

namespace LexiconAudit.Database

structure Export where
  host : String := "localhost"
  port : Nat := 27017
  program : String := "mongoexport"
  deriving DecidableEq, Repr

namespace Export

def address (e : Export) : String :=
  s!"{e.host}:{e.port}"

def arguments (e : Export) (database collection : String) : List String :=
  ["--host", e.address, "--db", database, "--collection", collection, "--quiet"]

def reason (errors : List UInt8) : String :=
  match Text.trim (Text.Utf8.decodeLenient errors).toList with
  | [] => "unknown error"
  | cs => String.ofList cs

def run (e : Export) (files : Files.Tree) (arguments : List String) : Except StoreFault String :=
  let command := " ".intercalate (e.program :: arguments)
  match files.start e.program arguments with
  | .error .notFound => .error (.notInstalled e.program)
  | .error fault => .error (.commandFailed command fault.message)
  | .ok program =>
    if program.status = 0 then
      .ok (Text.Utf8.decodeLenient program.output)
    else
      .error (.commandFailed command (reason program.errors))

def store (e : Export) (files : Files.Tree) : Store where
  findAll database collection := do
    let text ← e.run files (e.arguments database collection)
    parseDocuments text s!"{e.program} {database}.{collection}"

end Export

end LexiconAudit.Database
