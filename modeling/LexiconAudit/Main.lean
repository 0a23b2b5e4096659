import LexiconAudit.CommandLine.Report
import LexiconAudit.Files.Change

/-!
This module contains the program: it looks at the files that a command line is about, and writes what comes
out. It starts no other programs, so to it no exporting program is installed.
-/

open LexiconAudit
open LexiconAudit.CommandLine

def seeFile (files : Files.Tree) (path : String) : IO Files.Tree := do
  match ← (IO.FS.readBinFile path).toBaseIO with
  | .ok bytes => return (files.write path (.plain bytes.toList)).toOption.getD files
  | .error _ => return files

def seeDirectory (files : Files.Tree) (path : String) : Files.Tree :=
  (files.makeDirectory path).toOption.getD files

def see (files : Files.Tree) (path : String) : IO Files.Tree := do
  match ← (IO.FS.realPath path).toBaseIO with
  | .error _ => return files
  | .ok place =>
    if ← place.isDir then
      let mut files := seeDirectory files path
      for entry in ← place.readDir do
        let inner := Files.join path entry.fileName
        if ← entry.path.isDir then
          files := seeDirectory files inner
        else
          files ← seeFile files inner
      return files
    else
      seeFile files path

def seeFilesOf (invocation : Invocation) (environment : List (String × String)) : IO Files.Tree := do
  let files ← [invocation.config, invocation.fixture].foldlM see {}
  match Settings.load files environment invocation.config with
  | .error _ => return files
  | .ok settings => (invocation.dataPaths settings).foldlM see files

def seeEnvironment : IO (List (String × String)) :=
  [Settings.hostVariable, Settings.portVariable].mapM fun name => do
    return (name, (← IO.getEnv name).getD "")

def main (words : List String) : IO UInt32 := do
  let environment ← seeEnvironment
  let files ←
    match Invocation.read words with
    | .ok invocation => seeFilesOf invocation environment
    | .error _ => pure {}
  let result := outcome files environment words
  IO.print result.output
  IO.eprint result.errors
  return result.status.toUInt32
