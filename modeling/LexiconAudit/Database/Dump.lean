import LexiconAudit.Database.Store

/-!
This module contains the store that reads a directory of dumps: one file for each collection, with its
documents one behind the other.
-/

namespace LexiconAudit.Database.Dump

def collectionPath (directory database collection : String) : String :=
  Files.join directory s!"{database}.{collection}.json"

def text (path : String) (bytes : List UInt8) : Except StoreFault String :=
  if bytes.contains 0 then
    .error (.holdsNul path)
  else
    match Text.Utf8.decode? bytes with
    | some text => .ok text
    | none => .error (.notText path)

def readDocuments (files : Files.Tree) (path : String) : Except StoreFault (List Json) :=
  match files.readBytes path with
  | .error fault => .error (.unreadable path fault)
  | .ok bytes => do parseDocuments (← text path bytes) path

def store (files : Files.Tree) (directory : String) : Store where
  findAll database collection :=
    let path := collectionPath directory database collection
    if files.pathExists path then readDocuments files path else .ok []

end LexiconAudit.Database.Dump
