import LexiconAudit.Keyed
import LexiconAudit.Text.Utf8

/-!
This module contains what can be at a place: a file or a directory. A file may be a script, which is described by what
it writes for its arguments and how it ends.
-/

namespace LexiconAudit.Files

/--
What a program does when it is started with some arguments.
-/
structure Program where
  output : List UInt8 := []
  errors : List UInt8 := []
  status : UInt8 := 0
  deriving Repr

inductive Content where
  | plain (bytes : List UInt8)
  | script (bytes : List UInt8) (run : (arguments : List String) → Program)

namespace Content

def program (p : Program) : Content :=
  .script (Text.Utf8.encode s!"#!/bin/sh\nexit {p.status}\n") fun _ => p

def read : Content → List UInt8
  | plain bytes => bytes
  | script bytes _ => bytes

end Content

inductive Entry where
  /-- Files that lack the permission cannot be started. -/
  | file (content : Content) (executable : Bool)
  | directory (inside : List (String × Entry))

abbrev Directory := List (String × Entry)

def Entry.get? : List String → Entry → Option Entry
  | [], entry => some entry
  | name :: names, directory inside => (inside.lookup name).bind (get? names)
  | _ :: _, file .. => none

def Directory.change (f : Directory → Directory) : List String → Directory → Directory
  | [], directory => f directory
  | name :: names, directory =>
    directory.map fun
      | (other, .directory inside) =>
        (other, .directory (if other = name then change f names inside else inside))
      | file => file

end LexiconAudit.Files
