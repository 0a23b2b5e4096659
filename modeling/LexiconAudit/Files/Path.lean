/-!
This module contains paths of files, as they are written, and the places that they can lead to.
-/

namespace LexiconAudit.Files

def join (base name : String) : String :=
  if name.toList.head? = some '/' then name
  else if base.isEmpty ∨ base.toList.getLast? = some '/' then base ++ name
  else base ++ "/" ++ name

def segments (path : String) : List String :=
  (go path.toList).map String.ofList
where
  go : List Char → List (List Char)
    | [] => [[]]
    | c :: cs =>
      if c = '/' then [] :: go cs
      else
        match go cs with
        | [] => [[c]]
        | segment :: segments => (c :: segment) :: segments

/--
Whether a part of a path is the name of something in a directory. The other parts lead to the directory
itself or to the one around it.
-/
def isName (segment : String) : Bool :=
  !segment.isEmpty && segment ≠ "." && segment ≠ ".."

def endsWithName (path : String) : Bool :=
  ((segments path).filter (!·.isEmpty)).getLast?.any isName

def nameLimit : Nat := 255

def pathLimit : Nat := 4096

structure Place where
  /-- How many directories out of the current one the names start, or nothing if that is the outermost one. -/
  base? : Option Nat := some 0
  names : List String := []
  deriving DecidableEq, Repr, Inhabited

def origin (path : String) : Place :=
  if path.toList.head? = some '/' then { base? := none } else {}

namespace Place

def inside (place : Place) (name : String) : Place :=
  { place with names := place.names ++ [name] }

/--
The directory around a place. The outermost directory is around itself.
-/
def around (place : Place) : Place :=
  if place.names.isEmpty then
    { place with base? := place.base?.map (· + 1) }
  else
    { place with names := place.names.dropLast }

def next (place : Place) (segment : String) : Place :=
  if isName segment then place.inside segment
  else if segment = ".." then place.around
  else place

end Place

end LexiconAudit.Files
