/-!
This module contains the reasons for which an access to a file or the start of a program fails, and their
wording.
-/

namespace LexiconAudit.Files

inductive Fault where
  | notFound
  | argumentsTooLong
  | notAProgram
  | permissionDenied
  | notADirectory
  | isADirectory
  | nameTooLong
  | nameHoldsNul
  | argumentHoldsNul
  | notText
  deriving DecidableEq, Repr

def Fault.message : Fault → String
  | notFound => "No such file or directory (os error 2)"
  | argumentsTooLong => "Argument list too long (os error 7)"
  | notAProgram => "Exec format error (os error 8)"
  | permissionDenied => "Permission denied (os error 13)"
  | notADirectory => "Not a directory (os error 20)"
  | isADirectory => "Is a directory (os error 21)"
  | nameTooLong => "File name too long (os error 36)"
  | nameHoldsNul => "file name contained an unexpected NUL byte"
  | argumentHoldsNul => "nul byte found in provided data"
  | notText => "stream did not contain valid UTF-8"

end LexiconAudit.Files
