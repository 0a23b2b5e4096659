import LexiconAudit.Database.Discrepancy
import LexiconAudit.Fixture.Fault
import LexiconAudit.Repository.Discrepancy

/-!
This module contains failures: whatever ends an audit, be it a fixture that cannot be read or a discrepancy
on one of the two sides. Failures fall into a few classes, which reports name.
-/

namespace LexiconAudit

inductive Side where
  | repository
  | database
  deriving DecidableEq, Repr

def Side.describe : Side → String
  | repository => "LanguageDepot"
  | database => "Mongo"

def Side.key : Side → String
  | repository => "language_depot"
  | database => "mongo"

inductive FailureClass where
  | malformedFixture
  | missingArtifact
  | schemaViolation
  | valueMismatch
  | ambiguousKey
  | io
  deriving DecidableEq, Repr

def FailureClass.key : FailureClass → String
  | malformedFixture => "malformed_fixture"
  | missingArtifact => "missing_artifact"
  | schemaViolation => "schema_invariant_violation"
  | valueMismatch => "value_mismatch"
  | ambiguousKey => "ambiguous_key"
  | io => "io"

def Repository.Discrepancy.failureClass : Repository.Discrepancy → FailureClass
  | entryNotLocated _ | entryNotInFile _ | notesFileMissing _ => .missingArtifact
  | entryWithoutForm _ => .schemaViolation
  | unreadable .. | malformedDocument _ => .io
  | _ => .valueMismatch

def Database.Discrepancy.failureClass : Database.Discrepancy → FailureClass
  | sharedHeadword _ | noteAmbiguous .. => .ambiguousKey
  | entryWithoutLexeme _ | badTarget .. | noteWithoutReference _ => .schemaViolation
  | entryMissing .. | targetMissing _ | noteMissing .. | noteWithContentMissing .. => .missingArtifact
  | store _ => .io
  | _ => .valueMismatch

inductive Failure where
  | fixture (rejection : Fixture.Rejection)
  | repository (discrepancy : Repository.Discrepancy)
  | database (discrepancy : Database.Discrepancy)
  deriving Repr

namespace Failure

def failureClass : Failure → FailureClass
  | fixture _ => .malformedFixture
  | repository d => d.failureClass
  | database d => d.failureClass

def side? : Failure → Option Side
  | fixture _ => none
  | repository _ => some .repository
  | database _ => some .database

def message : Failure → String
  | fixture rejection => rejection.message
  | repository d => s!"{Side.repository.describe}: {d.message}"
  | database d => s!"{Side.database.describe}: {d.message}"

end Failure

end LexiconAudit
