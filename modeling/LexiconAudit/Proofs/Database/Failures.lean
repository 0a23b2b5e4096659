import LexiconAudit.Database.Verification
import LexiconAudit.Proofs.Database.Matching

/-!
This module contains the stages of the verification of a database that never say that an expected entry has no
lexeme, and where that is said after all: of an entry that has none, by its place in its lexicon.
-/

namespace LexiconAudit.Database

variable {n : Nat}

theorem avoids_compareSystems (field : String) (record : Nat) (stored : Json) (texts : List (String × String)) :
    Avoids (.entryWithoutLexeme n) (compareSystems field record stored texts) := by
  induction texts with
  | nil => exact .ok
  | cons pair texts ih =>
    unfold compareSystems
    split
    . exact .error nofun
    . split
      . exact ih
      . exact .error nofun

theorem avoids_compareText (field : String) (record : Nat) (expected : Node) (stored : Json) :
    Avoids (.entryWithoutLexeme n) (compareText field record expected stored) := by
  unfold compareText
  split
  . split
    . exact .ok
    . exact .error nofun
  . exact .ok
  . exact avoids_compareSystems field record stored _

mutual

theorem avoids_compareField (record : Nat) (fields : List (String × Json)) (expected : Node) :
    Avoids (.entryWithoutLexeme n) (compareField record fields expected) := by
  match expected with
  | ⟨name, attributes, text, children⟩ =>
    rw [compareField_eq]
    split
    . unfold requireAbsence
      split
      . exact .error nofun
      . exact .ok
    . split
      . exact .error nofun
      . unfold compareStored
        split
        . split
          . dsimp only
            split
            . exact avoids_compareSenses record 0 _ children
            . exact .error nofun
          . exact .error nofun
        . exact avoids_compareText _ record _ _

theorem avoids_compareSenses (record index : Nat) (senses : List Json) (children : List Node) :
    Avoids (.entryWithoutLexeme n) (compareSenses record index senses children) := by
  match children with
  | [] => exact .ok
  | ⟨name, attributes, text, parts⟩ :: children =>
    unfold compareSenses
    split
    . split
      . exact .ok
      . exact (avoids_compareFields record _ parts).bind fun _ => avoids_compareSenses record _ _ children
      . exact .error nofun
    . exact avoids_compareSenses record index senses children

theorem avoids_compareFields (record : Nat) (fields : List (String × Json)) (nodes : List Node) :
    Avoids (.entryWithoutLexeme n) (compareFields record fields nodes) := by
  match nodes with
  | [] => exact .ok
  | node :: nodes =>
    unfold compareFields
    exact (avoids_compareField record fields node).bind fun _ => avoids_compareFields record fields nodes

end

theorem avoids_fetch (store : Store) (database collection : String) :
    Avoids (.entryWithoutLexeme n) (fetch store database collection) := by
  unfold fetch
  split
  . exact .ok
  . exact .error nofun

theorem avoids_compareReplies (key : String) (record index : Nat) (expected found : List String) :
    Avoids (.entryWithoutLexeme n) (compareReplies key record index expected found) := by
  induction expected generalizing index found with
  | nil => exact .ok
  | cons text texts ih =>
    cases found with
    | nil => exact .ok
    | cons other others =>
      rw [compareReplies]
      split
      . exact ih (index + 1) others
      . exact .error nofun

theorem avoids_compareThread (key : String) (record : Nat) (comment : Json) (thread : Thread) :
    Avoids (.entryWithoutLexeme n) (compareThread key record comment thread) := by
  refine Avoids.bind ?_ fun _ => ?_
  . unfold compareStatus
    split
    . exact .ok
    . dsimp only
      split
      . exact .ok
      . exact .error nofun
  . dsimp only
    split
    . exact .error nofun
    . exact avoids_compareReplies key record 0 _ _

theorem avoids_matchNote (record : Nat) (note : Node) (comments : List OpenComment) :
    Avoids (.entryWithoutLexeme n) (matchNote record note comments) := by
  unfold matchNote
  split
  . exact .error nofun
  . dsimp only
    split
    . split
      . exact (avoids_compareThread _ record _ _).bind fun _ => .ok
      . exact .ok
    . split
      . exact .error nofun
      . split <;> exact .error nofun

theorem avoids_matchNotes (record : Nat) (notes : List Node) (comments : List OpenComment) :
    Avoids (.entryWithoutLexeme n) (matchNotes record notes comments) := by
  induction notes generalizing record comments with
  | nil => exact .ok
  | cons note notes ih => exact (avoids_matchNote record note comments).bind fun rest => ih (record + 1) rest

theorem avoids_targets (position : Nat) (comments : List Json) :
    Avoids (.entryWithoutLexeme n) (targets position comments) := by
  induction comments generalizing position with
  | nil => exact .ok
  | cons comment comments ih =>
    unfold targets
    split
    . exact .error nofun
    . exact (ih (position + 1)).bind fun _ => .ok

theorem avoids_keys (index : LexiconIndex) (ts : List Target) :
    Avoids (.entryWithoutLexeme n) (ts.mapM (Target.key index)) := by
  intro h
  obtain ⟨t, -, h⟩ := exists_of_mapM_eq_error h
  unfold Target.key at h
  split at h
  . cases h
  . split at h <;> cases h

theorem avoids_openComments (store : Store) (database : String) :
    Avoids (.entryWithoutLexeme n) (openComments store database) := by
  refine (avoids_fetch store database commentsCollection).bind fun comments => ?_
  refine (avoids_targets 0 _).bind fun ts => ?_
  dsimp only
  split
  . refine (avoids_fetch store database lexiconCollection).bind fun documents => ?_
    exact (avoids_keys _ ts).bind fun _ => .ok
  . exact (avoids_keys _ ts).bind fun _ => .ok

theorem avoids_verifyNotes (store : Store) (database : String) (notes : Node) :
    Avoids (.entryWithoutLexeme n) (verifyNotes store database notes) := by
  refine (avoids_openComments store database).bind fun comments => ?_
  dsimp only
  split
  . exact avoids_matchNotes 0 _ comments
  . exact .error nofun

theorem expectedHeadword?_eq_none_of_verifyEntry {index : LexiconIndex} {record : Nat} {entry : Node}
    (h : verifyEntry index record entry = .error (.entryWithoutLexeme n)) :
    record = n ∧ expectedHeadword? entry = none := by
  unfold verifyEntry at h
  split at h
  . next hword =>
    cases h
    exact ⟨rfl, hword⟩
  . split at h
    . cases h
    . exact absurd h (avoids_compareFields record _ _)

theorem exists_entry_of_verifyEntries {index : LexiconIndex} {record : Nat} {entries : List Node}
    (h : verifyEntries index record entries = .error (.entryWithoutLexeme n)) :
    ∃ i entry, record + i = n ∧ entries[i]? = some entry ∧ expectedHeadword? entry = none := by
  induction entries generalizing record with
  | nil => cases h
  | cons entry entries ih =>
    rcases bind_eq_error_iff.1 h with h | ⟨_, _, h⟩
    . obtain ⟨hrecord, hword⟩ := expectedHeadword?_eq_none_of_verifyEntry h
      exact ⟨0, entry, hrecord, rfl, hword⟩
    . obtain ⟨i, entry', hrecord, hentry, hword⟩ := ih h
      exact ⟨i + 1, entry', by omega, hentry, hword⟩

theorem exists_entry_of_verify {store : Store} {database : String} {tree : Node}
    (h : verify store database tree = .error (.entryWithoutLexeme n)) :
    ∃ part ∈ tree.children, part.name = Node.lexiconName ∧
      ∃ entry, part.children[n]? = some entry ∧ expectedHeadword? entry = none := by
  obtain ⟨part, hpart, h⟩ := exists_of_forM_eq_error h
  unfold verifySection at h
  split at h
  . next hname =>
    rcases bind_eq_error_iff.1 h with h | ⟨documents, _, h⟩
    . exact absurd h (avoids_fetch store database _)
    . dsimp only at h
      split at h
      . cases h
      . obtain ⟨i, entry, hrecord, hentry, hword⟩ := exists_entry_of_verifyEntries h
        rw [Nat.zero_add] at hrecord
        exact ⟨part, hpart, hname, entry, hrecord ▸ hentry, hword⟩
  . split at h
    . exact absurd h (avoids_verifyNotes store database part)
    . cases h

end LexiconAudit.Database
