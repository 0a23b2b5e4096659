import LexiconAudit.Proofs.Checking
import LexiconAudit.Repository.Verification

/-!
This module contains the stages of the verification of a repository that never say that an expected entry has
no form, and where that is said after all: of an entry that has none, by its place in its lexicon.
-/

namespace LexiconAudit.Repository

variable {n : Nat}

theorem avoids_compareAttributes (element : String) (record : Nat) (stored : Node)
    (attributes : List (String × String)) :
    Avoids (.entryWithoutForm n) (compareAttributes element record stored attributes) := by
  induction attributes with
  | nil => exact .ok
  | cons pair attributes ih =>
    unfold compareAttributes
    split
    . exact ih
    . split
      . exact .error nofun
      . repeat' split
        all_goals first | exact ih | exact .error nofun

mutual

theorem avoids_compare (record : Nat) (expected stored : Node) :
    Avoids (.entryWithoutForm n) (compare record expected stored) := by
  match expected with
  | ⟨name, attributes, text, children⟩ =>
    unfold compare
    refine (avoids_compareAttributes name record stored attributes).bind fun _ => ?_
    split
    . split
      . exact .ok
      . exact .error nofun
    . exact avoids_compareChildren name record stored false children

theorem avoids_compareChildren (parent : String) (record : Nat) (stored : Node) (messagesDone : Bool)
    (children : List Node) :
    Avoids (.entryWithoutForm n) (compareChildren parent record stored messagesDone children) := by
  match children with
  | [] => exact .ok
  | child :: children =>
    have hchildren (done : Bool) := avoids_compareChildren parent record stored done children
    unfold compareChildren
    split
    . dsimp only
      split
      . split
        . exact .bind (.error nofun) fun _ => hchildren true
        . exact (avoids_compare record child _).bind fun _ =>
            (avoids_compareMessages parent record 1 _ children).bind fun _ => hchildren true
      . exact hchildren true
    . dsimp only
      split
      . split
        . exact .bind (.error nofun) fun _ => hchildren messagesDone
        . exact (avoids_compare record child _).bind fun _ => hchildren messagesDone
      . split
        . exact .bind .ok fun _ => hchildren messagesDone
        . exact .bind (.error nofun) fun _ => hchildren messagesDone

theorem avoids_compareMessages (parent : String) (record index : Nat) (messages children : List Node) :
    Avoids (.entryWithoutForm n) (compareMessages parent record index messages children) := by
  match children with
  | [] => exact .ok
  | child :: children =>
    unfold compareMessages
    split
    . split
      . exact .error nofun
      . exact (avoids_compare record child _).bind fun _ => avoids_compareMessages parent record _ _ children
    . exact avoids_compareMessages parent record index messages children

end

theorem avoids_compareNotes (record : Nat) (expected stored : List Node) :
    Avoids (.entryWithoutForm n) (compareNotes record expected stored) := by
  induction expected generalizing record stored with
  | nil => exact .ok
  | cons note notes ih =>
    cases stored with
    | nil => exact .ok
    | cons found others => exact (avoids_compare record note found).bind fun _ => ih (record + 1) others

theorem avoids_loadDocument (files : Files.Tree) (path : String) :
    Avoids (.entryWithoutForm n) (loadDocument files path) := by
  unfold loadDocument
  cases files.readText path with
  | error fault => exact .error nofun
  | ok content =>
    dsimp only
    cases Xml.parse content with
    | some document => exact .ok
    | none => exact .error nofun

theorem avoids_firstContaining (files : Files.Tree) (key : List Char) (paths : List String) :
    Avoids (.entryWithoutForm n) (firstContaining files key paths) := by
  induction paths with
  | nil => exact .ok
  | cons path paths ih =>
    unfold firstContaining
    split
    . exact .error nofun
    . split
      . exact .ok
      . exact ih

theorem avoids_locate (files : Files.Tree) (root : String) (key : List Char) :
    Avoids (.entryWithoutForm n) ((Locator.ofRoot files root).locate key) := by
  refine Avoids.bind ?_ fun paths => avoids_firstContaining files key paths
  unfold lexiconFiles
  dsimp only
  split
  . exact .ok
  . exact .error nofun
  . exact .ok

theorem avoids_verifyNotes (files : Files.Tree) (locator : Locator) (notes : Node) :
    Avoids (.entryWithoutForm n) (verifyNotes files locator notes) := by
  unfold verifyNotes
  split
  . refine (avoids_loadDocument files locator.notes).bind fun document => ?_
    dsimp only
    split
    . exact avoids_compareNotes 0 _ _
    . exact .error nofun
  . exact .error nofun

section Entries

variable {files : Files.Tree} {root : String}

theorem entryForm?_eq_none_of_verifyEntry {record : Nat} {entry : Node}
    (h : verifyEntry files (.ofRoot files root) record entry = .error (.entryWithoutForm n)) :
    record = n ∧ entry.entryForm? = none := by
  unfold verifyEntry at h
  split at h
  . next hform =>
    cases h
    exact ⟨rfl, hform⟩
  . next form _ =>
    refine absurd h (Avoids.bind (avoids_locate files root _) fun path => ?_)
    split
    . exact .error nofun
    . refine (avoids_loadDocument files _).bind fun document => ?_
      split
      . exact .error nofun
      . exact avoids_compare record entry _

theorem exists_entry_of_verifyEntries {record : Nat} {entries : List Node}
    (h : verifyEntries files (.ofRoot files root) record entries = .error (.entryWithoutForm n)) :
    ∃ i entry, record + i = n ∧ entries[i]? = some entry ∧ entry.entryForm? = none := by
  induction entries generalizing record with
  | nil => cases h
  | cons entry entries ih =>
    rcases bind_eq_error_iff.1 h with h | ⟨_, _, h⟩
    . obtain ⟨hrecord, hform⟩ := entryForm?_eq_none_of_verifyEntry h
      exact ⟨0, entry, hrecord, rfl, hform⟩
    . obtain ⟨i, entry', hrecord, hentry, hform⟩ := ih h
      exact ⟨i + 1, entry', by omega, hentry, hform⟩

theorem exists_entry_of_verify {tree : Node} (h : verify files root tree = .error (.entryWithoutForm n)) :
    ∃ part ∈ tree.children, part.name = Node.lexiconName ∧
      ∃ entry, part.children[n]? = some entry ∧ entry.entryForm? = none := by
  obtain ⟨part, hpart, h⟩ := exists_of_forM_eq_error h
  unfold verifySection at h
  split at h
  . next hname =>
    obtain ⟨i, entry, hrecord, hentry, hform⟩ := exists_entry_of_verifyEntries h
    rw [Nat.zero_add] at hrecord
    exact ⟨part, hpart, hname, entry, hrecord ▸ hentry, hform⟩
  . split at h
    . exact absurd h (avoids_verifyNotes files _ part)
    . cases h

end Entries

end LexiconAudit.Repository
