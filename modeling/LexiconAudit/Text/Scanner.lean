import LexiconAudit.Reading
import LexiconAudit.Text.Search

/-!
This module contains scanners: readers of characters for formats whose faults are all alike, so that a text
either has the wanted form or is malformed.
-/

namespace LexiconAudit.Text

structure Malformed where
  deriving DecidableEq, Repr

abbrev Scanner := Reading (List Char) Malformed

namespace Scanner

variable {α : Type}

def fail : Scanner α :=
  Reading.fail {}

def require (b : Bool) : Scanner Unit :=
  if b then return () else fail

def front : Scanner (Option Char) where
  run cs := .ok (cs.head?, cs)
  size_le h := by
    cases h
    exact Nat.le_refl _

def next : Scanner Char where
  run
    | [] => .error {}
    | c :: cs => .ok (c, cs)
  size_le {cs c rest} h := by
    split at h
    . cases h
    . cases h
      exact Nat.le_succ _

theorem strict_next : next.Strict := by
  intro cs c rest h
  simp only [next] at h
  split at h
  . cases h
  . cases h
    exact Nat.lt_succ_self _

def expect (c : Char) : Scanner Unit := do
  if (← next) = c then return () else fail

theorem strict_expect (c : Char) : (expect c).Strict :=
  strict_next.bind_left _

def takeWhile (p : Char → Bool) : Scanner (List Char) where
  run cs := .ok (cs.takeWhile p, cs.dropWhile p)
  size_le h := by
    cases h
    exact (List.dropWhile_suffix p).length_le

def takeWhile1 (p : Char → Bool) : Scanner (List Char) := do
  let c ← next
  if p c then return c :: (← takeWhile p) else fail

theorem strict_takeWhile1 (p : Char → Bool) : (takeWhile1 p).Strict :=
  strict_next.bind_left _

def take : (n : Nat) → Scanner (List Char)
  | 0 => return []
  | n + 1 => do return (← next) :: (← take n)

def startsWith (mark : String) : Scanner Bool where
  run cs := .ok ((afterMark? mark.toList cs).isSome, cs)
  size_le h := by
    cases h
    exact Nat.le_refl _

theorem length_le_of_afterMark? {mark cs rest : List Char} (h : afterMark? mark cs = some rest) :
    rest.length ≤ cs.length := by
  rw [afterMark?_eq_some_iff.1 h, List.length_append]
  exact Nat.le_add_left _ _

def literal (mark : String) : Scanner Unit where
  run cs :=
    match afterMark? mark.toList cs with
    | some rest => .ok ((), rest)
    | none => .error {}
  size_le h := by
    split at h
    . next hafter =>
      cases h
      exact length_le_of_afterMark? hafter
    . cases h

theorem strict_literal {mark : String} (h : mark.toList ≠ []) : (literal mark).Strict := by
  intro cs a rest hrun
  simp only [literal] at hrun
  split at hrun
  . next hafter =>
    cases hrun
    have := List.length_pos_iff.2 h
    rw [afterMark?_eq_some_iff.1 hafter]
    simp only [Source.size_list, List.length_append]
    omega
  . cases hrun

def optional (mark : String) : Scanner Bool where
  run cs :=
    match afterMark? mark.toList cs with
    | some rest => .ok (true, rest)
    | none => .ok (false, cs)
  size_le h := by
    split at h
    . next hafter =>
      cases h
      exact length_le_of_afterMark? hafter
    . cases h
      exact Nat.le_refl _

/--
Take the text before the first occurrence of `mark`, and the mark.
-/
def before (mark : String) : Scanner (List Char) where
  run cs :=
    match breakAt mark.toList cs with
    | some found => .ok found
    | none => .error {}
  size_le h := by
    split at h
    . next hbreak =>
      cases h
      have := congrArg List.length (append_eq_of_breakAt hbreak)
      simp only [List.length_append, Source.size_list] at this ⊢
      omega
    . cases h

def finish : Scanner Unit where
  run
    | [] => .ok ((), [])
    | _ :: _ => .error {}
  size_le {cs a rest} h := by
    split at h
    . cases h
      exact Nat.le_refl _
    . cases h

end Scanner

end LexiconAudit.Text
