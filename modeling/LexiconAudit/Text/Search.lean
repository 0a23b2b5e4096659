/-!
This module contains the search for a mark inside a text: what follows a mark at the front, the parts
before and after its first occurrence, and whether it occurs at all.
-/

namespace LexiconAudit.Text

def afterMark? : (mark cs : List Char) → Option (List Char)
  | [], cs => some cs
  | _ :: _, [] => none
  | m :: mark, c :: cs => if m = c then afterMark? mark cs else none

theorem afterMark?_eq_some_iff {mark cs rest : List Char} :
    afterMark? mark cs = some rest ↔ cs = mark ++ rest := by
  fun_induction afterMark? mark cs with
  | case1 cs => simp
  | case2 => simp
  | case3 mark c cs ih => simp [ih]
  | case4 m mark c cs h =>
    simp only [List.cons_append, List.cons.injEq, reduceCtorEq, false_iff, not_and]
    exact fun heq => absurd heq.symm h

/--
The text before the first occurrence of `mark` and the text after it, if `mark` occurs.
-/
def breakAt (mark : List Char) : List Char → Option (List Char × List Char)
  | [] => if mark.isEmpty then some ([], []) else none
  | c :: cs =>
    match afterMark? mark (c :: cs) with
    | some rest => some ([], rest)
    | none => (breakAt mark cs).map fun (before, rest) => (c :: before, rest)

theorem append_eq_of_breakAt {mark cs before rest : List Char}
    (h : breakAt mark cs = some (before, rest)) : before ++ mark ++ rest = cs := by
  induction cs generalizing before rest with
  | nil =>
    simp only [breakAt, List.isEmpty_iff] at h
    split at h <;> simp_all
  | cons c cs ih =>
    simp only [breakAt] at h
    split at h
    . next after hafter =>
      rw [afterMark?_eq_some_iff] at hafter
      simp_all
    . next =>
      obtain ⟨⟨before', rest'⟩, hbreak, heq⟩ := Option.map_eq_some_iff.1 h
      cases heq
      simpa using ih hbreak

def occurs (mark cs : List Char) : Bool :=
  (breakAt mark cs).isSome

def afterLast? (mark : List Char) : List Char → Option (List Char)
  | [] => if mark.isEmpty then some [] else none
  | c :: cs => (afterLast? mark cs).or (afterMark? mark (c :: cs))

end LexiconAudit.Text
