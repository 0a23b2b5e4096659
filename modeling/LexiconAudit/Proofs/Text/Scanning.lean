import LexiconAudit.Proofs.Reading
import LexiconAudit.Text.Scanner

/-!
This module contains the runs of the basic scanners on texts that begin with what they look for, and on
texts that do not.
-/

namespace LexiconAudit.Text.Scanner

open Reading

theorem run_next_cons (c : Char) (cs : List Char) : next.run (c :: cs) = .ok (c, cs) := rfl

theorem run_front (cs : List Char) : front.run cs = .ok (cs.head?, cs) := rfl

theorem run_require {b : Bool} (h : b = true) (cs : List Char) : (require b).run cs = .ok ((), cs) := by
  rw [h]
  rfl

theorem run_expect_cons (c : Char) (cs : List Char) : (expect c).run (c :: cs) = .ok ((), cs) := by
  unfold expect
  rw [run_bind_of_run (run_next_cons c cs), if_pos rfl]
  rfl

section TakeWhile

variable {p : Char → Bool} {run rest : List Char} (hrun : ∀ c ∈ run, p c = true)
  (hrest : ∀ c, rest.head? = some c → p c = false)

include hrun hrest

theorem takeWhile_append : (run ++ rest).takeWhile p = run := by
  rw [List.takeWhile_append_of_pos hrun]
  cases rest with
  | nil => simp
  | cons c rest => simp [hrest c rfl]

theorem dropWhile_append : (run ++ rest).dropWhile p = rest := by
  rw [List.dropWhile_append_of_pos hrun]
  cases rest with
  | nil => rfl
  | cons c rest => simp [hrest c rfl]

theorem run_takeWhile_append : (takeWhile p).run (run ++ rest) = .ok (run, rest) := by
  change Except.ok ((run ++ rest).takeWhile p, (run ++ rest).dropWhile p) = _
  rw [takeWhile_append hrun hrest, dropWhile_append hrun hrest]

theorem run_takeWhile1_append (hne : run ≠ []) : (takeWhile1 p).run (run ++ rest) = .ok (run, rest) := by
  cases run with
  | nil => exact absurd rfl hne
  | cons c run =>
    rw [List.forall_mem_cons] at hrun
    unfold takeWhile1
    rw [List.cons_append, run_bind_of_run (run_next_cons c _), if_pos hrun.1,
      run_bind_of_run (run_takeWhile_append hrun.2 hrest)]
    rfl

end TakeWhile

theorem run_takeWhile_of_neg {p : Char → Bool} {rest : List Char}
    (h : ∀ c, rest.head? = some c → p c = false) : (takeWhile p).run rest = .ok ([], rest) :=
  @run_takeWhile_append p [] rest nofun h

theorem afterMark?_eq_none {mark before more cs : List Char} {m c : Char} (h : mark = before ++ m :: more)
    (hne : m ≠ c) : afterMark? mark (before ++ c :: cs) = none := by
  apply Option.eq_none_iff_forall_ne_some.2
  intro rest hrest
  rw [afterMark?_eq_some_iff, h, List.append_assoc, List.append_cancel_left_eq] at hrest
  cases hrest
  exact hne rfl

theorem run_optional_of_ne (before : List Char) {mark : String} {more cs : List Char} {m c : Char}
    (h : mark.toList = before ++ m :: more) (hne : m ≠ c) :
    (optional mark).run (before ++ c :: cs) = .ok (false, before ++ c :: cs) := by
  simp only [optional, afterMark?_eq_none h hne]

theorem run_startsWith_of_ne (before : List Char) {mark : String} {more cs : List Char} {m c : Char}
    (h : mark.toList = before ++ m :: more) (hne : m ≠ c) :
    (startsWith mark).run (before ++ c :: cs) = .ok (false, before ++ c :: cs) := by
  simp only [startsWith, afterMark?_eq_none h hne, Option.isSome_none]

end LexiconAudit.Text.Scanner
