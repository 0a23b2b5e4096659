import LexiconAudit.Text.Search

/-!
This module contains what the search for a mark finds: it finds the mark if and only if the text has a
stretch that is equal to it, and what stands behind the first such stretch does not matter.
-/

namespace LexiconAudit.Text

theorem occurs_iff {mark cs : List Char} : occurs mark cs = true ↔ mark <:+: cs := by
  unfold occurs
  constructor
  . intro h
    obtain ⟨⟨before, rest⟩, hbreak⟩ := Option.isSome_iff_exists.1 h
    exact ⟨before, rest, append_eq_of_breakAt hbreak⟩
  . intro ⟨before, rest, hcs⟩
    induction before generalizing cs with
    | nil =>
      have hafter : afterMark? mark cs = some rest := afterMark?_eq_some_iff.2 (by simp [← hcs])
      cases cs with
      | nil =>
        have hmark : mark = [] := by simp_all
        simp [breakAt, hmark]
      | cons c cs => simp [breakAt, hafter]
    | cons b before ih =>
      cases cs with
      | nil => cases hcs
      | cons c cs =>
        simp only [List.cons_append, List.cons.injEq] at hcs
        have hrest := ih hcs.2
        unfold breakAt
        split
        . rfl
        . simpa using hrest

theorem breakAt_eq_none_iff {mark cs : List Char} : breakAt mark cs = none ↔ ¬mark <:+: cs := by
  rw [← occurs_iff, occurs, Bool.not_eq_true, Option.isSome_eq_false_iff, Option.isNone_iff_eq_none]

theorem breakAt_of_afterMark? {mark cs rest : List Char} (h : afterMark? mark cs = some rest) :
    breakAt mark cs = some ([], rest) := by
  cases cs with
  | nil =>
    obtain ⟨rfl, rfl⟩ := List.append_eq_nil_iff.1 (afterMark?_eq_some_iff.1 h).symm
    rfl
  | cons c cs => rw [breakAt, h]

theorem breakAt_append {mark cs before rest : List Char} (h : breakAt mark cs = some (before, rest))
    (rest' : List Char) : breakAt mark (before ++ mark ++ rest') = some (before, rest') := by
  induction cs generalizing before with
  | nil =>
    simp only [breakAt, List.isEmpty_iff] at h
    split at h
    . next hmark =>
      cases h
      exact breakAt_of_afterMark? (afterMark?_eq_some_iff.2 rfl)
    . cases h
  | cons c cs ih =>
    simp only [breakAt] at h
    split at h
    . cases h
      exact breakAt_of_afterMark? (afterMark?_eq_some_iff.2 rfl)
    . next hafter =>
      obtain ⟨⟨before', rest⟩, hbreak, heq⟩ := Option.map_eq_some_iff.1 h
      cases heq
      have hnone : afterMark? mark (c :: (before' ++ mark ++ rest')) = none := by
        refine Option.eq_none_iff_forall_ne_some.2 fun found hfound => ?_
        -- the mark at the front would end before `rest'` begins, so it would stand in the old text as well
        have hfront : mark <+: c :: before' ++ mark ++ rest' := ⟨found, (afterMark?_eq_some_iff.1 hfound).symm⟩
        have hinside : mark <+: c :: before' ++ mark := by
          refine List.prefix_of_prefix_length_le hfront ⟨rest', rfl⟩ ?_
          simp only [List.length_cons, List.length_append]
          omega
        obtain ⟨more, hmore⟩ := hinside.trans ⟨rest, rfl⟩
        rw [← append_eq_of_breakAt hbreak, ← List.cons_append, ← List.cons_append, ← hmore] at hafter
        rw [afterMark?_eq_some_iff.2 rfl] at hafter
        cases hafter
      rw [List.cons_append, List.cons_append, breakAt, hnone, ih hbreak]
      rfl

theorem breakAt_of_not_infix {mark before : List Char} (h : ¬mark <:+: before ++ mark.dropLast) (rest : List Char) :
    breakAt mark (before ++ mark ++ rest) = some (before, rest) := by
  induction before with
  | nil => exact breakAt_of_afterMark? (afterMark?_eq_some_iff.2 rfl)
  | cons c before ih =>
    rw [List.cons_append, List.infix_cons_iff, not_or] at h
    have hnone : afterMark? mark (c :: (before ++ mark ++ rest)) = none := by
      refine Option.eq_none_iff_forall_ne_some.2 fun found hfound => h.1 ?_
      have hfront : mark <+: c :: (before ++ mark ++ rest) := ⟨found, (afterMark?_eq_some_iff.1 hfound).symm⟩
      have hprefix : c :: (before ++ mark.dropLast) <+: c :: (before ++ mark ++ rest) := by
        rw [List.append_assoc, List.prefix_cons_inj, List.prefix_append_right_inj]
        exact (List.dropLast_prefix mark).trans ⟨rest, rfl⟩
      refine List.prefix_of_prefix_length_le hfront hprefix ?_
      simp only [List.length_cons, List.length_append, List.length_dropLast]
      omega
    rw [List.cons_append, List.cons_append, breakAt, hnone, ih h.2]
    rfl

/-! The last mark. -/

theorem afterLast?_eq_none_iff {mark cs : List Char} : afterLast? mark cs = none ↔ ¬mark <:+: cs := by
  induction cs with
  | nil =>
    rw [List.infix_nil]
    simp [afterLast?]
  | cons c cs ih =>
    have hafter : afterMark? mark (c :: cs) = none ↔ ¬mark <+: c :: cs := by
      rw [Option.eq_none_iff_forall_ne_some]
      simp only [ne_eq, afterMark?_eq_some_iff, List.IsPrefix, not_exists, @eq_comm _ (c :: cs)]
    rw [afterLast?, Option.or_eq_none_iff, ih, hafter, List.infix_cons_iff, not_or, and_comm]

theorem suffix_of_afterLast? {mark cs rest : List Char} (h : afterLast? mark cs = some rest) :
    mark ++ rest <:+ cs := by
  induction cs with
  | nil =>
    simp only [afterLast?, List.isEmpty_iff] at h
    split at h <;> simp_all
  | cons c cs ih =>
    rcases Option.or_eq_some_iff.1 h with hlater | ⟨-, hafter⟩
    . exact (ih hlater).trans (List.suffix_cons c cs)
    . exact ⟨[], (afterMark?_eq_some_iff.1 hafter).symm⟩

end LexiconAudit.Text
