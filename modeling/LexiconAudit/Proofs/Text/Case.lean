import LexiconAudit.Text.Case
import Mathlib.Data.Bool.AllAny

/-!
This module contains what the upper case of a character begins with: never a small letter of ASCII. So an
element that is named after a field with its first letter in upper case is none whose name begins with one.
-/

namespace LexiconAudit.Text

def IsSmall (n : Nat) : Prop :=
  97 ≤ n ∧ n ≤ 122

instance (n : Nat) : Decidable (IsSmall n) :=
  inferInstanceAs (Decidable (_ ∧ _))

theorem not_isSmall_ofNat {n : Nat} (h : ¬ IsSmall n) : ¬ IsSmall (Char.ofNat n).toNat := by
  by_cases hvalid : n.isValidChar
  . rw [Char.ofNat, dif_pos hvalid]
    exact h
  . rw [Char.ofNat, dif_neg hvalid]
    decide

theorem not_isSmall_toUpper {c : Char} (h : c.toNat < 0x80) : ¬ IsSmall c.toUpper.toNat := by
  have hall : ∀ n < 0x80, ¬ IsSmall (Char.ofNat n).toUpper.toNat := by decide +kernel
  rw [← Char.ofNat_toNat c]
  exact hall c.toNat h

/-! Rows of the tables. -/

theorem mem_of_floorRow? {ρ : Type} {first : ρ → Nat} {table : Array ρ} {n lo hi : Nat} {row : ρ}
    (h : floorRow? first table n lo hi = some row) : row ∈ table.toList := by
  fun_induction floorRow? first table n lo hi with
  | case1 => cases h
  | case2 lo hi _ _ found hfound _ ih =>
    rcases Option.or_eq_some_iff.1 h with hrow | ⟨-, hrow⟩
    . exact ih hrow
    . cases hrow
      exact Array.mem_toList_iff.2 (Array.mem_of_getElem? hfound)
  | case3 _ _ _ _ _ _ _ ih => exact ih h
  | case4 => cases h

def MissesSmall (row : Nat × Nat × Nat × Nat) : Prop :=
  122 < row.2.2.2 ∨ row.2.2.2 + (row.2.1 - row.1) < 97

instance : DecidablePred MissesSmall := fun _ =>
  inferInstanceAs (Decidable (_ ∨ _))

theorem missesSmall_of_mem_upperRuns : ∀ row ∈ upperRuns.toList, MissesSmall row :=
  List.all_iff_forall_prop.1 (by decide +kernel)

def BeginsOtherwise (row : Nat × List Nat) : Prop :=
  ∃ code ∈ row.2.head?, ¬ IsSmall code

instance : DecidablePred BeginsOtherwise := fun _ =>
  inferInstanceAs (Decidable (∃ code ∈ _, _))

theorem beginsOtherwise_of_mem_upperSequences : ∀ row ∈ upperSequences.toList, BeginsOtherwise row :=
  List.all_iff_forall_prop.1 (by decide +kernel)

/-! The upper case of a character. -/

theorem head?_mapCase {runs : Array (Nat × Nat × Nat × Nat)} {sequences : Array (Nat × List Nat)}
    (hruns : ∀ row ∈ runs.toList, MissesSmall row) (hsequences : ∀ row ∈ sequences.toList, BeginsOtherwise row)
    {c : Char} (hc : ¬ IsSmall c.toNat) :
    ∃ d, (mapCase runs sequences c).head? = some d ∧ ¬ IsSmall d.toNat := by
  have hsingle : ∃ d, (mapCase.single runs c).head? = some d ∧ ¬ IsSmall d.toNat := by
    unfold mapCase.single
    split
    . next first last stride target hrow =>
      have hmisses := hruns _ (mem_of_floorRow? hrow)
      unfold MissesSmall at hmisses
      dsimp only at hmisses
      split
      . next hlast =>
        refine ⟨_, rfl, not_isSmall_ofNat ?_⟩
        unfold IsSmall
        omega
      . exact ⟨c, rfl, hc⟩
    . exact ⟨c, rfl, hc⟩
  unfold mapCase
  -- sequences come first; a character without one is looked up among the runs
  split
  . next n codes hrow =>
    obtain ⟨code, hcode, hother⟩ := hsequences _ (mem_of_floorRow? hrow)
    split
    . refine ⟨Char.ofNat code, ?_, not_isSmall_ofNat hother⟩
      rw [List.head?_map, Option.mem_def.1 hcode, Option.map_some]
    . exact hsingle
  . exact hsingle

theorem head?_upperCase (c : Char) : ∃ d, (upperCase c).head? = some d ∧ ¬ IsSmall d.toNat := by
  unfold upperCase
  split
  . next h => exact ⟨c.toUpper, rfl, not_isSmall_toUpper h⟩
  . next h =>
    refine head?_mapCase missesSmall_of_mem_upperRuns beginsOtherwise_of_mem_upperSequences ?_
    unfold IsSmall
    omega

theorem upperFirst_ne {name : String} {c : Char} (hc : name.toList.head? = some c) (hsmall : IsSmall c.toNat)
    (s : String) : upperFirst s ≠ name := by
  rintro rfl
  unfold upperFirst at hc
  split at hc
  . cases hc
  . next first rest _ =>
    obtain ⟨d, hd, hother⟩ := head?_upperCase first
    rw [String.toList_ofList, List.head?_append, hd, Option.some_or] at hc
    cases hc
    exact hother hsmall

theorem upperFirst_ne_empty {s : String} (h : s ≠ "") : upperFirst s ≠ "" := by
  unfold upperFirst
  split
  . next hnil => exact absurd (String.toList_eq_nil_iff.1 hnil) h
  . next first rest _ =>
    obtain ⟨d, hd, -⟩ := head?_upperCase first
    intro hempty
    rw [String.ofList_eq_empty_iff, List.append_eq_nil_iff] at hempty
    rw [hempty.1] at hd
    cases hd

end LexiconAudit.Text
