import LexiconAudit.Proofs.Xml.Writable
import LexiconAudit.Xml.Content

/-!
This module contains what becomes of written texts and attribute values once their references are resolved:
they are what they were before they were written.
-/

namespace LexiconAudit.Xml

open Node (escapedChar escapedQuotedChar escapedText escapedValue)

/-! A character is written as itself or as a reference to it. -/

theorem escapedChar_cases (c : Char) : (escapedChar c = [c] ∧ c ≠ '&') ∨
    ∃ body, escapedChar c = '&' :: body ∧ ∀ rest, Scan.reference.run (body ++ rest) = .ok (.char c, rest) := by
  unfold escapedChar
  split
  . exact .inr ⟨"amp;".toList, rfl, fun _ => rfl⟩
  . exact .inr ⟨"lt;".toList, rfl, fun _ => rfl⟩
  . exact .inr ⟨"gt;".toList, rfl, fun _ => rfl⟩
  . next hamp _ _ => exact .inl ⟨rfl, hamp⟩

theorem escapedQuotedChar_cases (c : Char) : (escapedQuotedChar c = [c] ∧ c ≠ '&') ∨
    ∃ body, escapedQuotedChar c = '&' :: body ∧
      ∀ rest, Scan.reference.run (body ++ rest) = .ok (.char c, rest) := by
  unfold escapedQuotedChar
  split
  . next hquote =>
    subst hquote
    exact .inr ⟨"quot;".toList, rfl, fun _ => rfl⟩
  . exact escapedChar_cases c

/-! Attribute values. -/

section Value

variable (entities : Entities) (expand : Nat → List Char → Option (List Char × Nat)) (references : Nat)

theorem valueWith_nil (nested : Bool) :
    valueWith entities expand nested references [] = some ([], references) := by
  rw [valueWith]

theorem valueWith_cons (nested : Bool) {c : Char} (hamp : c ≠ '&') (hreturn : c ≠ '\r') (cs : List Char) :
    valueWith entities expand nested references (c :: cs) = do
      let (value, references) ← valueWith entities expand nested references cs
      return (valueChar c :: value, references) := by
  rw [valueWith]
  . intro _ heq
    exact absurd heq hreturn
  . exact hamp

theorem valueWith_reference {c : Char} {cs rest : List Char}
    (h : Scan.reference.run cs = .ok (.char c, rest)) :
    valueWith entities expand false references ('&' :: cs) = do
      let (value, references) ← valueWith entities expand false references rest
      return (c :: value, references) := by
  rw [valueWith]
  split
  . next heq => cases heq.symm.trans h
  . next heq =>
    cases heq.symm.trans h
    rfl
  . next heq => cases heq.symm.trans h

theorem valueChar_of_plain {c : Char} (h : c ≠ '\t' ∧ c ≠ '\n' ∧ c ≠ '\r') : valueChar c = c := by
  unfold valueChar
  rw [if_neg]
  rintro (heq | heq | heq)
  . exact h.2.1 heq
  . exact h.2.2 heq
  . exact h.1 heq

theorem valueWith_flatMap {cs : List Char} (h : ∀ c ∈ cs, c ≠ '\t' ∧ c ≠ '\n' ∧ c ≠ '\r') :
    valueWith entities expand false references (cs.flatMap escapedQuotedChar) = some (cs, references) := by
  induction cs with
  | nil => exact valueWith_nil entities expand references false
  | cons c cs ih =>
    rw [List.forall_mem_cons] at h
    rw [List.flatMap_cons]
    rcases escapedQuotedChar_cases c with ⟨hself, hamp⟩ | ⟨body, hbody, hrun⟩
    . rw [hself, List.singleton_append, valueWith_cons _ _ _ _ hamp h.1.2.2, ih h.2, valueChar_of_plain h.1]
      rfl
    . rw [hbody, List.cons_append, valueWith_reference _ _ _ (hrun _), ih h.2]
      rfl

end Value

theorem value_escapedValue (entities : Entities) (references : Nat) {pair : String × String}
    (h : WritableAttribute pair) :
    value entities maxNesting references (escapedValue pair.2) = some (pair.2.toList, references) :=
  valueWith_flatMap entities _ references h.plain

/-! Texts. -/

section Text

variable (entities : Entities) (expand : Building → List Char → Option Building) (b : Building)

theorem pushLine_of_plain {text : Reversed} {c : Char} (htext : '\r' ∉ text) (hc : c ≠ '\r') (atEnd : Bool) :
    pushLine text c atEnd = c :: text := by
  unfold pushLine
  split
  . exact absurd List.mem_cons_self htext
  . exact if_neg fun h => hc h.2

theorem textWith_nil (nested : Bool) (text : Reversed) (exact : Bool) :
    textWith entities expand nested b text exact [] = some (b.addText text.reverse) := by
  rw [textWith]

theorem textWith_cons (nested : Bool) {text : Reversed} {c : Char} (htext : '\r' ∉ text) (hamp : c ≠ '&')
    (hreturn : c ≠ '\r') (exact : Bool) (cs : List Char) :
    textWith entities expand nested b text exact (c :: cs) =
      textWith entities expand nested b (c :: text) false cs := by
  rw [textWith, pushLine_of_plain htext hreturn, ite_self]
  exact hamp

theorem textWith_reference {text : Reversed} {c : Char} {cs rest : List Char} (exact : Bool)
    (h : Scan.reference.run cs = .ok (.char c, rest)) :
    textWith entities expand false b text exact ('&' :: cs) =
      textWith entities expand false b (c :: text) true rest := by
  rw [textWith]
  split
  . next heq => cases heq.symm.trans h
  . next heq =>
    cases heq.symm.trans h
    rfl
  . next heq => cases heq.symm.trans h

theorem textWith_flatMap {text : Reversed} {cs : List Char} (htext : '\r' ∉ text) (hcs : '\r' ∉ cs)
    (exact : Bool) : textWith entities expand false b text exact (cs.flatMap escapedChar) =
      some (b.addText (text.reverse ++ cs)) := by
  induction cs generalizing text exact with
  | nil => rw [List.flatMap_nil, textWith_nil, List.append_nil]
  | cons c cs ih =>
    rw [List.mem_cons, not_or] at hcs
    have hpushed : '\r' ∉ c :: text := by
      rw [List.mem_cons, not_or]
      exact ⟨hcs.1, htext⟩
    have happend : text.reverse ++ c :: cs = (c :: text).reverse ++ cs := by simp
    rw [List.flatMap_cons, happend]
    rcases escapedChar_cases c with ⟨hself, hamp⟩ | ⟨body, hbody, hrun⟩
    . rw [hself, List.singleton_append, textWith_cons _ _ _ _ htext hamp (Ne.symm hcs.1)]
      exact ih hpushed hcs.2 false
    . rw [hbody, List.cons_append, textWith_reference _ _ _ _ (hrun _)]
      exact ih hpushed hcs.2 true

theorem textWith_escapedText {text : String} (h : WritableText text) :
    textWith entities expand false b [] false (escapedText text) = some (b.addText text.toList) := by
  have hreturn : '\r' ∉ text.toList := fun hmem => h.plain '\r' hmem rfl
  exact textWith_flatMap entities expand b List.not_mem_nil hreturn false

end Text

end LexiconAudit.Xml
