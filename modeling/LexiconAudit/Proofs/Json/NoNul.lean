import LexiconAudit.Json.Reader
import LexiconAudit.Proofs.Checking
import LexiconAudit.Proofs.Reading
import Mathlib.Data.List.Basic
import Mathlib.Data.List.TakeWhile

/-!
This module contains the proof that JSON has no place for a zero character: every reader leaves as many of
them as it was given, so that a text that is read to its end holds none.
-/

namespace LexiconAudit.Json

open Reading
open Reader hiding next string number items fields value

def nuls (cs : List Char) : Nat :=
  cs.count '\x00'

theorem nuls_cons {c : Char} (h : c ≠ '\x00') (cs : List Char) : nuls (c :: cs) = nuls cs :=
  List.count_cons_of_ne h

theorem nuls_dropWhile {p : Char → Bool} (h : p '\x00' = false) (cs : List Char) :
    nuls (cs.dropWhile p) = nuls cs := by
  have htaken : nuls (cs.takeWhile p) = 0 := by
    refine List.count_eq_zero.2 fun hmem => ?_
    rw [List.mem_takeWhile_imp hmem] at h
    cases h
  conv => rhs; rw [← List.takeWhile_append_dropWhile (p := p) (l := cs)]
  rw [nuls, nuls, List.count_append]
  change _ = nuls (cs.takeWhile p) + _
  rw [htaken, Nat.zero_add]

/-! Strings. -/

theorem eq_append_of_window? {owed : Nat} {cs taken rest : List Char} (h : window? owed cs = some (taken, rest)) :
    cs = taken ++ rest := by
  fun_induction window? owed cs generalizing taken with
  | case1 =>
    cases h
    rfl
  | case2 => cases h
  | case3 owed c cs ih =>
    obtain ⟨⟨taken', rest'⟩, h', heq⟩ := Option.map_eq_some_iff.1 h
    cases heq
    rw [ih h', List.cons_append]

theorem nul_not_mem_of_numberFrom? {base n code : Nat} {cs : List Char} (h : Text.numberFrom? base n cs = some code) :
    '\x00' ∉ cs := by
  induction cs generalizing n with
  | nil => exact List.not_mem_nil
  | cons c cs ih =>
    obtain ⟨digit, hdigit, hmore⟩ := Option.bind_eq_some_iff.1 h
    rw [List.mem_cons, not_or]
    refine ⟨?_, ih hmore⟩
    rintro rfl
    cases hdigit

theorem nuls_of_hexCode {cs rest : List Char} {n : Nat} (h : hexCode cs = .ok (n, rest)) : nuls rest = nuls cs := by
  unfold hexCode at h
  split at h
  . cases h
  . next hwindow =>
    split at h
    . next hnumber =>
      cases h
      unfold Text.number? at hnumber
      split at hnumber
      . cases hnumber
      . rw [eq_append_of_window? hwindow, nuls, nuls, List.count_append,
          List.count_eq_zero.2 (nul_not_mem_of_numberFrom? hnumber), Nat.zero_add]
    . cases h

theorem nuls_of_lowSurrogate {high : Nat} {cs rest : List Char} {c : Char}
    (h : lowSurrogate high cs = .ok (c, rest)) : nuls rest = nuls cs := by
  unfold lowSurrogate at h
  split at h
  . cases h
  . cases h
  . split at h
    . cases h
    . next hcode =>
      split at h
      . simp only [Except.ok.injEq, Prod.mk.injEq] at h
        obtain ⟨-, rfl⟩ := h
        rw [nuls_of_hexCode hcode, nuls_cons (by decide), nuls_cons (by decide)]
      . cases h
  . cases h
  . cases h

theorem nuls_of_escape {cs rest : List Char} {c : Char} (h : escape cs = .ok (c, rest)) : nuls rest = nuls cs := by
  unfold escape at h
  split at h
  . cases h
  . rw [nuls_cons (by decide)]
    split at h
    . cases h
    . next hcode =>
      rw [← nuls_of_hexCode hcode]
      split at h
      . cases h
      . split at h
        . exact nuls_of_lowSurrogate h
        . cases h
          rfl
  . split at h
    . next hshort =>
      cases h
      refine (nuls_cons ?_ _).symm
      rintro rfl
      cases hshort
    . cases h

theorem nuls_of_stringBody {cs value rest : List Char} (h : stringBody cs = .ok (value, rest)) :
    nuls rest = nuls cs := by
  fun_induction stringBody cs generalizing value with
  | case1 => cases h
  | case2 cs =>
    cases h
    rw [nuls_cons (by decide)]
  | case3 => cases h
  | case4 cs c rest' hescape _ ih =>
    obtain ⟨⟨value', rest''⟩, hbody, heq⟩ := map_eq_ok_iff.1 h
    cases heq
    rw [ih hbody, nuls_of_escape hescape, nuls_cons (by decide)]
  | case5 => cases h
  | case6 c cs _ _ hcontrol ih =>
    obtain ⟨⟨value', rest''⟩, hbody, heq⟩ := map_eq_ok_iff.1 h
    cases heq
    refine (ih hbody).trans (nuls_cons ?_ _).symm
    rintro rfl
    exact hcontrol (by decide)

/-! Numbers. -/

theorem nuls_of_exponentPart {negative : Bool} {significand : Nat} {exponent : Int} {cs rest : List Char}
    {n : Number} (h : exponentPart negative significand exponent cs = .ok (n, rest)) : nuls rest = nuls cs := by
  unfold exponentPart at h
  dsimp only at h
  split at h
  . cases h
  . next c digits heq =>
    split at h
    . next hdigit =>
      have hc : c ≠ '\x00' := by
        rintro rfl
        cases hdigit
      have hdigits : nuls digits = nuls cs := by
        rw [← nuls_cons hc digits]
        split at heq
        all_goals
          cases heq
          rfl
      rw [rest_eq_of_decimal h, nuls_dropWhile rfl, hdigits]
    . cases h

theorem nuls_of_afterFraction {negative : Bool} {significand : Nat} {exponent : Int} {cs rest : List Char}
    {n : Number} (h : numberTail.afterFraction negative significand exponent cs = .ok (n, rest)) :
    nuls rest = nuls cs := by
  unfold numberTail.afterFraction at h
  split at h
  . rw [nuls_of_exponentPart h, nuls_cons (by decide)]
  . rw [nuls_of_exponentPart h, nuls_cons (by decide)]
  . rw [rest_eq_of_decimal h]

theorem nuls_of_numberTail {negative : Bool} {whole cs rest : List Char} {n : Number}
    (h : numberTail negative whole cs = .ok (n, rest)) : nuls rest = nuls cs := by
  unfold numberTail at h
  dsimp only at h
  split at h
  . split at h
    . cases h
    . cases h
    . rw [nuls_of_afterFraction h, nuls_dropWhile rfl, nuls_cons (by decide)]
  . split at h
    . cases h
      rfl
    . exact nuls_of_afterFraction h

theorem nuls_of_unsignedNumber {negative : Bool} {c : Char} {cs rest : List Char} {n : Number}
    (h : unsignedNumber negative c cs = .ok (n, rest)) : nuls rest = nuls cs := by
  unfold unsignedNumber at h
  split at h
  . split at h
    . split at h
      . cases h
      . exact nuls_of_numberTail h
    . exact nuls_of_numberTail h
  . split at h
    . rw [nuls_of_numberTail h, nuls_dropWhile rfl]
    . cases h

theorem nuls_of_signedNumber {c : Char} {cs rest : List Char} {n : Number}
    (h : signedNumber c cs = .ok (n, rest)) : nuls rest = nuls cs := by
  unfold signedNumber at h
  split at h
  . split at h
    . cases h
    . next d cs =>
      have hd : d ≠ '\x00' := by
        rintro rfl
        cases h
      rw [nuls_of_unsignedNumber h, nuls_cons hd]
  . exact nuls_of_unsignedNumber h

/-! Values. -/

theorem keeps_skipBlanks : skipBlanks.Keeps nuls := by
  intro cs a rest h
  cases h
  exact nuls_dropWhile rfl cs

theorem keeps_front : front.Keeps nuls := by
  intro cs a rest h
  cases h
  rfl

theorem keeps_reject {α : Type} (cause : Cause) : (reject cause : Reader α).Keeps nuls := by
  intro cs a rest h
  cases h

theorem keeps_string : Reader.string.Keeps nuls := by
  intro cs a rest h
  obtain ⟨⟨value, rest'⟩, hbody, heq⟩ := map_eq_ok_iff.1 h
  cases heq
  exact nuls_of_stringBody hbody

theorem keeps_number (c : Char) : (Reader.number c).Keeps nuls :=
  fun _ _ _ h => nuls_of_signedNumber h

theorem keeps_next {α : Type} {r : Char → Reader α} (hnul : ∀ cs, ∃ m, (r '\x00').run cs = .error m)
    (hr : ∀ c, (r c).Keeps nuls) : (Reader.next >>= r).Keeps nuls := by
  intro cs a rest h
  obtain ⟨c, cs', hnext, hmore⟩ := run_bind_eq_ok_iff.1 h
  cases cs with
  | nil => cases hnext
  | cons d cs =>
    cases hnext
    refine (hr c hmore).trans (nuls_cons ?_ _).symm
    rintro rfl
    obtain ⟨m, hm⟩ := hnul cs'
    cases hmore.symm.trans hm

theorem keeps_letters (name : List Char) (h : '\x00' ∉ name) : (letters name).Keeps nuls := by
  induction name with
  | nil => exact .pure ()
  | cons c name ih =>
    rw [List.mem_cons, not_or] at h
    unfold letters
    refine keeps_next (fun cs => ⟨⟨.unexpectedCharacter, cs⟩, ?_⟩) fun d => ?_
    . rw [if_neg h.1]
      rfl
    . split
      . exact ih h.2
      . exact keeps_reject _

theorem keeps_close {α : Type} {mark : Char} (hmark : mark ≠ '\x00') (empty : α) {parts : Reader α}
    (hparts : parts.Keeps nuls) : (do
      if (← front) = some mark then
        let _ ← Reader.next
        return empty
      else
        parts).Keeps nuls := by
  intro cs a rest h
  obtain ⟨c, cs', hfront, hmore⟩ := run_bind_eq_ok_iff.1 h
  cases hfront
  split at hmore
  . next hclose =>
    cases cs with
    | nil => cases hclose
    | cons d cs =>
      cases hclose
      cases hmore
      exact (nuls_cons hmark _).symm
  . exact hparts hmore

section Parts

variable {value : Reader Json} (hvalue : value.Keeps nuls)

include hvalue

theorem keeps_itemsRound (items : List Json) : (itemsRound value items).Keeps nuls := by
  unfold itemsRound
  refine hvalue.bind fun item => keeps_skipBlanks.bind fun _ => keeps_next (fun cs => ⟨_, rfl⟩) fun c => ?_
  split
  . refine keeps_skipBlanks.bind fun _ => keeps_front.bind fun c => ?_
    split
    . exact keeps_reject _
    . exact .pure _
  . exact .pure _
  . exact keeps_reject _

theorem keeps_items : (Reader.items value).Keeps nuls := by
  unfold Reader.items
  exact keeps_skipBlanks.bind fun _ => keeps_close (by decide) [] (.loop (keeps_itemsRound hvalue) [])

theorem keeps_fieldsRound (fields : List (String × Json)) : (fieldsRound value fields).Keeps nuls := by
  unfold fieldsRound
  refine keeps_skipBlanks.bind fun _ => keeps_next (fun cs => ⟨_, rfl⟩) fun c => ?_
  split
  . refine keeps_string.bind fun key => keeps_skipBlanks.bind fun _ => keeps_next (fun cs => ⟨_, rfl⟩) fun c => ?_
    split
    . refine hvalue.bind fun item => keeps_skipBlanks.bind fun _ => keeps_next (fun cs => ⟨_, rfl⟩) fun c => ?_
      split
      . exact .pure _
      . exact .pure _
      . exact keeps_reject _
    . exact keeps_reject _
  . exact keeps_reject _

theorem keeps_fields : (Reader.fields value).Keeps nuls := by
  unfold Reader.fields
  exact keeps_skipBlanks.bind fun _ => keeps_close (by decide) [] (.loop (keeps_fieldsRound hvalue) [])

end Parts

theorem keeps_value_of {depth : Nat}
    (hinner : ∀ inner, depth = inner + 1 → (Reader.value inner).Keeps nuls) : (Reader.value depth).Keeps nuls := by
  unfold Reader.value
  refine keeps_skipBlanks.bind fun _ => keeps_next (fun cs => ⟨_, rfl⟩) fun c => ?_
  split
  . exact (keeps_letters _ (by decide)).bind fun _ => .pure _
  . exact (keeps_letters _ (by decide)).bind fun _ => .pure _
  . exact (keeps_letters _ (by decide)).bind fun _ => .pure _
  . exact keeps_string.bind fun _ => .pure _
  . split
    . exact keeps_reject _
    . exact (keeps_items (hinner _ rfl)).bind fun _ => .pure _
  . split
    . exact keeps_reject _
    . exact (keeps_fields (hinner _ rfl)).bind fun _ => .pure _
  . split
    . exact (keeps_number c).bind fun _ => .pure _
    . exact keeps_reject _

theorem keeps_value (depth : Nat) : (Reader.value depth).Keeps nuls := by
  induction depth with
  | zero => exact keeps_value_of nofun
  | succ depth ih =>
    apply keeps_value_of
    rintro inner ⟨⟩
    exact ih

/-! Streams. -/

theorem keeps_endOfValue : endOfValue.Keeps nuls := by
  intro cs a rest h
  obtain ⟨c, cs', hfront, hmore⟩ := run_bind_eq_ok_iff.1 h
  cases hfront
  split at hmore
  . cases hmore
    rfl
  . split at hmore
    . cases hmore
      rfl
    . obtain ⟨_, _, _, hreject⟩ := run_bind_eq_ok_iff.1 hmore
      cases hreject

theorem keeps_streamItem : streamItem.Keeps nuls := by
  unfold streamItem
  refine keeps_front.bind fun c => (keeps_value _).bind fun item => ?_
  split
  . exact .pure _
  . exact keeps_endOfValue.bind fun _ => .pure _

theorem nuls_of_stream {cs : List Char} {items : List Json} (h : stream cs = .ok items) : nuls cs = 0 := by
  fun_induction stream cs generalizing items with
  | case1 cs hblank =>
    rw [← nuls_dropWhile (p := isBlank) rfl, hblank]
    rfl
  | case2 => cases h
  | case3 cs c rest hblank item rest' hitem _ ih =>
    obtain ⟨items', hmore, -⟩ := map_eq_ok_iff.1 h
    rw [← nuls_dropWhile (p := isBlank) rfl, hblank, ← keeps_streamItem hitem, ih hmore]

theorem nul_not_mem_of_parseStream {text : String} {documents : List Json}
    (h : parseStream text = .ok documents) : '\x00' ∉ text.toList :=
  List.count_eq_zero.1 (nuls_of_stream h)

end LexiconAudit.Json
