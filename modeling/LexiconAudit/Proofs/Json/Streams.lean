import LexiconAudit.Proofs.Checking
import LexiconAudit.Proofs.Json.NoNul
import LexiconAudit.Proofs.Json.RoundTrip

/-!
This module contains the reading of texts that go on behind a line end: what was read of a text is read of it again
and nothing is carried over, so that the values of a stream are those of the text, followed by those of the rest.
Whatever a reader leaves, or had not looked at when it failed, is an end of its text.
-/

namespace LexiconAudit.Json

open Reading
open Reader hiding next string number items fields value

/-! Runs on a text that goes on. -/

/--
The ends of a run on `cs` and of one on `cs` with `tail` behind it. The first fails, or the second answers the same
and leaves the tail as well. An answer for which the reader has looked for more, and found the end of the text, may be
`early`.
-/
inductive GoesOn {α : Type} (tail : List Char) (early : α → Prop) (cs : List Char) :
    Except Misread (α × List Char) → Except Misread (α × List Char) → Prop where
  | ok {a : α} {rest : List Char} : rest <:+ cs → GoesOn tail early cs (.ok (a, rest)) (.ok (a, rest ++ tail))
  | early {a : α} {y : Except Misread (α × List Char)} : early a → GoesOn tail early cs (.ok (a, [])) y
  | error {m : Misread} {y : Except Misread (α × List Char)} : m.unread <:+ cs →
    GoesOn tail early cs (.error m) y

def Never {α : Type} (_ : α) : Prop :=
  False

def Always {α : Type} (_ : α) : Prop :=
  True

section GoesOn

variable {α β : Type} {tail cs ds : List Char} {early : α → Prop} {x y : Except Misread (α × List Char)}

theorem GoesOn.mono (h : GoesOn tail early cs x y) (hcs : cs <:+ ds) : GoesOn tail early ds x y := by
  cases h with
  | ok hrest => exact .ok (hrest.trans hcs)
  | early ha => exact .early ha
  | error hunread => exact .error (hunread.trans hcs)

theorem GoesOn.cons (h : GoesOn tail early cs x y) (c : Char) : GoesOn tail early (c :: cs) x y :=
  h.mono (List.suffix_cons c cs)

theorem GoesOn.unexpectedEnd : GoesOn tail early cs (.error ⟨.unexpectedEnd, []⟩) y :=
  .error List.nil_suffix

theorem GoesOn.rejected {cause : Cause} : GoesOn tail early cs (.error ⟨cause, cs⟩) y :=
  .error List.suffix_rfl

theorem GoesOn.map (f : α → β) (h : GoesOn tail Never cs x y) :
    GoesOn tail Never cs (x.map fun (a, rest) => (f a, rest)) (y.map fun (a, rest) => (f a, rest)) := by
  cases h with
  | ok hrest => exact .ok hrest
  | early ha => exact ha.elim
  | error hunread => exact .error hunread

end GoesOn

def Stable {α : Type} (tail : List Char) (early : α → Prop) (r : Reader α) : Prop :=
  ∀ cs, GoesOn tail early cs (r.run cs) (r.run (cs ++ tail))

section Stable

variable {α β : Type} {tail : List Char} {early : α → Prop} {early' : β → Prop}

theorem Stable.unread_suffix {r : Reader α} (h : Stable tail early r) {cs : List Char} {m : Misread}
    (hrun : r.run cs = .error m) : m.unread <:+ cs := by
  have hgoes := h cs
  rw [hrun] at hgoes
  cases hgoes with
  | error hunread => exact hunread

theorem Stable.run_append {r : Reader α} (h : Stable tail Never r) {cs rest : List Char} {a : α}
    (hrun : r.run cs = .ok (a, rest)) : rest <:+ cs ∧ r.run (cs ++ tail) = .ok (a, rest ++ tail) := by
  have hgoes := h cs
  rw [hrun] at hgoes
  generalize hmore : r.run (cs ++ tail) = y at hgoes
  cases hgoes with
  | ok hrest => exact ⟨hrest, rfl⟩
  | early ha => exact ha.elim

theorem Stable.pure (a : α) : Stable tail early (Pure.pure a) :=
  fun _ => .ok List.suffix_rfl

theorem Stable.reject (cause : Cause) : Stable tail early (Reader.reject cause) :=
  fun _ => .error List.suffix_rfl

theorem Stable.bind {r : Reader α} {f : α → Reader β} (hr : Stable tail early r) (hf : ∀ a, Stable tail early' (f a))
    (hend : ∀ a, early a → ∀ b rest, (f a).run [] = .ok (b, rest) → early' b) : Stable tail early' (r >>= f) := by
  intro cs
  have hgoes := hr cs
  rw [run_bind, run_bind]
  generalize r.run cs = x at hgoes
  generalize r.run (cs ++ tail) = y at hgoes
  cases hgoes with
  | ok hrest => exact (hf _ _).mono hrest
  | error hunread => exact .error hunread
  | @early a _ ha =>
    have hmore := hf a []
    dsimp only
    generalize hrun : (f a).run [] = z at hmore
    generalize (f a).run ([] ++ tail) = w at hmore
    cases hmore with
    | @ok b rest hrest =>
      cases List.suffix_nil.1 hrest
      exact .early (hend a ha b [] hrun)
    | early hb => exact .early hb
    | error hunread => exact .error (hunread.trans List.nil_suffix)

theorem Stable.then {r : Reader α} {f : α → Reader β} (hr : Stable tail Never r)
    (hf : ∀ a, Stable tail early' (f a)) : Stable tail early' (r >>= f) :=
  hr.bind hf fun _ ha => ha.elim

theorem Stable.then_strict {r : Reader α} {f : α → Reader β} (hr : Stable tail Always r)
    (hf : ∀ a, Stable tail early' (f a)) (hstrict : ∀ a, (f a).Strict) : Stable tail early' (r >>= f) :=
  hr.bind hf fun a _ _ _ hrun => absurd (hstrict a hrun) (Nat.not_lt_zero _)

def IsAgain : Round α β → Prop
  | .again _ => True
  | .done _ => False

theorem Stable.run_loop_nil {step : α → Reader (Round α β)} (hstep : ∀ a, Stable tail IsAgain (step a))
    (hstrict : ∀ a, (step a).Strict) (a : α) :
    ∃ m, (Reading.loop step (fun a => (hstrict a).advances) a).run [] = .error m ∧ m.unread = [] := by
  rw [run_loop]
  cases hrun : (step a).run [] with
  | ok p => exact absurd (hstrict a hrun) (Nat.not_lt_zero _)
  | error m => exact ⟨m, rfl, List.suffix_nil.1 ((hstep a).unread_suffix hrun)⟩

theorem Stable.loop {step : α → Reader (Round α β)} (hstep : ∀ a, Stable tail IsAgain (step a))
    (hstrict : ∀ a, (step a).Strict) (a : α) :
    Stable tail Never (Reading.loop step (fun a => (hstrict a).advances) a) := by
  intro cs
  change GoesOn tail Never cs (loop.go step _ a cs) _
  fun_induction loop.go step (fun a => (hstrict a).advances) a cs with
  | case1 a cs m heq => exact .error ((hstep a).unread_suffix heq)
  | case2 a cs b rest heq =>
    have hround := hstep a cs
    rw [heq] at hround
    generalize hmore : (step a).run (cs ++ tail) = y at hround
    cases hround with
    | early hagain => exact hagain.elim
    | ok hrest =>
      rw [run_loop_of_done hmore]
      exact .ok hrest
  | case3 a cs a' rest heq _ ih =>
    have hround := hstep a cs
    rw [heq] at hround
    generalize hmore : (step a).run (cs ++ tail) = y at hround
    cases hround with
    | ok hrest =>
      rw [run_loop_of_again hmore]
      exact ih.mono hrest
    | early =>
      obtain ⟨m, hm, hunread⟩ := Stable.run_loop_nil hstep hstrict a'
      change GoesOn tail Never cs ((Reading.loop step _ a').run []) _
      rw [hm]
      exact .error (hunread ▸ List.nil_suffix)

end Stable

/-! Strings. -/

section Strings

variable (tail : List Char)

theorem window?_append {owed : Nat} {cs taken rest : List Char} (h : window? owed cs = some (taken, rest)) :
    window? owed (cs ++ tail) = some (taken, rest ++ tail) := by
  fun_induction window? owed cs generalizing taken with
  | case1 =>
    cases h
    rw [window?]
  | case2 => cases h
  | case3 owed c cs ih =>
    obtain ⟨⟨taken', rest'⟩, h', heq⟩ := Option.map_eq_some_iff.1 h
    cases heq
    rw [List.cons_append, window?, ih h']
    rfl

theorem hexCode_goesOn (cs : List Char) : GoesOn tail Never cs (hexCode cs) (hexCode (cs ++ tail)) := by
  unfold hexCode
  cases hwindow : window? 4 cs with
  | none => exact .unexpectedEnd
  | some pair =>
    obtain ⟨taken, rest⟩ := pair
    have hrest : rest <:+ cs := ⟨taken, (eq_append_of_window? hwindow).symm⟩
    rw [window?_append tail hwindow]
    dsimp only
    split
    . exact .ok hrest
    . exact .error hrest

theorem lowSurrogate_goesOn (high : Nat) (cs : List Char) :
    GoesOn tail Never cs (lowSurrogate high cs) (lowSurrogate high (cs ++ tail)) := by
  generalize hx : lowSurrogate high cs = x
  unfold lowSurrogate at hx
  split at hx
  . rw [← hx]
    exact .unexpectedEnd
  . rw [← hx]
    exact .unexpectedEnd
  . next cs =>
    rw [← hx, List.cons_append, List.cons_append, lowSurrogate]
    have hcode := hexCode_goesOn tail cs
    generalize hexCode cs = y at hcode
    generalize hexCode (cs ++ tail) = z at hcode
    cases hcode with
    | error hunread => exact ((GoesOn.error hunread).cons _).cons _
    | early ha => exact ha.elim
    | ok hrest =>
      dsimp only
      split
      . exact ((GoesOn.ok hrest).cons _).cons _
      . exact ((GoesOn.error hrest).cons _).cons _
  . rw [← hx]
    exact (GoesOn.rejected.cons _).cons _
  . rw [← hx]
    exact GoesOn.rejected.cons _

theorem escape_goesOn (cs : List Char) : GoesOn tail Never cs (escape cs) (escape (cs ++ tail)) := by
  cases cs with
  | nil => exact .unexpectedEnd
  | cons c cs =>
    rw [List.cons_append]
    by_cases hu : c = 'u'
    . subst hu
      rw [escape, escape]
      have hcode := hexCode_goesOn tail cs
      generalize hexCode cs = y at hcode
      generalize hexCode (cs ++ tail) = z at hcode
      cases hcode with
      | error hunread => exact (GoesOn.error hunread).cons _
      | early ha => exact ha.elim
      | @ok code rest hrest =>
        dsimp only
        split
        . exact (GoesOn.error hrest).cons _
        . split
          . exact ((lowSurrogate_goesOn tail code rest).mono hrest).cons _
          . exact (GoesOn.ok hrest).cons _
    . rw [escape, escape]
      . cases shortEscape? c with
        | none => exact GoesOn.rejected.cons _
        | some value => exact (GoesOn.ok List.suffix_rfl).cons _
      . exact hu
      . exact hu

theorem stringBody_goesOn (cs : List Char) :
    GoesOn tail Never cs (stringBody cs) (stringBody (cs ++ tail)) := by
  fun_induction stringBody cs with
  | case1 => exact .unexpectedEnd
  | case2 cs =>
    rw [List.cons_append, stringBody]
    exact (GoesOn.ok List.suffix_rfl).cons _
  | case3 cs m hescape =>
    have hgoes := escape_goesOn tail cs
    rw [hescape] at hgoes
    cases hgoes with
    | error hunread => exact (GoesOn.error hunread).cons _
  | case4 cs c rest hescape _ ih =>
    have hgoes := escape_goesOn tail cs
    rw [hescape] at hgoes
    generalize hmore : escape (cs ++ tail) = y at hgoes
    cases hgoes with
    | early ha => exact ha.elim
    | ok hrest =>
      rw [List.cons_append, stringBody_escape hmore]
      exact ((ih.mono hrest).cons _).map _
  | case5 c cs => exact GoesOn.rejected.cons _
  | case6 c cs hquote hslash hcontrol ih =>
    rw [List.cons_append, stringBody, if_neg hcontrol]
    . exact (ih.cons _).map _
    . assumption
    . assumption

theorem stable_string : Stable tail Never Reader.string :=
  fun cs => (stringBody_goesOn tail cs).map String.ofList

end Strings

/-! Numbers. -/

section Numbers

variable (more : List Char)

theorem takeWhile_append_end {p : Char → Bool} {c : Char} (h : p c = false) (cs : List Char) :
    (cs ++ c :: more).takeWhile p = cs.takeWhile p ∧ (cs ++ c :: more).dropWhile p = cs.dropWhile p ++ c :: more := by
  induction cs with
  | nil => simp [h]
  | cons d cs ih => cases hd : p d <;> simp [hd, ih]

theorem takeWhile_lineEnd (cs : List Char) : (cs ++ '\n' :: more).takeWhile Char.isDigit = cs.takeWhile Char.isDigit ∧
    (cs ++ '\n' :: more).dropWhile Char.isDigit = cs.dropWhile Char.isDigit ++ '\n' :: more :=
  takeWhile_append_end more (by decide) cs

theorem decimal_goesOn (tail : List Char) (negative : Bool) (significand : Nat) (exponent : Int) (cs : List Char) :
    GoesOn tail Never cs (decimal negative significand exponent cs)
      (decimal negative significand exponent (cs ++ tail)) := by
  unfold decimal
  dsimp only
  split
  . exact .ok List.suffix_rfl
  . exact .rejected

def exponentSign : List Char → Bool × List Char
  | '+' :: cs => (false, cs)
  | '-' :: cs => (true, cs)
  | cs => (false, cs)

def exponentDigits (negative : Bool) (significand : Nat) (exponent : Int) (below : Bool) :
    List Char → Except Misread (Number × List Char)
  | [] => .error ⟨.unexpectedEnd, []⟩
  | c :: rest =>
    if c.isDigit then
      let shift : Int := (Text.number? 10 (c :: rest.takeWhile Char.isDigit)).getD 0
      decimal negative significand (if below then exponent - shift else exponent + shift)
        (rest.dropWhile Char.isDigit)
    else
      .error ⟨.invalidNumber, rest⟩

variable (negative : Bool) (significand : Nat) (exponent : Int)

theorem exponentPart_eq (cs : List Char) : exponentPart negative significand exponent cs =
    exponentDigits negative significand exponent (exponentSign cs).1 (exponentSign cs).2 := rfl

theorem exponentSign_append (cs : List Char) : (exponentSign cs).2 <:+ cs ∧
    exponentSign (cs ++ '\n' :: more) = ((exponentSign cs).1, (exponentSign cs).2 ++ '\n' :: more) := by
  cases cs with
  | nil => exact ⟨List.suffix_rfl, rfl⟩
  | cons c cs =>
    by_cases hplus : c = '+'
    . subst hplus
      exact ⟨List.suffix_cons _ _, rfl⟩
    by_cases hminus : c = '-'
    . subst hminus
      exact ⟨List.suffix_cons _ _, rfl⟩
    simp [exponentSign, hplus, hminus]

theorem exponentDigits_goesOn (below : Bool) (cs : List Char) :
    GoesOn ('\n' :: more) Never cs (exponentDigits negative significand exponent below cs)
      (exponentDigits negative significand exponent below (cs ++ '\n' :: more)) := by
  cases cs with
  | nil => exact .unexpectedEnd
  | cons c cs =>
    obtain ⟨htake, hdrop⟩ := takeWhile_lineEnd more cs
    rw [List.cons_append, exponentDigits, exponentDigits, htake, hdrop]
    split
    . exact ((decimal_goesOn _ _ _ _ _).mono (List.dropWhile_suffix _)).cons _
    . exact GoesOn.rejected.cons _

theorem exponentPart_goesOn (cs : List Char) :
    GoesOn ('\n' :: more) Never cs (exponentPart negative significand exponent cs)
      (exponentPart negative significand exponent (cs ++ '\n' :: more)) := by
  obtain ⟨hsuffix, hsign⟩ := exponentSign_append more cs
  rw [exponentPart_eq, exponentPart_eq, hsign]
  exact (exponentDigits_goesOn more negative significand exponent _ _).mono hsuffix

theorem afterFraction_goesOn (cs : List Char) :
    GoesOn ('\n' :: more) Never cs (numberTail.afterFraction negative significand exponent cs)
      (numberTail.afterFraction negative significand exponent (cs ++ '\n' :: more)) := by
  cases cs with
  | nil => exact decimal_goesOn _ _ _ _ []
  | cons c cs =>
    rw [List.cons_append]
    by_cases hlower : c = 'e'
    . subst hlower
      rw [numberTail.afterFraction, numberTail.afterFraction]
      exact (exponentPart_goesOn more _ _ _ cs).cons _
    by_cases hupper : c = 'E'
    . subst hupper
      rw [numberTail.afterFraction, numberTail.afterFraction]
      exact (exponentPart_goesOn more _ _ _ cs).cons _
    rw [numberTail.afterFraction, numberTail.afterFraction]
    . exact decimal_goesOn _ _ _ _ (c :: cs)
    all_goals
      rintro _ ⟨⟩
      contradiction

/--
The rest of a number behind its point, with the digits of the fraction and what is behind them.
-/
def fractionTail : (fraction rest : List Char) → Except Misread (Number × List Char)
  | [], [] => .error ⟨.unexpectedEnd, []⟩
  | [], _ :: rest => .error ⟨.invalidNumber, rest⟩
  | c :: fraction, rest =>
    numberTail.afterFraction negative (extend significand (c :: fraction)).1
      (exponent - (extend significand (c :: fraction)).2) rest

theorem numberTail_point (whole cs : List Char) : numberTail negative whole ('.' :: cs) =
    fractionTail negative (extend 0 whole).1 (whole.length - (extend 0 whole).2) (cs.takeWhile Char.isDigit)
      (cs.dropWhile Char.isDigit) := by
  simp only [numberTail]
  cases cs.takeWhile Char.isDigit with
  | nil => cases cs.dropWhile Char.isDigit <;> rfl
  | cons => rfl

theorem numberTail_of_ne {cs : List Char} (h : ∀ digits, cs ≠ '.' :: digits) (whole : List Char) :
    numberTail negative whole cs =
      if (extend 0 whole).2 = whole.length ∧ cs.head? ≠ some 'e' ∧ cs.head? ≠ some 'E' then
        .ok (wholeNumber negative (extend 0 whole).1, cs)
      else
        numberTail.afterFraction negative (extend 0 whole).1 (whole.length - (extend 0 whole).2) cs := by
  unfold numberTail
  dsimp only
  split
  . next digits => exact absurd rfl (h digits)
  . rfl

theorem fractionTail_goesOn (fraction cs : List Char) :
    GoesOn ('\n' :: more) Never cs (fractionTail negative significand exponent fraction cs)
      (fractionTail negative significand exponent fraction (cs ++ '\n' :: more)) := by
  cases fraction with
  | nil =>
    cases cs with
    | nil => exact .unexpectedEnd
    | cons c cs => exact GoesOn.rejected.cons _
  | cons => exact afterFraction_goesOn more _ _ _ cs

theorem numberTail_goesOn (whole cs : List Char) :
    GoesOn ('\n' :: more) Never cs (numberTail negative whole cs) (numberTail negative whole (cs ++ '\n' :: more)) := by
  by_cases hpoint : ∃ digits, cs = '.' :: digits
  . obtain ⟨digits, rfl⟩ := hpoint
    obtain ⟨htake, hdrop⟩ := takeWhile_lineEnd more digits
    rw [List.cons_append, numberTail_point, numberTail_point, htake, hdrop]
    exact ((fractionTail_goesOn more _ _ _ _ _).mono (List.dropWhile_suffix _)).cons _
  . rw [not_exists] at hpoint
    have hpoint' : ∀ digits, cs ++ '\n' :: more ≠ '.' :: digits := by
      intro digits heq
      cases cs with
      | nil => cases heq
      | cons c cs =>
        cases heq
        exact hpoint _ rfl
    have hhead : (cs ++ '\n' :: more).head? ≠ some 'e' ∧ (cs ++ '\n' :: more).head? ≠ some 'E' ↔
        cs.head? ≠ some 'e' ∧ cs.head? ≠ some 'E' := by
      cases cs with
      | nil => simp
      | cons => rfl
    rw [numberTail_of_ne negative hpoint, numberTail_of_ne negative hpoint']
    simp only [hhead]
    split
    . exact .ok List.suffix_rfl
    . exact afterFraction_goesOn more _ _ _ cs

theorem unsignedNumber_goesOn (c : Char) (cs : List Char) :
    GoesOn ('\n' :: more) Never cs (unsignedNumber negative c cs) (unsignedNumber negative c (cs ++ '\n' :: more)) := by
  unfold unsignedNumber
  split
  . cases cs with
    | nil => exact numberTail_goesOn more negative [c] []
    | cons d cs =>
      rw [List.cons_append]
      dsimp only
      split
      . exact GoesOn.rejected.cons _
      . exact numberTail_goesOn more negative [c] (d :: cs)
  . split
    . obtain ⟨htake, hdrop⟩ := takeWhile_lineEnd more cs
      rw [htake, hdrop]
      exact (numberTail_goesOn more negative _ _).mono (List.dropWhile_suffix _)
    . exact .rejected

theorem stable_number (c : Char) : Stable ('\n' :: more) Never (Reader.number c) := by
  intro cs
  change GoesOn _ Never cs (signedNumber c cs) (signedNumber c (cs ++ '\n' :: more))
  unfold signedNumber
  split
  . cases cs with
    | nil => exact .unexpectedEnd
    | cons d cs => exact (unsignedNumber_goesOn more true d cs).cons _
  . exact unsignedNumber_goesOn more false c cs

end Numbers

/-! Values. -/

section Values

variable {α : Type} {more : List Char}

theorem stable_next (tail : List Char) : Stable tail Never Reader.next := by
  intro cs
  cases cs with
  | nil => exact .unexpectedEnd
  | cons c cs => exact (GoesOn.ok List.suffix_rfl).cons c

theorem stable_front (tail : List Char) : Stable tail Always front := by
  intro cs
  cases cs with
  | nil => exact .early trivial
  | cons c cs => exact .ok List.suffix_rfl

theorem stable_skipBlanks (tail : List Char) : Stable tail Always skipBlanks := by
  intro cs
  change GoesOn tail Always cs (.ok ((), cs.dropWhile isBlank)) (.ok ((), (cs ++ tail).dropWhile isBlank))
  rw [List.dropWhile_append]
  split
  . next hempty =>
    rw [List.isEmpty_iff.1 hempty]
    exact .early trivial
  . exact .ok (List.dropWhile_suffix _)

theorem stable_letters (tail name : List Char) : Stable tail Never (letters name) := by
  induction name with
  | nil => exact .pure ()
  | cons c name ih =>
    unfold letters
    refine (stable_next tail).then fun d => ?_
    split
    . exact ih
    . exact .reject _

theorem Stable.next_of_blanks {tail : List Char} {early : α → Prop} {r : Char → Reader α}
    (h : ∀ c, Stable tail early (r c)) : Stable tail early (skipBlanks >>= fun _ => Reader.next >>= r) :=
  (stable_skipBlanks tail).then_strict (fun _ => (stable_next tail).then h) fun _ => strict_next.bind_left _

theorem Stable.rounds {β : Type} {tail : List Char} {step : α → Reader (Round α β)}
    (hstep : ∀ a, Stable tail IsAgain (step a)) (hstrict : ∀ a, (step a).Strict) (mark : Char) (empty : β) (start : α) :
    Stable tail Never (do
      skipBlanks
      if (← front) = some mark then
        let _ ← Reader.next
        return empty
      else
        Reading.loop step (fun a => (hstrict a).advances) start) := by
  obtain ⟨m, hm, -⟩ := Stable.run_loop_nil hstep hstrict start
  refine (stable_skipBlanks tail).bind (fun _ => (stable_front tail).bind (fun c => ?_) ?_) ?_
  . split
    . exact (stable_next tail).then fun _ => .pure _
    . exact .loop hstep hstrict start
  . intro c _ b rest hrun
    split at hrun
    . cases hrun
    . cases hm.symm.trans hrun
  . intro _ _ b rest hrun
    cases hm.symm.trans hrun

section Parts

variable {tail : List Char} {value : Reader Json} (hvalue : Stable tail Never value)

include hvalue

theorem stable_itemsRound (items : List Json) : Stable tail IsAgain (itemsRound value items) := by
  unfold itemsRound
  refine hvalue.then fun item => Stable.next_of_blanks fun c => ?_
  split
  . -- the comma may be the last character but for blanks, and then no item can follow it
    refine (stable_skipBlanks tail).bind (fun _ => (stable_front tail).bind (fun c => ?_) ?_) ?_
    . split
      . exact .reject _
      . exact .pure _
    . intro c _ round rest hrun
      split at hrun
      . cases hrun
      . cases hrun
        trivial
    . intro _ _ round rest hrun
      cases hrun
      trivial
  . exact .pure _
  . exact .reject _

theorem stable_items : Stable tail Never (Reader.items value) :=
  .rounds (stable_itemsRound hvalue) (strict_itemsRound value) ']' [] []

theorem stable_fieldsRound (fields : List (String × Json)) : Stable tail IsAgain (fieldsRound value fields) := by
  unfold fieldsRound
  refine Stable.next_of_blanks fun c => ?_
  split
  . refine (stable_string tail).then fun key => Stable.next_of_blanks fun c => ?_
    split
    . refine hvalue.then fun item => Stable.next_of_blanks fun c => ?_
      split
      . exact .pure _
      . exact .pure _
      . exact .reject _
    . exact .reject _
  . exact .reject _

theorem stable_fields : Stable tail Never (Reader.fields value) :=
  .rounds (stable_fieldsRound hvalue) (strict_fieldsRound value) '\x7d' [] []

end Parts

theorem stable_value_of {depth : Nat}
    (hinner : ∀ inner, depth = inner + 1 → Stable ('\n' :: more) Never (Reader.value inner)) :
    Stable ('\n' :: more) Never (Reader.value depth) := by
  unfold Reader.value
  refine Stable.next_of_blanks fun c => ?_
  split
  . exact (stable_letters _ _).then fun _ => .pure _
  . exact (stable_letters _ _).then fun _ => .pure _
  . exact (stable_letters _ _).then fun _ => .pure _
  . exact (stable_string _).then fun _ => .pure _
  . split
    . exact .reject _
    . exact (stable_items (hinner _ rfl)).then fun _ => .pure _
  . split
    . exact .reject _
    . exact (stable_fields (hinner _ rfl)).then fun _ => .pure _
  . split
    . exact (stable_number more c).then fun _ => .pure _
    . exact .reject _

theorem stable_value (more : List Char) (depth : Nat) : Stable ('\n' :: more) Never (Reader.value depth) := by
  induction depth with
  | zero => exact stable_value_of nofun
  | succ depth ih =>
    apply stable_value_of
    rintro inner ⟨⟩
    exact ih

/-! Streams. -/

theorem stable_endOfValue (more : List Char) : Stable ('\n' :: more) Never endOfValue := by
  intro cs
  cases cs with
  | nil => exact .ok List.suffix_rfl
  | cons c cs =>
    have hfront : Stable ('\n' :: more) Never (if isBlank c || "\"[]\x7b\x7d,:".toList.contains c then
        Pure.pure () else Reader.next >>= fun _ => Reader.reject : Reader Unit) := by
      split
      . exact .pure ()
      . exact (stable_next _).then fun _ => .reject _
    exact hfront (c :: cs)

theorem stable_streamItem (more : List Char) : Stable ('\n' :: more) Never streamItem := by
  unfold streamItem
  refine (stable_front _).then_strict (fun c => (stable_value more _).then fun item => ?_)
    fun _ => (strict_value _).bind_left _
  split
  . exact .pure _
  . exact (stable_endOfValue more).then fun _ => .pure _

end Values

theorem stream_of_error {cs rest : List Char} {c : Char} {m : Misread} (h : cs.dropWhile isBlank = c :: rest)
    (hitem : streamItem.run (c :: rest) = .error m) : stream cs = .error m := by
  rw [stream]
  split
  . next heq => cases h.symm.trans heq
  . next heq =>
    cases h.symm.trans heq
    split
    . next heq =>
      cases hitem.symm.trans heq
      rfl
    . next heq => cases hitem.symm.trans heq

theorem stream_congr {cs ds : List Char} (h : cs.dropWhile isBlank = ds.dropWhile isBlank) : stream cs = stream ds := by
  cases hblank : cs.dropWhile isBlank with
  | nil => rw [stream_of_blank hblank, stream_of_blank (h.symm.trans hblank)]
  | cons c rest =>
    cases hitem : streamItem.run (c :: rest) with
    | error m => rw [stream_of_error hblank hitem, stream_of_error (h.symm.trans hblank) hitem]
    | ok p => rw [stream_of_item hblank hitem, stream_of_item (h.symm.trans hblank) hitem]

theorem stream_append {cs : List Char} {items : List Json} (h : stream cs = .ok items) (more : List Char) :
    stream (cs ++ '\n' :: more) = (stream more).map (items ++ ·) := by
  fun_induction stream cs generalizing items with
  | case1 cs hblank =>
    cases h
    have hmore : (cs ++ '\n' :: more).dropWhile isBlank = more.dropWhile isBlank := by
      rw [List.dropWhile_append, hblank]
      rfl
    rw [stream_congr hmore]
    cases stream more <;> rfl
  | case2 => cases h
  | case3 cs c rest hblank item rest' hitem _ ih =>
    obtain ⟨items', hitems, rfl⟩ := map_eq_ok_iff.1 h
    have hmore : (cs ++ '\n' :: more).dropWhile isBlank = c :: (rest ++ '\n' :: more) := by
      rw [List.dropWhile_append, hblank]
      rfl
    obtain ⟨-, hagain⟩ := (stable_streamItem more).run_append hitem
    rw [stream_of_item hmore hagain, ih hitems]
    cases stream more <;> rfl

theorem unread_suffix_of_stream {cs : List Char} {m : Misread} (h : stream cs = .error m) : m.unread <:+ cs := by
  fun_induction stream cs with
  | case1 => cases h
  | case2 cs c rest hblank m' hitem =>
    cases h
    exact ((stable_streamItem []).unread_suffix hitem).trans (hblank ▸ List.dropWhile_suffix _)
  | case3 cs c rest hblank item rest' hitem _ ih =>
    have hrest := ((stable_streamItem []).run_append hitem).1.trans (hblank ▸ List.dropWhile_suffix _)
    exact (ih (map_eq_error_iff.1 h)).trans hrest

end LexiconAudit.Json
