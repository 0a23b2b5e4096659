import LexiconAudit.Json.Printer
import LexiconAudit.Json.Reader
import LexiconAudit.Proofs.Keyed
import LexiconAudit.Proofs.Reading
import LexiconAudit.Proofs.Text.Scanning
import Mathlib.Data.List.Basic
import Mathlib.Data.List.TakeWhile
import Mathlib.Tactic.IntervalCases

/-!
This module contains the reading of what was written: a value that a reader can hold is read back from its
form on one line, whatever stands behind it, and so are the values of a stream with one value per line.
-/

namespace LexiconAudit.Json

open Reading
open Reader hiding next string items fields value
open Text.Scanner (takeWhile_append dropWhile_append)

/-! Strings. -/

theorem stringBody_escape {cs rest : List Char} {c : Char} (h : escape cs = .ok (c, rest)) :
    stringBody ('\\' :: cs) = (stringBody rest).map fun (value, rest) => (c :: value, rest) := by
  rw [stringBody]
  split
  . next heq =>
    rw [h] at heq
    cases heq
  . next heq =>
    rw [h] at heq
    cases heq
    rfl

theorem hexCode_of_number? {a b c d : Char} {n : Nat} (hsizes : [a, b, c, d].map Char.utf8Size = [1, 1, 1, 1])
    (hnumber : Text.number? 16 [a, b, c, d] = some n) (cs : List Char) :
    hexCode (a :: b :: c :: d :: cs) = .ok (n, cs) := by
  simp only [List.map_cons, List.cons.injEq] at hsizes
  obtain ⟨ha, hb, hc, hd, -⟩ := hsizes
  have hwindow : window? 4 (a :: b :: c :: d :: cs) = some ([a, b, c, d], cs) := by
    simp [window?, ha, hb, hc, hd]
  rw [hexCode, hwindow]
  dsimp only
  rw [hnumber]

theorem escape_code {n : Nat} (h : n < 0x20) (cs : List Char) :
    escape ('u' :: '0' :: '0' :: Nat.digitChar (n / 16) :: Nat.digitChar (n % 16) :: cs) =
      .ok (Char.ofNat n, cs) := by
  have hdigits : ∀ n < 0x20,
      ['0', '0', Nat.digitChar (n / 16), Nat.digitChar (n % 16)].map Char.utf8Size = [1, 1, 1, 1] ∧
        Text.number? 16 ['0', '0', Nat.digitChar (n / 16), Nat.digitChar (n % 16)] = some n := by
    decide
  obtain ⟨hsizes, hnumber⟩ := hdigits n h
  rw [escape, hexCode_of_number? hsizes hnumber]
  dsimp only
  rw [if_neg (by omega), if_neg (by omega)]

theorem stringBody_escapedChar (c : Char) (cs : List Char) :
    stringBody (escapedChar c ++ cs) = (stringBody cs).map fun (value, rest) => (c :: value, rest) := by
  unfold escapedChar
  split
  case h_8 =>
    split
    . next h =>
      refine (stringBody_escape (escape_code h cs)).trans ?_
      rw [Char.ofNat_toNat]
    . next h =>
      rw [List.singleton_append, stringBody, if_neg h]
      all_goals assumption
  all_goals exact stringBody_escape rfl

theorem stringBody_escaped (cs rest : List Char) :
    stringBody (cs.flatMap escapedChar ++ '"' :: rest) = .ok (cs, rest) := by
  induction cs with
  | nil => rw [List.flatMap_nil, List.nil_append, stringBody]
  | cons c cs ih =>
    rw [List.flatMap_cons, List.append_assoc, stringBody_escapedChar, ih]
    rfl

theorem run_string (s : String) (rest : List Char) :
    Reader.string.run (s.toList.flatMap escapedChar ++ '"' :: rest) = .ok (s, rest) := by
  change (stringBody _).map _ = _
  rw [stringBody_escaped]
  exact congrArg (fun s => Except.ok (s, rest)) String.ofList_toList

/-! Numbers. -/

def Ends (rest : List Char) : Prop :=
  ∀ c, rest.head? = some c → c = ',' ∨ c = ']' ∨ c = '\x7d' ∨ c = '\n'

theorem Ends.cons {c : Char} (h : c = ',' ∨ c = ']' ∨ c = '\x7d' ∨ c = '\n') (rest : List Char) :
    Ends (c :: rest) := by
  intro d hd
  cases hd
  exact h

theorem le_ofDigitChars (n : Nat) (cs : List Char) : n ≤ Nat.ofDigitChars 10 cs n := by
  rw [Nat.ofDigitChars_eq_ofDigitChars_zero]
  have := Nat.le_mul_of_pos_left n (Nat.pow_pos (a := 10) (n := cs.length) (by decide))
  omega

theorem extend_eq {n : Nat} {cs : List Char} (h : Nat.ofDigitChars 10 cs n < UInt64.size) :
    extend n cs = (Nat.ofDigitChars 10 cs n, cs.length) := by
  induction cs generalizing n with
  | nil => rfl
  | cons c cs ih =>
    rw [Nat.ofDigitChars_cons, Nat.mul_comm] at h ⊢
    rw [extend]
    dsimp only
    rw [if_pos (Nat.lt_of_le_of_lt (le_ofDigitChars _ cs) h), ih h]
    rfl

theorem head?_toDigits_ne_zero {n : Nat} (h : n ≠ 0) : (Nat.toDigits 10 n).head? ≠ some '0' := by
  induction n using Nat.strong_induction_on with
  | h n ih =>
    by_cases hlt : n < 10
    . rw [Nat.toDigits_of_lt_base hlt]
      interval_cases n <;> first | contradiction | decide
    . rw [Nat.toDigits_of_base_le (by decide) (by omega), List.head?_append_of_ne_nil _ Nat.toDigits_ne_nil]
      exact ih (n / 10) (by omega) (by omega)

theorem Ends.head?_ne {rest : List Char} (h : Ends rest) {c : Char} (hc : c ≠ ',' ∧ c ≠ ']' ∧ c ≠ '\x7d' ∧ c ≠ '\n') :
    rest.head? ≠ some c := by
  intro hrest
  rcases h c hrest with rfl | rfl | rfl | rfl <;> simp at hc

theorem numberTail_digits (negative : Bool) {digits rest : List Char}
    (hsize : Nat.ofDigitChars 10 digits 0 < UInt64.size) (hrest : Ends rest) :
    numberTail negative digits rest = .ok (wholeNumber negative (Nat.ofDigitChars 10 digits 0), rest) := by
  unfold numberTail
  rw [extend_eq hsize]
  dsimp only
  split
  . exact absurd rfl (hrest.head?_ne (c := '.') (by decide))
  . rw [if_pos ⟨rfl, hrest.head?_ne (by decide), hrest.head?_ne (by decide)⟩]

theorem unsignedNumber_toDigits (negative : Bool) {n : Nat} (hsize : n < UInt64.size) {c : Char} {cs rest : List Char}
    (hdigits : Nat.toDigits 10 n = c :: cs) (hrest : Ends rest) :
    unsignedNumber negative c (cs ++ rest) = .ok (wholeNumber negative n, rest) := by
  have hspelled : Nat.ofDigitChars 10 (Nat.toDigits 10 n) 0 < UInt64.size := by
    rwa [Nat.ofDigitChars_ten_toDigits]
  have htail := numberTail_digits negative hspelled hrest
  rw [Nat.ofDigitChars_ten_toDigits] at htail
  have hdigit : ∀ d ∈ c :: cs, d.isDigit = true := by
    rw [← hdigits]
    exact fun d hd => Nat.isDigit_of_mem_toDigits (by decide) (by decide) hd
  have hstop : ∀ d, rest.head? = some d → d.isDigit = false := by
    intro d hd
    rcases hrest d hd with rfl | rfl | rfl | rfl <;> rfl
  rw [List.forall_mem_cons] at hdigit
  unfold unsignedNumber
  split
  . next hzero =>
    subst hzero
    have hn : n = 0 := by
      by_contra hne
      exact head?_toDigits_ne_zero hne (by rw [hdigits]; rfl)
    subst hn
    rw [Nat.toDigits_zero] at hdigits htail
    cases hdigits
    cases rest with
    | nil => exact htail
    | cons d rest =>
      rw [List.nil_append]
      dsimp only
      rw [hstop d rfl]
      exact htail
  . rw [if_pos hdigit.1, takeWhile_append hdigit.2 hstop, dropWhile_append hdigit.2 hstop, ← hdigits, htail]

theorem signedNumber_written {n : Int} (hlow : -0x8000000000000000 ≤ n) (hhigh : n < 0x10000000000000000)
    {rest : List Char} (hrest : Ends rest) : ∃ c cs, (Number.integer n).written = c :: cs ∧
      (c = '-' ∨ c.isDigit = true) ∧ signedNumber c (cs ++ rest) = .ok (.integer n, rest) := by
  cases n with
  | ofNat n =>
    have hwritten : (Number.integer (Int.ofNat n)).written = Nat.toDigits 10 n := by
      change (toString n).toList = _
      rw [Nat.toString_eq_ofList_toDigits, String.toList_ofList]
    obtain ⟨c, cs, hdigits⟩ := List.exists_cons_of_ne_nil (@Nat.toDigits_ne_nil n 10)
    have hc : c.isDigit = true :=
      Nat.isDigit_of_mem_toDigits (by decide) (by decide) (hdigits ▸ List.mem_cons_self)
    have hsize : n < UInt64.size := by
      rw [UInt64.size]
      have : (n : Int) < 0x10000000000000000 := hhigh
      omega
    refine ⟨c, cs, hwritten.trans hdigits, .inr hc, ?_⟩
    unfold signedNumber
    rw [if_neg (by rintro rfl; cases hc), unsignedNumber_toDigits false hsize hdigits hrest]
    rfl
  | negSucc n =>
    have hwritten : (Number.integer (Int.negSucc n)).written = '-' :: Nat.toDigits 10 (n + 1) := by
      change ("-" ++ toString (n + 1)).toList = _
      rw [Nat.toString_eq_ofList_toDigits, String.toList_append, String.toList_ofList, String.toList_ofList]
      rfl
    obtain ⟨c, cs, hdigits⟩ := List.exists_cons_of_ne_nil (@Nat.toDigits_ne_nil (n + 1) 10)
    have hle : n + 1 ≤ 0x8000000000000000 := by
      have : -0x8000000000000000 ≤ Int.negSucc n := hlow
      omega
    have hsize : n + 1 < UInt64.size := by
      rw [UInt64.size]
      omega
    refine ⟨'-', c :: cs, hwritten.trans (congrArg _ hdigits), .inl rfl, ?_⟩
    unfold signedNumber
    rw [if_pos rfl, List.cons_append]
    dsimp only
    rw [unsignedNumber_toDigits true hsize hdigits hrest, wholeNumber, if_pos rfl, if_neg (by omega)]
    rfl

/-! Values. -/

/--
A value that a reader can hold: its numbers are whole ones of 64 bits, its objects have each field once, and
its arrays and objects nest at most that deep.
-/
inductive Bounded : (depth : Nat) → Json → Prop where
  | null {depth : Nat} : Bounded depth .null
  | bool {depth : Nat} (value : Bool) : Bounded depth (.bool value)
  | integer {depth : Nat} {n : Int} : -0x8000000000000000 ≤ n → n < 0x10000000000000000 →
    Bounded depth (.number (.integer n))
  | string {depth : Nat} (value : String) : Bounded depth (.string value)
  | array {depth : Nat} {items : List Json} : (∀ item ∈ items, Bounded depth item) →
    Bounded (depth + 1) (.array items)
  | object {depth : Nat} {fields : List (String × Json)} : (fields.map Prod.fst).Nodup →
    (∀ field ∈ fields, Bounded depth field.2) → Bounded (depth + 1) (.object fields)

def Opens (cs : List Char) : Prop :=
  ∃ c more, cs = c :: more ∧ isBlank c = false ∧ c ≠ ']'

theorem Opens.append {cs : List Char} (h : Opens cs) (rest : List Char) : Opens (cs ++ rest) := by
  obtain ⟨c, more, rfl, hblank, hne⟩ := h
  exact ⟨c, more ++ rest, rfl, hblank, hne⟩

theorem isBlank_eq_false_of_number {c : Char} (h : c = '-' ∨ c.isDigit = true) : isBlank c = false := by
  refine Bool.eq_false_iff.2 fun hblank => ?_
  simp only [isBlank, Bool.or_eq_true, decide_eq_true_eq] at hblank
  rcases hblank with ((rfl | rfl) | rfl) | rfl <;> simp at h

theorem opens_compactChars {depth : Nat} {d : Json} (h : Bounded depth d) : Opens (compactChars d) := by
  cases h with
  | bool value => cases value <;> exact ⟨_, _, rfl, rfl, by decide⟩
  | integer hlow hhigh =>
    have hends : Ends [] := nofun
    obtain ⟨c, cs, hwritten, hc, -⟩ := signedNumber_written hlow hhigh hends
    rw [compactChars, hwritten]
    refine ⟨c, cs, rfl, isBlank_eq_false_of_number hc, ?_⟩
    rintro rfl
    simp at hc
  | _ => exact ⟨_, _, rfl, rfl, by decide⟩

theorem run_skipBlanks {cs : List Char} (h : ∀ c, cs.head? = some c → isBlank c = false) :
    skipBlanks.run cs = .ok ((), cs) := by
  change Except.ok ((), cs.dropWhile isBlank) = _
  cases cs with
  | nil => rfl
  | cons c cs => rw [List.dropWhile_cons_of_neg (by simp [h c rfl])]

theorem run_skipBlanks_cons {c : Char} (h : isBlank c = false) (cs : List Char) :
    skipBlanks.run (c :: cs) = .ok ((), c :: cs) :=
  run_skipBlanks fun _ hd => by
    cases hd
    exact h

theorem run_next_cons (c : Char) (cs : List Char) : Reader.next.run (c :: cs) = .ok (c, cs) := rfl

theorem run_letters (name rest : List Char) : (letters name).run (name ++ rest) = .ok ((), rest) := by
  induction name with
  | nil => rfl
  | cons c name ih =>
    unfold letters
    rw [List.cons_append, run_bind_of_run (run_next_cons _ _), if_pos rfl, ih]

section Items

variable {value : Reader Json} {items : List Json}
  (hvalue : ∀ item ∈ items, ∀ rest, Ends rest → value.run (compactChars item ++ rest) = .ok (item, rest))
  (hopens : ∀ item ∈ items, Opens (compactChars item))

include hvalue hopens

omit hvalue in
theorem opens_compactItems (hne : items ≠ []) : Opens (compactItems items) := by
  cases items with
  | nil => exact absurd rfl hne
  | cons item items =>
    have hitem := hopens item List.mem_cons_self
    cases items with
    | nil => exact hitem
    | cons => exact hitem.append _

theorem run_loop_itemsRound (hne : items ≠ []) (before : List Json) (rest : List Char) :
    (loop (itemsRound value) (fun items => (strict_itemsRound value items).advances) before).run
      (compactItems items ++ ']' :: rest) = .ok (before ++ items, rest) := by
  induction items generalizing before with
  | nil => exact absurd rfl hne
  | cons item items ih =>
    rw [List.forall_mem_cons] at hvalue hopens
    cases items with
    | nil =>
      apply run_loop_of_done
      unfold itemsRound
      rw [compactItems, run_bind_of_run (hvalue.1 _ (.cons (by decide) _)),
        run_bind_of_run (run_skipBlanks_cons rfl _), run_bind_of_run (run_next_cons _ _)]
      rfl
    | cons item' items =>
      obtain ⟨c, more, hmore, hblank, hclose⟩ := (opens_compactItems hopens.2 nofun).append (']' :: rest)
      have hround : (itemsRound value before).run (compactChars item ++ ',' :: c :: more) =
          .ok (.again (before ++ [item]), c :: more) := by
        unfold itemsRound
        rw [run_bind_of_run (hvalue.1 _ (.cons (by decide) _)), run_bind_of_run (run_skipBlanks_cons rfl _),
          run_bind_of_run (run_next_cons _ _)]
        refine (run_bind_of_run (run_skipBlanks_cons hblank _)).trans ?_
        have hfront : front.run (c :: more) = .ok (some c, c :: more) := rfl
        rw [run_bind_of_run hfront, if_neg fun heq => hclose (Option.some.inj heq)]
        rfl
      rw [compactItems, List.append_assoc, List.cons_append, hmore, run_loop_of_again hround, ← hmore,
        ih hvalue.2 hopens.2 nofun, List.append_assoc, List.singleton_append]
      exact nofun

theorem run_items (rest : List Char) :
    (Reader.items value).run (compactItems items ++ ']' :: rest) = .ok (items, rest) := by
  unfold Reader.items
  by_cases hnil : items = []
  . subst hnil
    rw [compactItems, List.nil_append, run_bind_of_run (run_skipBlanks_cons rfl _)]
    rfl
  . obtain ⟨c, more, hmore, hblank, hclose⟩ := (opens_compactItems hopens hnil).append (']' :: rest)
    have hfront : front.run (c :: more) = .ok (some c, c :: more) := rfl
    rw [hmore, run_bind_of_run (run_skipBlanks_cons hblank _), run_bind_of_run hfront,
      if_neg fun heq => hclose (Option.some.inj heq), ← hmore, run_loop_itemsRound hvalue hopens hnil,
      List.nil_append]

end Items

section Fields

variable {value : Reader Json}

theorem run_fieldsRound (key : String) {item : Json}
    (hvalue : ∀ rest, Ends rest → value.run (compactChars item ++ rest) = .ok (item, rest))
    (before : List (String × Json)) {mark : Char} {round : Round (List (String × Json)) (List (String × Json))}
    (hround : mark = ',' ∧ round = .again (Keyed.set key item before) ∨
      mark = '\x7d' ∧ round = .done (Keyed.set key item before)) (rest : List Char) :
    (fieldsRound value before).run (quotedString key ++ ':' :: compactChars item ++ mark :: rest) =
      .ok (round, rest) := by
  have hends : Ends (mark :: rest) := by
    apply Ends.cons
    rcases hround with ⟨rfl, -⟩ | ⟨rfl, -⟩ <;> decide
  unfold fieldsRound quotedString
  simp only [List.cons_append, List.append_assoc, List.nil_append]
  rw [run_bind_of_run (run_skipBlanks_cons rfl _), run_bind_of_run (run_next_cons _ _)]
  refine (run_bind_of_run (run_string key _)).trans ?_
  rw [run_bind_of_run (run_skipBlanks_cons rfl _), run_bind_of_run (run_next_cons _ _)]
  refine (run_bind_of_run (hvalue _ hends)).trans ?_
  rcases hround with ⟨rfl, rfl⟩ | ⟨rfl, rfl⟩
  all_goals
    rw [run_bind_of_run (run_skipBlanks_cons rfl _), run_bind_of_run (run_next_cons _ _)]
    rfl

variable {fields : List (String × Json)}
  (hvalue : ∀ field ∈ fields, ∀ rest, Ends rest → value.run (compactChars field.2 ++ rest) = .ok (field.2, rest))

include hvalue

theorem run_loop_fieldsRound (hne : fields ≠ []) (before : List (String × Json)) (rest : List Char) :
    (loop (fieldsRound value) (fun fields => (strict_fieldsRound value fields).advances) before).run
      (compactFields fields ++ '\x7d' :: rest) =
        .ok (fields.foldl (fun list pair => Keyed.set pair.1 pair.2 list) before, rest) := by
  induction fields generalizing before with
  | nil => exact absurd rfl hne
  | cons field fields ih =>
    obtain ⟨key, item⟩ := field
    rw [List.forall_mem_cons] at hvalue
    cases fields with
    | nil => exact run_loop_of_done (run_fieldsRound key hvalue.1 before (.inr ⟨rfl, rfl⟩) rest)
    | cons field' fields =>
      have hround := run_fieldsRound key hvalue.1 before (.inl ⟨rfl, rfl⟩)
        (compactFields (field' :: fields) ++ '\x7d' :: rest)
      rw [compactFields, List.append_assoc, List.cons_append, run_loop_of_again hround, ih hvalue.2 nofun]
      . rfl
      . exact nofun

theorem run_fields (hnodup : (fields.map Prod.fst).Nodup) (rest : List Char) :
    (Reader.fields value).run (compactFields fields ++ '\x7d' :: rest) = .ok (fields, rest) := by
  unfold Reader.fields
  by_cases hnil : fields = []
  . subst hnil
    rw [compactFields, List.nil_append, run_bind_of_run (run_skipBlanks_cons rfl _)]
    rfl
  . have hopens : ∃ more, compactFields fields ++ '\x7d' :: rest = '"' :: more := by
      match fields, hnil with
      | [(key, value)], _ => exact ⟨_, rfl⟩
      | (key, value) :: field :: fields, _ => exact ⟨_, rfl⟩
    obtain ⟨more, hmore⟩ := hopens
    have hfront : front.run ('"' :: more) = .ok (some '"', '"' :: more) := rfl
    rw [hmore, run_bind_of_run (run_skipBlanks_cons rfl _), run_bind_of_run hfront, if_neg (by decide), ← hmore,
      run_loop_fieldsRound hvalue hnil, Keyed.foldl_set_of_nodup [] hnodup, List.nil_append]

end Fields

theorem run_value_compactChars {depth : Nat} {d : Json} (h : Bounded depth d) {rest : List Char} (hrest : Ends rest) :
    (Reader.value depth).run (compactChars d ++ rest) = .ok (d, rest) := by
  induction h generalizing rest with
  | null =>
    change (Reader.value _).run ('n' :: ("ull".toList ++ rest)) = _
    unfold Reader.value
    rw [run_bind_of_run (run_skipBlanks_cons rfl _), run_bind_of_run (run_next_cons _ _)]
    exact run_bind_of_run (run_letters _ _)
  | bool value =>
    cases value with
    | true =>
      change (Reader.value _).run ('t' :: ("rue".toList ++ rest)) = _
      unfold Reader.value
      rw [run_bind_of_run (run_skipBlanks_cons rfl _), run_bind_of_run (run_next_cons _ _)]
      exact run_bind_of_run (run_letters _ _)
    | false =>
      change (Reader.value _).run ('f' :: ("alse".toList ++ rest)) = _
      unfold Reader.value
      rw [run_bind_of_run (run_skipBlanks_cons rfl _), run_bind_of_run (run_next_cons _ _)]
      exact run_bind_of_run (run_letters _ _)
  | integer hlow hhigh =>
    obtain ⟨c, cs, hwritten, hc, hread⟩ := signedNumber_written hlow hhigh hrest
    rw [compactChars, hwritten, List.cons_append]
    unfold Reader.value
    rw [run_bind_of_run (run_skipBlanks_cons (isBlank_eq_false_of_number hc) _), run_bind_of_run (run_next_cons _ _)]
    split
    case h_7 =>
      rw [if_pos (by simpa using hc)]
      exact run_bind_of_run hread
    all_goals simp at hc
  | string value =>
    rw [compactChars, quotedString, List.cons_append, List.cons_append, List.append_assoc, List.singleton_append]
    unfold Reader.value
    rw [run_bind_of_run (run_skipBlanks_cons rfl _), run_bind_of_run (run_next_cons _ _)]
    exact run_bind_of_run (run_string value rest)
  | array hitems ih =>
    rw [compactChars, List.cons_append, List.cons_append, List.append_assoc, List.singleton_append]
    unfold Reader.value
    rw [run_bind_of_run (run_skipBlanks_cons rfl _), run_bind_of_run (run_next_cons _ _)]
    exact run_bind_of_run (run_items (fun item hitem _ hends => ih item hitem hends)
      (fun item hitem => opens_compactChars (hitems item hitem)) rest)
  | object hnodup _ ih =>
    rw [compactChars, List.cons_append, List.cons_append, List.append_assoc, List.singleton_append]
    unfold Reader.value
    rw [run_bind_of_run (run_skipBlanks_cons rfl _), run_bind_of_run (run_next_cons _ _)]
    exact run_bind_of_run (run_fields (fun field hfield _ hends => ih field hfield hends) hnodup rest)

/-! Streams. -/

theorem stream_of_blank {cs : List Char} (h : cs.dropWhile isBlank = []) : stream cs = .ok [] := by
  unfold stream
  split
  . rfl
  . next heq => cases h.symm.trans heq

theorem stream_of_item {cs rest rest' : List Char} {c : Char} {item : Json}
    (h : cs.dropWhile isBlank = c :: rest) (hitem : streamItem.run (c :: rest) = .ok (item, rest')) :
    stream cs = (stream rest').map (item :: ·) := by
  rw [stream]
  split
  . next heq => cases h.symm.trans heq
  . next heq =>
    cases h.symm.trans heq
    split
    . next heq => cases hitem.symm.trans heq
    . next heq =>
      cases hitem.symm.trans heq
      rfl

theorem run_streamItem {d : Json} (h : Bounded maxDepth d) (rest : List Char) :
    streamItem.run (compactChars d ++ '\n' :: rest) = .ok (d, '\n' :: rest) := by
  have hfront (cs : List Char) : front.run cs = .ok (cs.head?, cs) := rfl
  have hend : endOfValue.run ('\n' :: rest) = .ok ((), '\n' :: rest) := rfl
  unfold streamItem
  rw [run_bind_of_run (hfront _), run_bind_of_run (run_value_compactChars h (.cons (by decide) _))]
  split
  . rfl
  . rw [run_bind_of_run hend]
    rfl

def lines (documents : List Json) : String :=
  String.ofList (documents.flatMap fun document => compactChars document ++ ['\n'])

theorem stream_lines {documents : List Json} (h : ∀ document ∈ documents, Bounded maxDepth document)
    {before : List Char} (hbefore : ∀ c ∈ before, isBlank c = true) :
    stream (before ++ documents.flatMap fun document => compactChars document ++ ['\n']) = .ok documents := by
  induction documents generalizing before with
  | nil =>
    apply stream_of_blank
    rw [List.flatMap_nil, List.append_nil]
    exact List.dropWhile_eq_nil_iff.2 hbefore
  | cons document documents ih =>
    rw [List.forall_mem_cons] at h
    obtain ⟨c, more, hmore, hblank, -⟩ := opens_compactChars h.1
    have hitem := run_streamItem h.1 (documents.flatMap fun document => compactChars document ++ ['\n'])
    rw [hmore, List.cons_append] at hitem
    have hnewline : ∀ c ∈ ['\n'], isBlank c = true := List.forall_mem_singleton.2 rfl
    rw [List.flatMap_cons, List.append_assoc, List.singleton_append, hmore, List.cons_append, stream_of_item _ hitem]
    . rw [← List.singleton_append, ih h.2 hnewline]
      rfl
    . rw [List.dropWhile_append_of_pos hbefore, List.dropWhile_cons_of_neg (by simp [hblank])]

theorem parseStream_lines {documents : List Json} (h : ∀ document ∈ documents, Bounded maxDepth document) :
    parseStream (lines documents) = .ok documents := by
  unfold parseStream lines
  rw [String.toList_ofList]
  have hbefore : ∀ c ∈ ([] : List Char), isBlank c = true := nofun
  exact stream_lines h hbefore

end LexiconAudit.Json
