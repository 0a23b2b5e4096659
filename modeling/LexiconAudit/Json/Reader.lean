import LexiconAudit.Json.Basic
import LexiconAudit.Keyed
import LexiconAudit.Reading
import LexiconAudit.Text.Digit

/-!
This module contains the logic to read JSON: one value, or a stream of values that follow each other. A
value nests at most 127 arrays and objects. A failure knows how much of the text was left where the reader
stopped, which tells the line.
-/

namespace LexiconAudit.Json

inductive Cause where
  | unexpectedEnd
  | unexpectedCharacter
  | invalidNumber
  | numberOutOfRange
  | invalidString
  | nestedTooDeep
  deriving DecidableEq, Repr

def Cause.message : Cause → String
  | unexpectedEnd => "the text ends inside a value"
  | unexpectedCharacter => "unexpected character"
  | invalidNumber => "invalid number"
  | numberOutOfRange => "number out of range"
  | invalidString => "invalid string"
  | nestedTooDeep => "arrays and objects are nested too deep"

structure Misread where
  cause : Cause
  unread : List Char
  deriving DecidableEq, Repr

abbrev Reader := Reading (List Char) Misread

def maxDepth : Nat := 127

namespace Reader

/-! Strings. -/

/--
The characters in which the next `owed` bytes of a text lie, and the text behind them.
-/
def window? : (owed : Nat) → List Char → Option (List Char × List Char)
  | 0, cs => some ([], cs)
  | _ + 1, [] => none
  | owed + 1, c :: cs => (window? (owed + 1 - c.utf8Size) cs).map fun (taken, rest) => (c :: taken, rest)

theorem length_le_of_window? {owed : Nat} {cs taken rest : List Char}
    (h : window? owed cs = some (taken, rest)) : rest.length ≤ cs.length := by
  fun_induction window? owed cs generalizing taken with
  | case1 =>
    cases h
    exact Nat.le_refl _
  | case2 => cases h
  | case3 owed c cs ih =>
    obtain ⟨⟨taken', rest'⟩, h', heq⟩ := Option.map_eq_some_iff.1 h
    cases heq
    exact Nat.le_succ_of_le (ih h')

def hexCode (cs : List Char) : Except Misread (Nat × List Char) :=
  match window? 4 cs with
  | none => .error ⟨.unexpectedEnd, []⟩
  | some (taken, rest) =>
    match Text.number? 16 taken with
    | some code => .ok (code, rest)
    | none => .error ⟨.invalidString, rest⟩

def lowSurrogate (high : Nat) : List Char → Except Misread (Char × List Char)
  | [] => .error ⟨.unexpectedEnd, []⟩
  | ['\\'] => .error ⟨.unexpectedEnd, []⟩
  | '\\' :: 'u' :: cs =>
    match hexCode cs with
    | .error m => .error m
    | .ok (low, rest) =>
      if 0xDC00 ≤ low ∧ low ≤ 0xDFFF then
        .ok (Char.ofNat (0x10000 + (high - 0xD800) * 0x400 + (low - 0xDC00)), rest)
      else
        .error ⟨.invalidString, rest⟩
  | '\\' :: _ :: cs => .error ⟨.invalidString, cs⟩
  | _ :: cs => .error ⟨.invalidString, cs⟩

def shortEscape? : Char → Option Char
  | '"' => some '"'
  | '\\' => some '\\'
  | '/' => some '/'
  | 'b' => some '\x08'
  | 'f' => some '\x0c'
  | 'n' => some '\n'
  | 'r' => some '\r'
  | 't' => some '\t'
  | _ => none

/--
An escape, read behind its backslash. Surrogates have to come in pairs.
-/
def escape : List Char → Except Misread (Char × List Char)
  | [] => .error ⟨.unexpectedEnd, []⟩
  | 'u' :: cs =>
    match hexCode cs with
    | .error m => .error m
    | .ok (code, rest) =>
      if 0xDC00 ≤ code ∧ code ≤ 0xDFFF then
        .error ⟨.invalidString, rest⟩
      else if 0xD800 ≤ code ∧ code ≤ 0xDBFF then
        lowSurrogate code rest
      else
        .ok (Char.ofNat code, rest)
  | c :: cs =>
    match shortEscape? c with
    | some value => .ok (value, cs)
    | none => .error ⟨.invalidString, cs⟩

theorem length_le_of_hexCode {cs rest : List Char} {n : Nat} (h : hexCode cs = .ok (n, rest)) :
    rest.length ≤ cs.length := by
  unfold hexCode at h
  split at h
  . cases h
  . next hwindow =>
    split at h
    . cases h
      exact length_le_of_window? hwindow
    . cases h

theorem length_le_of_lowSurrogate {high : Nat} {cs rest : List Char} {c : Char}
    (h : lowSurrogate high cs = .ok (c, rest)) : rest.length ≤ cs.length := by
  unfold lowSurrogate at h
  split at h
  . cases h
  . cases h
  . split at h
    . cases h
    . next hcode =>
      have := length_le_of_hexCode hcode
      split at h
      . simp only [Except.ok.injEq, Prod.mk.injEq] at h
        obtain ⟨-, rfl⟩ := h
        simp only [List.length_cons]
        omega
      . cases h
  . cases h
  . cases h

theorem length_le_of_escape {cs rest : List Char} {c : Char} (h : escape cs = .ok (c, rest)) :
    rest.length ≤ cs.length := by
  unfold escape at h
  split at h
  . cases h
  . split at h
    . cases h
    . next hcode =>
      have := length_le_of_hexCode hcode
      split at h
      . cases h
      . split at h
        . have := length_le_of_lowSurrogate h
          simp only [List.length_cons]
          omega
        . cases h
          simp only [List.length_cons]
          omega
  . split at h
    . cases h
      simp
    . cases h

def stringBody : List Char → Except Misread (List Char × List Char)
  | [] => .error ⟨.unexpectedEnd, []⟩
  | '"' :: cs => .ok ([], cs)
  | '\\' :: cs =>
    match h : escape cs with
    | .error m => .error m
    | .ok (c, rest) =>
      have := length_le_of_escape h
      (stringBody rest).map fun (value, rest) => (c :: value, rest)
  | c :: cs =>
    if c.toNat < 0x20 then
      .error ⟨.invalidString, cs⟩
    else
      (stringBody cs).map fun (value, rest) => (c :: value, rest)
termination_by cs => cs.length
decreasing_by all_goals simp only [List.length_cons]; omega

theorem length_le_of_stringBody {cs value rest : List Char} (h : stringBody cs = .ok (value, rest)) :
    rest.length ≤ cs.length := by
  fun_induction stringBody cs generalizing value with
  | case1 => cases h
  | case2 cs =>
    cases h
    simp
  | case3 => cases h
  | case4 cs c rest' hescape hlen ih =>
    cases hbody : stringBody rest' with
    | error m =>
      rw [hbody] at h
      cases h
    | ok p =>
      rw [hbody] at h
      cases h
      have := ih hbody
      simp only [List.length_cons]
      omega
  | case5 => cases h
  | case6 c cs _ _ _ ih =>
    cases hbody : stringBody cs with
    | error m =>
      rw [hbody] at h
      cases h
    | ok p =>
      rw [hbody] at h
      cases h
      exact Nat.le_succ_of_le (ih hbody)

/-! Numbers. -/

def extend (significand : Nat) : List Char → Nat × Nat
  | [] => (significand, 0)
  | c :: cs =>
    let next := significand * 10 + (c.toNat - '0'.toNat)
    if next < UInt64.size then
      let (significand, used) := extend next cs
      (significand, used + 1)
    else
      (significand, 0)

def wholeNumber (negative : Bool) (significand : Nat) : Number :=
  if negative then
    if significand = 0 ∨ 0x8000000000000000 < significand then
      .decimal true (UInt64.ofNat significand) 0
    else
      .integer (-significand)
  else
    .integer significand

def decimal (negative : Bool) (significand : Nat) (exponent : Int) (rest : List Char) :
    Except Misread (Number × List Char) :=
  let n := Number.decimal negative (UInt64.ofNat significand) exponent
  if n.toFloat?.isSome then .ok (n, rest) else .error ⟨.numberOutOfRange, rest⟩

def exponentPart (negative : Bool) (significand : Nat) (exponent : Int) (cs : List Char) :
    Except Misread (Number × List Char) :=
  let (below, cs) :=
    match cs with
    | '+' :: cs => (false, cs)
    | '-' :: cs => (true, cs)
    | cs => (false, cs)
  match cs with
  | [] => .error ⟨.unexpectedEnd, []⟩
  | c :: rest =>
    if c.isDigit then
      let digits := c :: rest.takeWhile Char.isDigit
      let shift : Int := (Text.number? 10 digits).getD 0
      decimal negative significand (if below then exponent - shift else exponent + shift)
        (rest.dropWhile Char.isDigit)
    else
      .error ⟨.invalidNumber, rest⟩

def numberTail (negative : Bool) (whole : List Char) (cs : List Char) :
    Except Misread (Number × List Char) :=
  let (significand, used) := extend 0 whole
  let exponent : Int := whole.length - used
  match cs with
  | '.' :: cs =>
    let fraction := cs.takeWhile Char.isDigit
    let rest := cs.dropWhile Char.isDigit
    match fraction, rest with
    | [], [] => .error ⟨.unexpectedEnd, []⟩
    | [], _ :: rest => .error ⟨.invalidNumber, rest⟩
    | _ :: _, rest =>
      let (significand, used) := extend significand fraction
      afterFraction significand (exponent - used) rest
  | cs =>
    if used = whole.length ∧ cs.head? ≠ some 'e' ∧ cs.head? ≠ some 'E' then
      .ok (wholeNumber negative significand, cs)
    else
      afterFraction significand exponent cs
where
  afterFraction (significand : Nat) (exponent : Int) : List Char → Except Misread (Number × List Char)
    | 'e' :: cs => exponentPart negative significand exponent cs
    | 'E' :: cs => exponentPart negative significand exponent cs
    | cs => decimal negative significand exponent cs

def unsignedNumber (negative : Bool) (c : Char) (cs : List Char) : Except Misread (Number × List Char) :=
  if c = '0' then
    match cs with
    | d :: rest =>
      if d.isDigit then .error ⟨.invalidNumber, rest⟩ else numberTail negative [c] (d :: rest)
    | [] => numberTail negative [c] []
  else if c.isDigit then
    numberTail negative (c :: cs.takeWhile Char.isDigit) (cs.dropWhile Char.isDigit)
  else
    .error ⟨.invalidNumber, cs⟩

def signedNumber (c : Char) (cs : List Char) : Except Misread (Number × List Char) :=
  if c = '-' then
    match cs with
    | [] => .error ⟨.unexpectedEnd, []⟩
    | d :: cs => unsignedNumber true d cs
  else
    unsignedNumber false c cs

theorem length_dropWhile_le (p : Char → Bool) (cs : List Char) : (cs.dropWhile p).length ≤ cs.length :=
  (List.dropWhile_suffix p).length_le

theorem rest_eq_of_decimal {negative : Bool} {significand : Nat} {exponent : Int} {cs rest : List Char}
    {n : Number} (h : decimal negative significand exponent cs = .ok (n, rest)) : rest = cs := by
  unfold decimal at h
  dsimp only at h
  split at h
  . cases h
    rfl
  . cases h

theorem length_le_of_exponentPart {negative : Bool} {significand : Nat} {exponent : Int}
    {cs rest : List Char} {n : Number}
    (h : exponentPart negative significand exponent cs = .ok (n, rest)) : rest.length ≤ cs.length := by
  unfold exponentPart at h
  dsimp only at h
  split at h
  . cases h
  . next c digits heq =>
    have : digits.length ≤ cs.length := by
      split at heq <;> cases heq <;> simp only [List.length_cons] <;> omega
    have hle := length_dropWhile_le Char.isDigit digits
    split at h
    . cases rest_eq_of_decimal h
      omega
    . cases h

theorem length_le_of_afterFraction {negative : Bool} {significand : Nat} {exponent : Int}
    {cs rest : List Char} {n : Number}
    (h : numberTail.afterFraction negative significand exponent cs = .ok (n, rest)) :
    rest.length ≤ cs.length := by
  unfold numberTail.afterFraction at h
  split at h
  . exact Nat.le_succ_of_le (length_le_of_exponentPart h)
  . exact Nat.le_succ_of_le (length_le_of_exponentPart h)
  . cases rest_eq_of_decimal h
    exact Nat.le_refl _

theorem length_le_of_numberTail {negative : Bool} {whole cs rest : List Char} {n : Number}
    (h : numberTail negative whole cs = .ok (n, rest)) : rest.length ≤ cs.length := by
  unfold numberTail at h
  dsimp only at h
  split at h
  . next digits =>
    have := length_dropWhile_le Char.isDigit digits
    split at h
    . cases h
    . cases h
    . have := length_le_of_afterFraction h
      simp only [List.length_cons]
      omega
  . split at h
    . cases h
      exact Nat.le_refl _
    . exact length_le_of_afterFraction h

theorem length_le_of_unsignedNumber {negative : Bool} {c : Char} {cs rest : List Char} {n : Number}
    (h : unsignedNumber negative c cs = .ok (n, rest)) : rest.length ≤ cs.length := by
  unfold unsignedNumber at h
  split at h
  . split at h
    . split at h
      . cases h
      . exact length_le_of_numberTail h
    . exact length_le_of_numberTail h
  . split at h
    . exact Nat.le_trans (length_le_of_numberTail h) (length_dropWhile_le _ _)
    . cases h

theorem length_le_of_signedNumber {c : Char} {cs rest : List Char} {n : Number}
    (h : signedNumber c cs = .ok (n, rest)) : rest.length ≤ cs.length := by
  unfold signedNumber at h
  split at h
  . split at h
    . cases h
    . exact Nat.le_succ_of_le (length_le_of_unsignedNumber h)
  . exact length_le_of_unsignedNumber h

/-! Values. -/

def isBlank (c : Char) : Bool :=
  c = ' ' || c = '\n' || c = '\t' || c = '\r'

def skipBlanks : Reader Unit where
  run cs := .ok ((), cs.dropWhile isBlank)
  size_le h := by
    cases h
    exact length_dropWhile_le _ _

def next : Reader Char where
  run
    | [] => .error ⟨.unexpectedEnd, []⟩
    | c :: cs => .ok (c, cs)
  size_le {cs c rest} h := by
    split at h
    . cases h
    . cases h
      exact Nat.le_succ _

theorem strict_next : next.Strict := by
  intro cs c rest h
  simp only [next] at h
  split at h
  . cases h
  . cases h
    exact Nat.lt_succ_self _

def front : Reader (Option Char) where
  run cs := .ok (cs.head?, cs)
  size_le h := by
    cases h
    exact Nat.le_refl _

def reject {α : Type} (cause : Cause := .unexpectedCharacter) : Reader α where
  run cs := .error ⟨cause, cs⟩
  size_le h := by cases h

def letters : (name : List Char) → Reader Unit
  | [] => return ()
  | c :: name => do
    if (← next) = c then letters name else reject

def string : Reader String where
  run cs := (stringBody cs).map fun (value, rest) => (String.ofList value, rest)
  size_le {cs s rest} h := by
    cases hbody : stringBody cs with
    | error m =>
      rw [hbody] at h
      cases h
    | ok p =>
      rw [hbody] at h
      cases h
      exact length_le_of_stringBody hbody

def number (c : Char) : Reader Number where
  run := signedNumber c
  size_le := length_le_of_signedNumber

def itemsRound (value : Reader Json) (items : List Json) :
    Reader (Reading.Round (List Json) (List Json)) := do
  let item ← value
  skipBlanks
  match ← next with
  | ',' =>
    skipBlanks
    if (← front) = some ']' then reject else return .again (items ++ [item])
  | ']' => return .done (items ++ [item])
  | _ => reject

theorem strict_itemsRound (value : Reader Json) (items : List Json) : (itemsRound value items).Strict :=
  .bind_right _ fun _ => .bind_right _ fun _ => strict_next.bind_left _

def items (value : Reader Json) : Reader (List Json) := do
  skipBlanks
  if (← front) = some ']' then
    let _ ← next
    return []
  else
    Reading.loop (itemsRound value) (fun items => (strict_itemsRound value items).advances) []

/--
One field of an object, and the comma or brace behind it. A field that was there already changes its value
and keeps its place.
-/
def fieldsRound (value : Reader Json) (fields : List (String × Json)) :
    Reader (Reading.Round (List (String × Json)) (List (String × Json))) := do
  skipBlanks
  match ← next with
  | '"' =>
    let key ← string
    skipBlanks
    match ← next with
    | ':' =>
      let fields := Keyed.set key (← value) fields
      skipBlanks
      match ← next with
      | ',' => return .again fields
      | '\x7d' => return .done fields
      | _ => reject
    | _ => reject
  | _ => reject

theorem strict_fieldsRound (value : Reader Json) (fields : List (String × Json)) :
    (fieldsRound value fields).Strict :=
  .bind_right _ fun _ => strict_next.bind_left _

def fields (value : Reader Json) : Reader (List (String × Json)) := do
  skipBlanks
  if (← front) = some '\x7d' then
    let _ ← next
    return []
  else
    Reading.loop (fieldsRound value) (fun fields => (strict_fieldsRound value fields).advances) []

def value (depth : Nat) : Reader Json := do
  skipBlanks
  match ← next with
  | 'n' =>
    letters "ull".toList
    return .null
  | 't' =>
    letters "rue".toList
    return .bool true
  | 'f' =>
    letters "alse".toList
    return .bool false
  | '"' => return .string (← string)
  | '[' =>
    match depth with
    | 0 => reject .nestedTooDeep
    | depth + 1 => return .array (← items (value depth))
  | '\x7b' =>
    match depth with
    | 0 => reject .nestedTooDeep
    | depth + 1 => return .object (← fields (value depth))
  | c => if c = '-' || c.isDigit then return .number (← number c) else reject

theorem strict_value (depth : Nat) : (value depth).Strict := by
  unfold value
  exact .bind_right _ fun _ => strict_next.bind_left _

/--
Whether a value that starts with `c` ends by itself. Any other value is over only before a blank, a mark
of JSON, or the end of the text.
-/
def delimits (c : Option Char) : Bool :=
  c = some '"' || c = some '[' || c = some '\x7b'

def endOfValue : Reader Unit := do
  match ← front with
  | none => return ()
  | some c =>
    if isBlank c || "\"[]\x7b\x7d,:".toList.contains c then
      return ()
    else
      let _ ← next
      reject

def streamItem : Reader Json := do
  let c ← front
  let item ← value maxDepth
  if delimits c then
    return item
  else
    endOfValue
    return item

theorem strict_streamItem : streamItem.Strict :=
  .bind_right _ fun _ => (strict_value _).bind_left _

def stream (cs : List Char) : Except Misread (List Json) :=
  match hblank : cs.dropWhile isBlank with
  | [] => .ok []
  | c :: rest =>
    match hitem : streamItem.run (c :: rest) with
    | .error m => .error m
    | .ok (item, rest') =>
      have : rest'.length < cs.length := by
        have := strict_streamItem hitem
        have := length_dropWhile_le isBlank cs
        simp only [Source.size_list, hblank] at *
        omega
      (stream rest').map (item :: ·)
termination_by cs.length

end Reader

def parse (text : String) : Except Misread Json :=
  (whole.run text.toList).map Prod.fst
where
  whole : Reader Json := do
    let item ← Reader.value maxDepth
    Reader.skipBlanks
    match ← Reader.front with
    | none => return item
    | some _ => Reader.reject

def parseStream (text : String) : Except Misread (List Json) :=
  Reader.stream text.toList

end LexiconAudit.Json
