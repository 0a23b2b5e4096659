import LexiconAudit.Fixture.Lexer
import LexiconAudit.Proofs.Checking
import Mathlib.Data.List.Forall2

/-!
This module contains what string literals stand for. A character may be written in several ways, and a literal
is read as a string if and only if it is made of one way to write each of the string's characters, whatever
stands behind it. Halves of a pair of surrogates stand for no character and are not read.
-/

namespace LexiconAudit.Fixture

open Text (Position)

/-! How characters are written. -/

def HexDigit (v : Nat) (c : Char) : Prop :=
  v < 16 ∧ (c = v.digitChar ∨ c = v.digitChar.toUpper)

instance (v : Nat) (c : Char) : Decidable (HexDigit v c) :=
  inferInstanceAs (Decidable (_ ∧ _))

def HexCode (n : Nat) (digits : List Char) : Prop :=
  n < 0x10000 ∧ List.Forall₂ HexDigit [n / 0x1000, n / 0x100 % 0x10, n / 0x10 % 0x10, n % 0x10] digits

def shortEscapes : List (Char × Char) :=
  [('"', '"'), ('\'', '\''), ('\\', '\\'), ('/', '/'), ('b', '\x08'), ('f', '\x0c'), ('n', '\n'), ('r', '\r'),
    ('t', '\t')]

/--
What may stand behind a backslash to write `c`: a letter, its code, or the codes of two surrogates.
-/
inductive Escapes (c : Char) : List Char → Prop where
  | letter {e : Char} : (e, c) ∈ shortEscapes → Escapes c [e]
  | code {digits : List Char} : c.toNat < 0x10000 → HexCode c.toNat digits → Escapes c ('u' :: digits)
  | pair {high low : List Char} : 0x10000 ≤ c.toNat → HexCode (0xD800 + (c.toNat - 0x10000) / 0x400) high →
      HexCode (0xDC00 + (c.toNat - 0x10000) % 0x400) low → Escapes c ('u' :: high ++ '\\' :: 'u' :: low)

/--
The ways to write `c` in a literal between these quotes.
-/
inductive Encodes (quote c : Char) : List Char → Prop where
  | plain : c ≠ quote → c ≠ '\\' → Encodes quote c [c]
  | escaped {source : List Char} : Escapes c source → Encodes quote c ('\\' :: source)

def IsHighSurrogate (n : Nat) : Prop :=
  0xD800 ≤ n ∧ n < 0xDC00

def IsLowSurrogate (n : Nat) : Prop :=
  0xDC00 ≤ n ∧ n < 0xE000

/--
What stands behind the backslash is the code of one surrogate: of a low one, or of a high one with no low one
behind it.
-/
inductive Unpaired : List Char → Prop where
  | low {n : Nat} {digits rest : List Char} : IsLowSurrogate n → HexCode n digits → Unpaired ('u' :: digits ++ rest)
  | high {n : Nat} {digits rest : List Char} : IsHighSurrogate n → HexCode n digits →
      (∀ m digits' rest', IsLowSurrogate m → HexCode m digits' → rest ≠ '\\' :: 'u' :: digits' ++ rest') →
      Unpaired ('u' :: digits ++ rest)

/-! What is read of a code. -/

theorem lt_of_digitValue? {c : Char} {v : Nat} (h : Text.digitValue? 16 c = some v) : c.toNat < 128 := by
  -- Each range of digits ends with an ASCII character.
  have hlt : ∀ d : Char, d.toNat < 128 → c ≤ d → c.toNat < 128 :=
    fun d hd hc => Nat.lt_of_le_of_lt (UInt32.le_iff_toNat_le.1 hc) hd
  simp only [Text.digitValue?, Option.filter_eq_some_iff] at h
  have hsome := h.1
  split at hsome
  . next hc => exact hlt '9' (by decide) hc.2
  . split at hsome
    . next hc => exact hlt 'f' (by decide) hc.2
    . split at hsome
      . next hc => exact hlt 'F' (by decide) hc.2
      . cases hsome

theorem digitValue?_eq_some_iff {c : Char} {v : Nat} : Text.digitValue? 16 c = some v ↔ HexDigit v c := by
  constructor
  . intro h
    have hall : ∀ n < 128, ∀ v ∈ Text.digitValue? 16 (Char.ofNat n), HexDigit v (Char.ofNat n) := by decide +kernel
    have := hall c.toNat (lt_of_digitValue? h)
    rw [Char.ofNat_toNat] at this
    exact this v h
  . intro ⟨hv, h⟩
    have hall : ∀ v < 16, Text.digitValue? 16 v.digitChar = some v ∧
        Text.digitValue? 16 v.digitChar.toUpper = some v := by decide +kernel
    rcases h with h | h
    . rw [h]
      exact (hall v hv).1
    . rw [h]
      exact (hall v hv).2

theorem hexCode?_eq_some_iff {cs digits rest : List Char} {n : Nat} :
    hexCode? cs = some (n, digits, rest) ↔ HexCode n digits ∧ cs = digits ++ rest := by
  constructor
  . intro h
    refine ⟨?_, (append_eq_of_hexCode? h).symm⟩
    unfold hexCode? at h
    split at h
    . simp only [Option.bind_eq_bind, Option.bind_eq_some_iff, Option.pure_def] at h
      obtain ⟨x, hx, y, hy, z, hz, w, hw, heq⟩ := h
      cases heq
      rw [digitValue?_eq_some_iff] at hx hy hz hw
      have := hx.1
      have := hy.1
      have := hz.1
      have := hw.1
      refine ⟨by omega, ?_⟩
      have hdigits : [(((x * 16 + y) * 16 + z) * 16 + w) / 0x1000, (((x * 16 + y) * 16 + z) * 16 + w) / 0x100 % 0x10,
          (((x * 16 + y) * 16 + z) * 16 + w) / 0x10 % 0x10, (((x * 16 + y) * 16 + z) * 16 + w) % 0x10] =
          [x, y, z, w] := by
        simp only [List.cons.injEq, and_true]
        omega
      rw [hdigits]
      exact .cons hx (.cons hy (.cons hz (.cons hw .nil)))
    . cases h
  . intro ⟨⟨hn, hdigits⟩, hcs⟩
    cases hdigits with
    | cons hx hdigits =>
      cases hdigits with
      | cons hy hdigits =>
        cases hdigits with
        | cons hz hdigits =>
          cases hdigits with
          | cons hw hdigits =>
            cases hdigits
            rw [← digitValue?_eq_some_iff] at hx hy hz hw
            subst hcs
            simp only [List.cons_append, List.nil_append, hexCode?, hx, hy, hz, hw, Option.bind_eq_bind,
              Option.bind_some, Option.pure_def, Option.some.injEq, Prod.mk.injEq, and_true]
            omega

theorem hexCode?_append_of_hexCode {n : Nat} {digits : List Char} (h : HexCode n digits) (rest : List Char) :
    hexCode? (digits ++ rest) = some (n, digits, rest) :=
  hexCode?_eq_some_iff.2 ⟨h, rfl⟩

theorem charOfCode?_eq_some_iff {n : Nat} {c : Char} : charOfCode? n = some c ↔ c.toNat = n := by
  unfold charOfCode?
  constructor
  . intro h
    split at h
    . next hn =>
      cases h
      rw [Char.ofNat, dif_pos hn]
      rfl
    . cases h
  . intro h
    have hvalid : n.isValidChar := by
      rw [← h]
      exact c.valid
    rw [if_pos hvalid, ← h, Char.ofNat_toNat]

theorem shortEscape?_eq_some_iff {e c : Char} : shortEscape? e = some c ↔ (e, c) ∈ shortEscapes := by
  simp only [shortEscapes, List.mem_cons, List.not_mem_nil, Prod.mk.injEq, or_false]
  unfold shortEscape?
  split <;> simp_all [eq_comm]

/-! Escapes. -/

theorem codeEscape_of_single {n : Nat} {digits : List Char} (h : HexCode n digits) (hn : ¬ IsHighSurrogate n)
    (rest : List Char) :
    codeEscape (digits ++ rest) =
      match charOfCode? n with
      | some c => .ok ⟨c, 'u' :: digits, rest⟩
      | none => .error .invalidCodeEscape := by
  unfold codeEscape
  rw [hexCode?_append_of_hexCode h]
  exact if_neg hn

theorem codeEscape_of_pair {n m : Nat} {high low : List Char} (hn : IsHighSurrogate n) (hm : IsLowSurrogate m)
    (hhigh : HexCode n high) (hlow : HexCode m low) (rest : List Char) :
    codeEscape (high ++ '\\' :: 'u' :: (low ++ rest)) =
      match charOfCode? (0x10000 + (n - 0xD800) * 0x400 + (m - 0xDC00)) with
      | some c => .ok ⟨c, 'u' :: high ++ '\\' :: 'u' :: low, rest⟩
      | none => .error .invalidSurrogatePair := by
  unfold codeEscape
  rw [hexCode?_append_of_hexCode hhigh]
  simp only [IsHighSurrogate, IsLowSurrogate] at hn hm
  cases hc : charOfCode? (0x10000 + (n - 0xD800) * 0x400 + (m - 0xDC00)) with
  | none => simp only [if_pos hn, hexCode?_append_of_hexCode hlow, if_pos hm, hc]
  | some c => simp only [if_pos hn, hexCode?_append_of_hexCode hlow, if_pos hm, hc]

theorem charOfCode?_pair {n m : Nat} (hn : IsHighSurrogate n) (hm : IsLowSurrogate m) :
    ∃ c, charOfCode? (0x10000 + (n - 0xD800) * 0x400 + (m - 0xDC00)) = some c := by
  obtain ⟨hn, hn'⟩ := hn
  obtain ⟨hm, hm'⟩ := hm
  apply Exists.intro
  apply if_pos
  apply Or.inr
  omega

theorem escape_of_escapes {c : Char} {source : List Char} (h : Escapes c source) (rest : List Char) :
    escape (source ++ rest) = .ok ⟨c, source, rest⟩ := by
  cases h with
  | @letter e he =>
    have hu : e ≠ 'u' := by
      rintro rfl
      simp [shortEscapes] at he
    rw [List.singleton_append, escape]
    . rw [shortEscape?_eq_some_iff.2 he]
    . exact hu
  | code hc hdigits =>
    have hn : ¬ IsHighSurrogate c.toNat := by
      have : c.toNat.isValidChar := c.valid
      simp only [Nat.isValidChar, IsHighSurrogate] at *
      omega
    refine (codeEscape_of_single hdigits hn rest).trans ?_
    rw [charOfCode?_eq_some_iff.2 rfl]
  | @pair high low hc hhigh hlow =>
    have : c.toNat.isValidChar := c.valid
    have hlt : c.toNat < 0x110000 := by
      simp only [Nat.isValidChar] at this
      omega
    have hn : IsHighSurrogate (0xD800 + (c.toNat - 0x10000) / 0x400) := by
      simp only [IsHighSurrogate]
      omega
    have hm : IsLowSurrogate (0xDC00 + (c.toNat - 0x10000) % 0x400) := by
      simp only [IsLowSurrogate]
      omega
    have hsum : c.toNat = 0x10000 + (0xD800 + (c.toNat - 0x10000) / 0x400 - 0xD800) * 0x400 +
        (0xDC00 + (c.toNat - 0x10000) % 0x400 - 0xDC00) := by omega
    simp only [List.cons_append, List.append_assoc]
    refine (codeEscape_of_pair hn hm hhigh hlow rest).trans ?_
    rw [charOfCode?_eq_some_iff.2 hsum]
    rfl

theorem escapes_of_codeEscape {cs : List Char} {piece : Piece} (h : codeEscape cs = .ok piece) :
    Escapes piece.value piece.source := by
  unfold codeEscape at h
  split at h
  . cases h
  . next high digits rest hhigh =>
    have hcode := (hexCode?_eq_some_iff.1 hhigh).1
    split at h
    . next hn =>
      split at h
      . split at h
        . cases h
        . next low digits' rest' hlow =>
          have hcode' := (hexCode?_eq_some_iff.1 hlow).1
          split at h
          . next hm =>
            split at h
            . next c hc =>
              cases h
              rw [charOfCode?_eq_some_iff] at hc
              have hhigh' : 0xD800 + (c.toNat - 0x10000) / 0x400 = high := by omega
              have hlow' : 0xDC00 + (c.toNat - 0x10000) % 0x400 = low := by omega
              refine .pair ?_ (hhigh' ▸ hcode) (hlow' ▸ hcode')
              change 0x10000 ≤ c.toNat
              omega
            . cases h
          . cases h
      . cases h
    . split at h
      . next c hc =>
        cases h
        rw [charOfCode?_eq_some_iff] at hc
        exact .code (hc ▸ hcode.1) (hc ▸ hcode)
      . cases h

theorem escapes_of_escape {cs : List Char} {piece : Piece} (h : escape cs = .ok piece) :
    Escapes piece.value piece.source := by
  unfold escape at h
  split at h
  . cases h
  . exact escapes_of_codeEscape h
  . split at h
    . next hvalue =>
      cases h
      exact .letter (shortEscape?_eq_some_iff.1 hvalue)
    . cases h

theorem escape_of_unpaired {cs : List Char} (h : Unpaired cs) :
    escape cs = .error .invalidCodeEscape ∨ escape cs = .error .unpairedSurrogate := by
  cases h with
  | @low n digits rest hn hdigits =>
    apply Or.inl
    have hn' : ¬ IsHighSurrogate n := by
      simp only [IsHighSurrogate, IsLowSurrogate] at *
      omega
    have hcode : charOfCode? n = none := by
      apply if_neg
      simp only [Nat.isValidChar, IsLowSurrogate] at *
      omega
    refine (codeEscape_of_single hdigits hn' rest).trans ?_
    rw [hcode]
  | @high n digits rest hn hdigits halone =>
    change codeEscape (digits ++ rest) = _ ∨ codeEscape (digits ++ rest) = _
    unfold codeEscape
    rw [hexCode?_append_of_hexCode hdigits]
    dsimp only
    simp only [IsHighSurrogate] at hn
    rw [if_pos hn]
    split
    . split
      . exact .inl rfl
      . next rest' m digits' rest'' hlow =>
        obtain ⟨hcode, hrest⟩ := hexCode?_eq_some_iff.1 hlow
        split
        . next hm =>
          apply absurd _ (halone m digits' rest'' hm hcode)
          rw [hrest]
          rfl
        . exact .inr rfl
    . exact .inr rfl

/-! Literals. -/

variable {quote : Char}

theorem encodes_of_stringBody {cs : List Char} {body : Body} (h : stringBody quote cs = .ok body) :
    ∃ pieces, List.Forall₂ (Encodes quote) body.value pieces ∧ body.source = pieces.flatten ++ [quote] := by
  fun_induction stringBody quote cs generalizing body with
  | case1 => cases h
  | case2 cs =>
    cases h
    exact ⟨[], .nil, rfl⟩
  | case3 => cases h
  | case4 => cases h
  | case5 cs piece hpiece _ body' hbody _ ih =>
    cases h
    obtain ⟨pieces, hpieces, hsource⟩ := ih hbody
    refine ⟨('\\' :: piece.source) :: pieces, .cons (.escaped (escapes_of_escape hpiece)) hpieces, ?_⟩
    simp only [Body.cons, hsource, List.flatten_cons, List.append_assoc]
  | case6 => cases h
  | case7 c cs hne hne' body' hbody ih =>
    cases h
    obtain ⟨pieces, hpieces, hsource⟩ := ih hbody
    refine ⟨[c] :: pieces, .cons (.plain hne hne') hpieces, ?_⟩
    simp only [Body.cons, hsource, List.flatten_cons, List.append_assoc]

theorem stringBody_of_encodes (hquote : quote ≠ '\\') {c : Char} {source : List Char} (h : Encodes quote c source)
    (cs : List Char) :
    stringBody quote (source ++ cs) =
      match stringBody quote cs with
      | .error m => .error (m.inside source)
      | .ok body => .ok (body.cons c source) := by
  cases h with
  | plain hne hne' =>
    rw [List.singleton_append]
    cases hbody : stringBody quote cs with
    | error m => simp only [stringBody, if_neg hne, if_neg hne', hbody]
    | ok body => simp only [stringBody, if_neg hne, if_neg hne', hbody]
  | @escaped source hsource =>
    rw [List.cons_append, stringBody, if_neg hquote.symm, if_pos rfl]
    split
    . next hescape =>
      rw [escape_of_escapes hsource] at hescape
      cases hescape
    . next hescape =>
      rw [escape_of_escapes hsource] at hescape
      cases hescape
      rfl

theorem stringBody_of_forall₂ (hquote : quote ≠ '\\') {value : List Char} {pieces : List (List Char)}
    (h : List.Forall₂ (Encodes quote) value pieces) (rest : List Char) :
    stringBody quote (pieces.flatten ++ quote :: rest) = .ok ⟨value, pieces.flatten ++ [quote], rest⟩ := by
  induction h with
  | nil =>
    rw [List.flatten_nil, List.nil_append, stringBody, if_pos rfl]
    rfl
  | @cons c source value pieces hc _ ih =>
    rw [List.flatten_cons, List.append_assoc, stringBody_of_encodes hquote hc, ih, List.append_assoc]
    rfl

theorem Misread.fault_inside (m : Misread) (source : List Char) : (m.inside source).fault = m.fault := by
  unfold Misread.inside
  split
  . rfl
  . rfl

theorem stringBody_error_of_forall₂ (hquote : quote ≠ '\\') {value : List Char} {pieces : List (List Char)}
    (h : List.Forall₂ (Encodes quote) value pieces) {cs : List Char} {P : Fault → Prop}
    (hcs : ∃ m, stringBody quote cs = .error m ∧ P m.fault) :
    ∃ m, stringBody quote (pieces.flatten ++ cs) = .error m ∧ P m.fault := by
  induction h with
  | nil => exact hcs
  | cons hc _ ih =>
    obtain ⟨m, hm, hfault⟩ := ih
    rw [List.flatten_cons, List.append_assoc, stringBody_of_encodes hquote hc, hm]
    exact ⟨_, rfl, (m.fault_inside _).symm ▸ hfault⟩

theorem codeEscape_ne_invalidSurrogatePair {cs : List Char} : codeEscape cs ≠ .error .invalidSurrogatePair := by
  intro h
  unfold codeEscape at h
  split at h
  . cases h
  . next hhigh =>
    split at h
    . next hn =>
      split at h
      . split at h
        . cases h
        . split at h
          . next hm =>
            obtain ⟨c, hc⟩ := charOfCode?_pair hn hm
            rw [hc] at h
            cases h
          . cases h
      . cases h
    . split at h
      . cases h
      . cases h

theorem escape_ne_invalidSurrogatePair {cs : List Char} : escape cs ≠ .error .invalidSurrogatePair := by
  intro h
  unfold escape at h
  split at h
  . cases h
  . exact codeEscape_ne_invalidSurrogatePair h
  . split at h
    . cases h
    . cases h

theorem stringBody_ne_invalidSurrogatePair {cs : List Char} {m : Misread} (h : stringBody quote cs = .error m) :
    m.fault ≠ .invalidSurrogatePair := by
  fun_induction stringBody quote cs generalizing m with
  | case1 =>
    cases h
    intro hfault
    cases hfault
  | case2 => cases h
  | case3 cs fault hescape =>
    cases h
    rw [Misread.fault_inside]
    intro hfault
    exact escape_ne_invalidSurrogatePair (hescape.trans (congrArg _ hfault))
  | case4 cs piece _ _ m' hm _ ih =>
    cases h
    rw [Misread.fault_inside]
    exact ih hm
  | case5 => cases h
  | case6 c cs _ _ m' hm ih =>
    cases h
    rw [Misread.fault_inside]
    exact ih hm
  | case7 => cases h

theorem lexeme_ne_invalidSurrogatePair {c : Char} {cs : List Char} {m : Misread} (h : lexeme c cs = .error m) :
    m.fault ≠ .invalidSurrogatePair := by
  unfold lexeme at h
  split at h
  all_goals try cases h
  . unfold commentLexeme at h
    split at h
    . split at h
      . cases h
        intro hfault
        cases hfault
      . cases h
    . cases h
    . cases h
      intro hfault
      cases hfault
  . split at h
    . split at h
      . next hbody =>
        cases h
        rw [Misread.fault_inside]
        exact stringBody_ne_invalidSurrogatePair hbody
      . cases h
    . split at h
      . cases h
      . split at h
        . cases h
        . cases h
          intro hfault
          cases hfault

theorem readTokens_ne_invalidSurrogatePair {position : Position} {cs : List Char} {r : Rejection}
    (h : readTokens position cs = .error r) : r.fault ≠ .invalidSurrogatePair := by
  fun_induction readTokens position cs generalizing r with
  | case1 => cases h
  | case2 =>
    cases h
    exact lexeme_ne_invalidSurrogatePair ‹_›
  | case3 =>
    rename_i htokens ih
    cases h
    exact ih htokens
  | case4 => cases h

theorem lexeme_of_quote (hquote : quote = '"' ∨ quote = '\'') (cs : List Char) :
    lexeme quote cs =
      match stringBody quote cs with
      | .error m => .error (m.inside [quote])
      | .ok body => .ok ⟨.string (String.ofList body.value), quote :: body.source, body.rest⟩ := by
  rcases hquote with rfl | rfl
  . rfl
  . rfl

/--
A literal is read as a string, up to its closing quote, if and only if it is made of one way to write each of the
string's characters. A code that is half a pair of surrogates makes it unreadable, and no text is refused because a
pair of surrogates stands for no character.
-/
theorem lexeme_eq_string_iff (hquote : quote = '"' ∨ quote = '\'') :
    (∀ (value : String) (source rest : List Char),
      lexeme quote (source ++ rest) = .ok ⟨.string value, quote :: source, rest⟩ ↔
        ∃ pieces, List.Forall₂ (Encodes quote) value.toList pieces ∧ source = pieces.flatten ++ [quote]) ∧
    (∀ (value : List Char) (pieces : List (List Char)) (cs : List Char),
      List.Forall₂ (Encodes quote) value pieces → Unpaired cs →
        ∃ m, lexeme quote (pieces.flatten ++ '\\' :: cs) = .error m ∧
          (m.fault = .invalidCodeEscape ∨ m.fault = .unpairedSurrogate)) ∧
    ∀ (text : String) (r : Rejection), tokenize text = .error r → r.fault ≠ .invalidSurrogatePair := by
  have hbackslash : quote ≠ '\\' := by
    rcases hquote with rfl | rfl
    . decide
    . decide
  refine ⟨?_, ?_, fun _ _ h => readTokens_ne_invalidSurrogatePair h⟩
  . intro value source rest
    rw [lexeme_of_quote hquote]
    constructor
    . intro h
      split at h
      . cases h
      . next body hbody =>
        cases h
        rw [String.toList_ofList]
        exact encodes_of_stringBody hbody
    . rintro ⟨pieces, hpieces, rfl⟩
      rw [List.append_assoc, List.singleton_append, stringBody_of_forall₂ hbackslash hpieces]
      dsimp only
      rw [String.ofList_toList]
  . intro value pieces cs hpieces hcs
    have hstart : ∃ m, stringBody quote ('\\' :: cs) = .error m ∧
        (m.fault = .invalidCodeEscape ∨ m.fault = .unpairedSurrogate) := by
      rw [stringBody, if_neg hbackslash.symm, if_pos rfl]
      split
      . next fault hfault =>
        refine ⟨_, rfl, ?_⟩
        rw [Misread.fault_inside]
        rcases escape_of_unpaired hcs with h | h
        . exact .inl (Except.error.inj (hfault.symm.trans h))
        . exact .inr (Except.error.inj (hfault.symm.trans h))
      . next hpiece =>
        rcases escape_of_unpaired hcs with h | h
        . cases hpiece.symm.trans h
        . cases hpiece.symm.trans h
    obtain ⟨m, hm, hfault⟩ :=
      stringBody_error_of_forall₂ (P := fun f => f = .invalidCodeEscape ∨ f = .unpairedSurrogate) hbackslash hpieces
        hstart
    rw [lexeme_of_quote hquote, hm]
    exact ⟨_, rfl, (m.fault_inside _).symm ▸ hfault⟩

theorem lexeme_mixed_literal :
    ('\'' = '"' ∨ '\'' = '\'') ∧
      lexeme '\'' "\"\\n\\uD83d\\uDe00', 1".toList =
        .ok ⟨.string "\"\n😀", "'\"\\n\\uD83d\\uDe00'".toList, [',', ' ', '1']⟩ := by
  refine ⟨.inr rfl, ?_⟩
  apply ((lexeme_eq_string_iff (.inr rfl)).1 "\"\n😀" "\"\\n\\uD83d\\uDe00'".toList [',', ' ', '1']).2
  have hquote : Encodes '\'' '"' ['"'] := .plain (by decide) (by decide)
  have hfeed : Encodes '\'' '\n' ['\\', 'n'] := .escaped (.letter (by decide))
  have hsmile : Encodes '\'' '😀' ('\\' :: 'u' :: ['D', '8', '3', 'd'] ++ '\\' :: 'u' :: ['D', 'e', '0', '0']) := by
    refine .escaped (.pair (by decide) ⟨by decide, ?_⟩ ⟨by decide, ?_⟩)
    . exact .cons (by decide) (.cons (by decide) (.cons (by decide) (.cons (by decide) .nil)))
    . exact .cons (by decide) (.cons (by decide) (.cons (by decide) (.cons (by decide) .nil)))
  exact ⟨_, .cons hquote (.cons hfeed (.cons hsmile .nil)), by decide⟩

end LexiconAudit.Fixture
