import LexiconAudit.Proofs.Fixture.Gaps
import LexiconAudit.Proofs.Fixture.Literals
import LexiconAudit.Proofs.Fixture.Partition

/-!
This module contains how tokens are written. Any tokens can be: one after another, each with blanks behind it,
whichever of its forms is taken for a string or a comment, they are read back from the text.
-/

namespace LexiconAudit.Fixture

open Text (isBlank isLetter trim trimEnd)
open Text.Scanner (takeWhile_append dropWhile_append)

/-! What can be written. -/

inductive IsName : List Char → Prop where
  | word {c : Char} {cs : List Char} : startsWord c = true → (∀ d ∈ cs, continuesWord d = true) →
    c :: cs ∉ ["true".toList, "false".toList, "null".toList] → IsName (c :: cs)

inductive IsNumeral : List Char → Prop where
  | number {c : Char} {cs : List Char} : startsNumber c = true → (∀ d ∈ cs, continuesNumber d = true) →
    IsNumeral (c :: cs)

structure IsTrimmed (cs : List Char) : Prop where
  front : ∀ c ∈ cs.head?, isBlank c = false
  back : ∀ c ∈ cs.getLast?, isBlank c = false

instance (cs : List Char) : Decidable (IsTrimmed cs) :=
  decidable_of_iff (cs.head?.all (!isBlank ·) = true ∧ cs.getLast?.all (!isBlank ·) = true) <| by
    simp only [Option.all_eq_true, Bool.not_eq_true']
    exact ⟨fun ⟨hfront, hback⟩ => ⟨hfront, hback⟩, fun h => ⟨h.front, h.back⟩⟩

/--
The tokens that can be written. A comment ends with its line or with a star and a slash, so one of the two has
to be absent from its body.
-/
def Kind.IsWritable : Kind → Prop
  | word name => IsName name.toList
  | number text => IsNumeral text.toList
  | comment body => IsTrimmed body.toList ∧ (¬['*', '/'] <:+: body.toList ∨ '\n' ∉ body.toList)
  | _ => True

inductive Kind.Spelling : Kind → List Char → Prop where
  | leftBrace : Spelling .leftBrace ['\x7b']
  | rightBrace : Spelling .rightBrace ['\x7d']
  | leftBracket : Spelling .leftBracket ['[']
  | rightBracket : Spelling .rightBracket [']']
  | colon : Spelling .colon [':']
  | comma : Spelling .comma [',']
  | truth (value : Bool) : Spelling (.truth value) (toString value).toList
  | null : Spelling .null "null".toList
  | string {value : String} {quote : Char} {pieces : List (List Char)} : quote = '"' ∨ quote = '\'' →
    List.Forall₂ (Encodes quote) value.toList pieces → Spelling (.string value) (quote :: pieces.flatten ++ [quote])
  | word {name : String} : IsName name.toList → Spelling (.word name) name.toList
  | number {text : String} : IsNumeral text.toList → Spelling (.number text) text.toList
  | block {body : String} : IsTrimmed body.toList → ¬['*', '/'] <:+: body.toList →
    Spelling (.comment body) ("/* ".toList ++ body.toList ++ " */".toList)
  | line {body : String} : IsTrimmed body.toList → '\n' ∉ body.toList →
    Spelling (.comment body) ("// ".toList ++ body.toList)

structure Separates (source blanks : List Char) : Prop where
  nonempty : blanks ≠ []
  areBlank : ∀ c ∈ blanks, isBlank c = true
  line : ['/', '/'] <+: source → blanks.head? = some '\n'

/--
A text of tokens of these kinds, each in one of its forms and with blanks behind it.
-/
inductive WrittenOut : List Kind → List Char → Prop where
  | nil : WrittenOut [] []
  | cons {kind : Kind} {kinds : List Kind} {source blanks text : List Char} : kind.Spelling source →
    Separates source blanks → WrittenOut kinds text → WrittenOut (kind :: kinds) (source ++ (blanks ++ text))

/-! Strings. -/

/--
The character in a literal between these quotes, behind a backslash if it cannot stand there alone.
-/
def quoted (quote c : Char) : List Char :=
  if c = quote ∨ c = '\\' then ['\\', c] else [c]

/--
The literal that has no more escapes than it needs.
-/
def literal (quote : Char) (value : String) : List Char :=
  quote :: (value.toList.map (quoted quote)).flatten ++ [quote]

theorem encodes_quoted {quote : Char} (hquote : quote = '"' ∨ quote = '\'') (c : Char) :
    Encodes quote c (quoted quote c) := by
  unfold quoted
  split
  . next hc =>
    refine .escaped (.letter ?_)
    rcases hc with rfl | rfl
    . rcases hquote with rfl | rfl
      . decide
      . decide
    . decide
  . next hc =>
    rw [not_or] at hc
    exact .plain hc.1 hc.2

theorem spelling_literal {quote : Char} (hquote : quote = '"' ∨ quote = '\'') (value : String) :
    (Kind.string value).Spelling (literal quote value) := by
  refine .string hquote ?_
  rw [List.forall₂_map_right_iff, List.forall₂_same]
  exact fun c _ => encodes_quoted hquote c

theorem Kind.IsWritable.exists_spelling {kind : Kind} (h : kind.IsWritable) : ∃ source, kind.Spelling source := by
  cases kind with
  | leftBrace => exact ⟨_, .leftBrace⟩
  | rightBrace => exact ⟨_, .rightBrace⟩
  | leftBracket => exact ⟨_, .leftBracket⟩
  | rightBracket => exact ⟨_, .rightBracket⟩
  | colon => exact ⟨_, .colon⟩
  | comma => exact ⟨_, .comma⟩
  | string value => exact ⟨_, spelling_literal (.inl rfl) value⟩
  | word name => exact ⟨_, .word h⟩
  | number text => exact ⟨_, .number h⟩
  | truth value => exact ⟨_, .truth value⟩
  | null => exact ⟨_, .null⟩
  | comment body =>
    obtain ⟨htrimmed, hblock | hline⟩ := h
    . exact ⟨_, .block htrimmed hblock⟩
    . exact ⟨_, .line htrimmed hline⟩

theorem exists_writtenOut {kinds : List Kind} (h : ∀ kind ∈ kinds, kind.IsWritable) :
    ∃ text, WrittenOut kinds text := by
  induction kinds with
  | nil => exact ⟨[], .nil⟩
  | cons kind kinds ih =>
    rw [List.forall_mem_cons] at h
    obtain ⟨source, hsource⟩ := h.1.exists_spelling
    obtain ⟨text, htext⟩ := ih h.2
    have hfeed : Separates source ['\n'] := ⟨by decide, List.all_eq_true.1 (by decide), fun _ => rfl⟩
    exact ⟨_, .cons hsource hfeed htext⟩

/-! Words and numbers. -/

theorem lt_of_startsNumber {c : Char} (h : startsNumber c = true) : c.toNat < 128 := by
  simp only [startsNumber, Bool.or_eq_true, decide_eq_true_eq] at h
  rcases h with (h | rfl) | rfl
  . exact Nat.lt_of_le_of_lt (Char.isDigit_iff_toNat.1 h).2 (by decide)
  . decide
  . decide

theorem startsWord_of_startsNumber {c : Char} (h : startsNumber c = true) : startsWord c = false := by
  have hall : ∀ n < 128, startsNumber (Char.ofNat n) = true → startsWord (Char.ofNat n) = false := by
    decide +kernel
  have := hall c.toNat (lt_of_startsNumber h)
  rw [Char.ofNat_toNat] at this
  exact this h

theorem isGap_of_starts {c : Char} (h : startsWord c = true ∨ startsNumber c = true) : isGap c = false := by
  have hall : ∀ n ∈ 0xFEFF :: blankCodes,
      startsWord (Char.ofNat n) = false ∧ startsNumber (Char.ofNat n) = false := by
    decide +kernel
  refine Bool.eq_false_iff.2 fun hgap => ?_
  have hmem : c.toNat ∈ 0xFEFF :: blankCodes := by
    simp only [isGap, Bool.or_eq_true, decide_eq_true_eq] at hgap
    rcases hgap with hgap | rfl
    . exact List.mem_cons_of_mem _ (mem_blankCodes_of_isBlank hgap)
    . exact List.mem_cons_self
  have hneither := hall c.toNat hmem
  rw [Char.ofNat_toNat] at hneither
  simp [hneither] at h

section Runs

variable {c : Char} {cs after : List Char}

theorem lexeme_of_name (hc : startsWord c = true) (hcs : ∀ d ∈ cs, continuesWord d = true)
    (hafter : ∀ d, after.head? = some d → continuesWord d = false) :
    lexeme c (cs ++ after) = .ok ⟨wordKind (String.ofList (c :: cs)), c :: cs, after⟩ := by
  have hquote : ¬(c = '"' ∨ c = '\'') := by
    rintro (rfl | rfl)
    . revert hc
      decide +kernel
    . revert hc
      decide +kernel
  have hnumber : ¬startsNumber c = true := fun h => by
    rw [startsWord_of_startsNumber h] at hc
    cases hc
  rw [lexeme, if_neg hquote, if_neg hnumber, if_pos hc, takeWhile_append hcs hafter, dropWhile_append hcs hafter]
  all_goals
    rintro rfl
    revert hc
    decide +kernel

theorem lexeme_of_numeral (hc : startsNumber c = true) (hcs : ∀ d ∈ cs, continuesNumber d = true)
    (hafter : ∀ d, after.head? = some d → continuesNumber d = false) :
    lexeme c (cs ++ after) = .ok ⟨.number (String.ofList (c :: cs)), c :: cs, after⟩ := by
  have hquote : ¬(c = '"' ∨ c = '\'') := by
    rintro (rfl | rfl)
    . revert hc
      decide
    . revert hc
      decide
  rw [lexeme, if_neg hquote, if_pos hc, takeWhile_append hcs hafter, dropWhile_append hcs hafter]
  all_goals
    rintro rfl
    revert hc
    decide

end Runs

theorem wordKind_of_not_mem {name : String} (h : name.toList ∉ ["true".toList, "false".toList, "null".toList]) :
    wordKind name = .word name := by
  simp only [List.mem_cons, List.not_mem_nil, or_false, not_or, String.toList_inj] at h
  rw [wordKind, if_neg h.1, if_neg h.2.1, if_neg h.2.2]

theorem IsName.exists_lexeme {name : String} (h : IsName name.toList) {after : List Char}
    (hafter : ∀ d, after.head? = some d → continuesWord d = false) :
    ∃ c cs, name.toList = c :: cs ∧ isGap c = false ∧
      lexeme c (cs ++ after) = .ok ⟨.word name, name.toList, after⟩ := by
  generalize hsource : name.toList = source at h
  cases h with
  | @word c cs hc hcs hne =>
    have hread := lexeme_of_name hc hcs hafter
    rw [← hsource] at hne
    rw [← hsource, String.ofList_toList, wordKind_of_not_mem hne, hsource] at hread
    exact ⟨c, cs, rfl, isGap_of_starts (.inl hc), hread⟩

theorem IsNumeral.exists_lexeme {text : String} (h : IsNumeral text.toList) {after : List Char}
    (hafter : ∀ d, after.head? = some d → continuesNumber d = false) :
    ∃ c cs, text.toList = c :: cs ∧ isGap c = false ∧
      lexeme c (cs ++ after) = .ok ⟨.number text, text.toList, after⟩ := by
  generalize hsource : text.toList = source at h
  cases h with
  | @number c cs hc hcs =>
    have hread := lexeme_of_numeral hc hcs hafter
    rw [← hsource, String.ofList_toList, hsource] at hread
    exact ⟨c, cs, rfl, isGap_of_starts (.inr hc), hread⟩

/-! Comments. -/

theorem trimEnd_of_getLast? {cs : List Char} (h : ∀ c ∈ cs.getLast?, isBlank c = false) :
    trimEnd cs = cs := by
  induction cs with
  | nil => rfl
  | cons c cs ih =>
    rw [trimEnd]
    cases cs with
    | nil => simp [trimEnd, h c rfl]
    | cons d cs => rw [ih (by simpa using h)]

theorem IsTrimmed.trim {cs : List Char} (h : IsTrimmed cs) : Text.trim cs = cs := by
  have hdrop : cs.dropWhile isBlank = cs := by
    cases cs with
    | nil => rfl
    | cons c cs => exact List.dropWhile_cons_of_neg (by simp [h.front c rfl])
  rw [Text.trim, hdrop, trimEnd_of_getLast? h.back]

theorem IsTrimmed.trim_cons {cs : List Char} (h : IsTrimmed cs) : Text.trim (' ' :: cs) = cs := h.trim

theorem not_infix_of_blanks {body : List Char} (h : ¬['*', '/'] <:+: body) :
    ¬['*', '/'] <:+: ' ' :: body ++ [' '] ++ ['*'] := by
  have hlast {c : Char} (hc : '/' ≠ c) (cs : List Char) : ¬['*', '/'] <:+ cs ++ [c] := by
    intro hsuffix
    have := hsuffix.getLast (by simp)
    simp only [List.getLast_cons_cons, List.getLast_singleton, List.getLast_append_singleton] at this
    exact hc this
  have hfront : ¬['*', '/'] <+: ' ' :: body := by
    rintro ⟨more, hmore⟩
    cases hmore
  rw [List.infix_concat_iff, List.infix_concat_iff, List.infix_cons_iff]
  simp only [hlast (by decide : '/' ≠ '*'), hlast (by decide : '/' ≠ ' '), hfront, h, or_self, not_false_eq_true]

theorem lexeme_block {body : String} (hbody : IsTrimmed body.toList) (hend : ¬['*', '/'] <:+: body.toList)
    (after : List Char) :
    lexeme '/' ('*' :: ' ' :: (body.toList ++ " */".toList) ++ after) =
      .ok ⟨.comment body, "/* ".toList ++ body.toList ++ " */".toList, after⟩ := by
  have hbreak := Text.breakAt_of_not_infix (not_infix_of_blanks hend) after
  have htext : ' ' :: (body.toList ++ " */".toList) ++ after =
      ' ' :: body.toList ++ [' '] ++ ['*', '/'] ++ after := by
    simp
  have htrim : trim (' ' :: body.toList ++ [' ']) = body.toList := by
    rw [trim_append_blanks _ (List.all_eq_true.1 (by decide)), hbody.trim_cons]
  change commentLexeme ('*' :: (' ' :: (body.toList ++ " */".toList) ++ after)) = _
  rw [htext, commentLexeme, hbreak]
  dsimp only
  rw [htrim, String.ofList_toList]
  simp

theorem lexeme_line {body : String} (hbody : IsTrimmed body.toList) (hfeed : '\n' ∉ body.toList) {after : List Char}
    (hafter : ∀ d, after.head? = some d → d = '\n') :
    lexeme '/' ('/' :: ' ' :: body.toList ++ after) =
      .ok ⟨.comment body, "// ".toList ++ body.toList, after⟩ := by
  have hsplits : SplitsLine (' ' :: body.toList) after := by
    refine ⟨List.forall_mem_cons.2 ⟨by decide, fun c hc => decide_eq_true ?_⟩, fun d hd => ?_⟩
    . rintro rfl
      exact hfeed hc
    . rw [hafter d hd]
      rfl
  have hread := commentLexeme_line hsplits
  rw [hbody.trim_cons, String.ofList_toList] at hread
  exact hread

/-! Tokens. -/

section Separates

variable {source blanks : List Char} (h : Separates source blanks) (text : List Char)

include h

theorem Separates.head?_append : (blanks ++ text).head? = blanks.head? :=
  List.head?_append_of_ne_nil _ h.nonempty

theorem Separates.isBlank_of_head? {d : Char} (hd : (blanks ++ text).head? = some d) : isBlank d = true := by
  rw [h.head?_append] at hd
  exact h.areBlank d (List.mem_of_head? hd)

theorem Separates.eq_of_head? (hline : ['/', '/'] <+: source) {d : Char} (hd : (blanks ++ text).head? = some d) :
    d = '\n' := by
  rw [h.head?_append, h.line hline] at hd
  cases hd
  rfl

theorem Kind.Spelling.lexeme {kind : Kind} (hsource : kind.Spelling source) :
    ∃ c cs, source = c :: cs ∧ isGap c = false ∧
      Fixture.lexeme c (cs ++ (blanks ++ text)) = .ok ⟨kind, source, blanks ++ text⟩ := by
  have hblank {d : Char} (hd : (blanks ++ text).head? = some d) := continues_of_isBlank (h.isBlank_of_head? text hd)
  have hvalue {c : Char} {cs : List Char} (hc : startsWord c = true) (hcs : cs.all continuesWord = true) :=
    lexeme_of_name hc (List.all_eq_true.1 hcs) fun d hd => (hblank hd).1
  cases hsource with
  | leftBrace => exact ⟨_, [], rfl, by decide, rfl⟩
  | rightBrace => exact ⟨_, [], rfl, by decide, rfl⟩
  | leftBracket => exact ⟨_, [], rfl, by decide, rfl⟩
  | rightBracket => exact ⟨_, [], rfl, by decide, rfl⟩
  | colon => exact ⟨_, [], rfl, by decide, rfl⟩
  | comma => exact ⟨_, [], rfl, by decide, rfl⟩
  | truth value =>
    cases value with
    | true => exact ⟨_, _, rfl, by decide, hvalue (by decide) (by decide)⟩
    | false => exact ⟨_, _, rfl, by decide, hvalue (by decide) (by decide)⟩
  | null => exact ⟨_, _, rfl, by decide, hvalue (by decide) (by decide)⟩
  | @string value quote pieces hquote hpieces =>
    have hbackslash : quote ≠ '\\' := by
      rcases hquote with rfl | rfl
      . decide
      . decide
    refine ⟨quote, pieces.flatten ++ [quote], rfl, ?_, ?_⟩
    . rcases hquote with rfl | rfl
      . decide
      . decide
    . rw [List.append_assoc, List.singleton_append, lexeme_of_quote hquote, stringBody_of_forall₂ hbackslash hpieces]
      dsimp only
      rw [String.ofList_toList]
      rfl
  | word hname => exact hname.exists_lexeme fun d hd => (hblank hd).1
  | number htext => exact htext.exists_lexeme fun d hd => (hblank hd).2
  | block hbody hend => exact ⟨'/', _, rfl, by decide, lexeme_block hbody hend _⟩
  | line hbody hfeed =>
    exact ⟨'/', _, rfl, by decide, lexeme_line hbody hfeed fun d hd => h.eq_of_head? text ⟨_, rfl⟩ hd⟩

end Separates

theorem WrittenOut.spells {kinds : List Kind} {text : List Char} (h : WrittenOut kinds text) : Spells text kinds := by
  induction h with
  | nil => exact .done rfl
  | @cons kind kinds source blanks text hsource hblanks _ ih =>
    obtain ⟨c, cs, rfl, hc, hread⟩ := hsource.lexeme hblanks text
    have hgap : ∀ d ∈ blanks, isGap d = true := fun d hd => by rw [isGap, hblanks.areBlank d hd, Bool.true_or]
    exact .token (List.dropWhile_cons_of_neg (by simp [hc])) hread ((Spells.gap_append_iff hgap).2 ih)

/--
Any tokens can be written, and are read back however they are: a string between quotes of either kind, with any of
the ways to write each of its characters, a comment between its marks or up to the end of its line, and blanks
behind each token. Behind the last one there is only the end of the text.
-/
theorem tokenize_writtenOut :
    (∀ quote, quote = '"' ∨ quote = '\'' → ∀ value, (Kind.string value).Spelling (literal quote value)) ∧
      (∀ kinds : List Kind, (∀ kind ∈ kinds, kind.IsWritable) → ∃ text, WrittenOut kinds text) ∧
      ∀ kinds text, WrittenOut kinds text → ∃ tokens, tokenize (String.ofList text) = .ok tokens ∧
        tokens.list.map Token.kind = kinds ∧ tokens.stop = placeAfter text := by
  refine ⟨fun _ hquote value => spelling_literal hquote value, fun _ => exists_writtenOut, fun kinds text h => ?_⟩
  obtain ⟨tokens, htokens, hkinds⟩ := h.spells.exists_readTokens Text.Position.start
  obtain ⟨_, _, hparts⟩ := exists_partition_of_readTokens [] htokens
  refine ⟨tokens, ?_, hkinds, hparts.stop⟩
  rw [tokenize, String.toList_ofList]
  exact htokens

/-! Comments with the marks of other comments in them, an escaped quote, and a word that begins as a value does. -/

def mixedKinds : List Kind :=
  [.comment "a */ b", .comment "** // 'x\ny", .string "it's", .word "nullable", .number "-1.5e3"]

def mixedText : String :=
  "// a */ b\n/* ** // 'x\ny */ 'it\\'s'\u2028nullable\t -1.5e3\n"

theorem tokenize_mixedText :
    (∀ kind ∈ mixedKinds, kind.IsWritable) ∧ (∃ text, WrittenOut mixedKinds text) ∧
      WrittenOut mixedKinds mixedText.toList ∧
      ∃ tokens, tokenize mixedText = .ok tokens ∧ tokens.list.map Token.kind = mixedKinds ∧
        tokens.stop = ⟨4, 1⟩ := by
  have hline : IsTrimmed "a */ b".toList ∧ '\n' ∉ "a */ b".toList := ⟨by decide, by decide⟩
  have hblock : IsTrimmed "** // 'x\ny".toList ∧ ¬['*', '/'] <:+: "** // 'x\ny".toList :=
    ⟨by decide, Text.breakAt_eq_none_iff.1 (by decide)⟩
  have hname : IsName "nullable".toList := .word (by decide) (List.all_eq_true.1 (by decide)) (by decide)
  have hnumeral : IsNumeral "-1.5e3".toList := .number (by decide) (List.all_eq_true.1 (by decide))
  have hwritable : ∀ kind ∈ mixedKinds, kind.IsWritable := by
    simp only [mixedKinds, List.forall_mem_cons]
    exact ⟨⟨hline.1, .inr hline.2⟩, ⟨hblock.1, .inl hblock.2⟩, trivial, hname, hnumeral, List.forall_mem_nil _⟩
  have hblank {source blanks : List Char} (hne : blanks ≠ []) (hblanks : blanks.all isBlank = true)
      (hsource : ['/', '/'].isPrefixOf source = false) : Separates source blanks :=
    ⟨hne, List.all_eq_true.1 hblanks, fun h => absurd (List.isPrefixOf_iff_prefix.2 h) (by simp [hsource])⟩
  have hparts : WrittenOut mixedKinds
      ("// ".toList ++ "a */ b".toList ++ (['\n'] ++
        ("/* ".toList ++ "** // 'x\ny".toList ++ " */".toList ++ ([' '] ++ (literal '\'' "it's" ++ (['\u2028'] ++
          ("nullable".toList ++ (['\t', ' '] ++ ("-1.5e3".toList ++ (['\n'] ++ [])))))))))) :=
    .cons (.line hline.1 hline.2) ⟨by decide, List.all_eq_true.1 (by decide), fun _ => rfl⟩
      (.cons (.block hblock.1 hblock.2) (hblank (by decide) (by decide) (by decide))
        (.cons (spelling_literal (.inr rfl) "it's") (hblank (by decide) (by decide) (by decide))
          (.cons (.word hname) (hblank (by decide) (by decide) (by decide))
            (.cons (.number hnumeral) (hblank (by decide) (by decide) (by decide)) .nil))))
  have htext : WrittenOut mixedKinds mixedText.toList := by
    with_unfolding_all exact hparts
  obtain ⟨_, hexists, hread⟩ := tokenize_writtenOut
  obtain ⟨tokens, htokens, hkinds, hstop⟩ := hread mixedKinds mixedText.toList htext
  rw [String.ofList_toList] at htokens
  exact ⟨hwritable, hexists _ hwritable, htext, tokens, htokens, hkinds, hstop.trans (by decide)⟩

end LexiconAudit.Fixture
