import LexiconAudit.Fixture.Lexer
import LexiconAudit.Proofs.Text.Scanning
import LexiconAudit.Proofs.Text.Search
import Mathlib.Data.List.TakeWhile

/-!
This module contains what blanks between tokens change: where tokens stand, and nothing else. A token is read
as before if blanks are put behind it, except that a comment which ends with its line takes blanks in, and
drops them again with all blanks around its body.
-/

namespace LexiconAudit.Fixture

open Text (Position isBlank isLetter isNumeric breakAt trim trimEnd)
open Text.Scanner (takeWhile_append dropWhile_append)

/-! Blanks. -/

def blankCodes : List Nat :=
  [0x9, 0xA, 0xB, 0xC, 0xD, 0x20, 0x85, 0xA0, 0x1680, 0x2000, 0x2001, 0x2002, 0x2003, 0x2004, 0x2005, 0x2006,
    0x2007, 0x2008, 0x2009, 0x200A, 0x2028, 0x2029, 0x202F, 0x205F, 0x3000]

theorem mem_blankCodes_of_isBlank {c : Char} (h : isBlank c = true) : c.toNat ∈ blankCodes := by
  simp only [isBlank, Bool.or_eq_true, Bool.and_eq_true, decide_eq_true_eq, beq_iff_eq] at h
  simp only [blankCodes, List.mem_cons, List.not_mem_nil, or_false]
  omega

theorem continues_of_isBlank {c : Char} (h : isBlank c = true) :
    continuesWord c = false ∧ continuesNumber c = false := by
  have hall : ∀ n ∈ blankCodes, continuesWord (Char.ofNat n) = false ∧ continuesNumber (Char.ofNat n) = false := by
    decide +kernel
  rw [← Char.ofNat_toNat c]
  exact hall c.toNat (mem_blankCodes_of_isBlank h)

theorem trimEnd_blanks {blanks : List Char} (h : ∀ c ∈ blanks, isBlank c = true) : trimEnd blanks = [] := by
  induction blanks with
  | nil => rfl
  | cons c cs ih =>
    rw [List.forall_mem_cons] at h
    rw [trimEnd, ih h.2]
    exact if_pos h.1

theorem trimEnd_append_blanks (cs : List Char) {blanks : List Char} (h : ∀ c ∈ blanks, isBlank c = true) :
    trimEnd (cs ++ blanks) = trimEnd cs := by
  induction cs with
  | nil => exact trimEnd_blanks h
  | cons c cs ih => rw [List.cons_append, trimEnd, trimEnd, ih]

theorem trim_append_blanks (cs : List Char) {blanks : List Char} (h : ∀ c ∈ blanks, isBlank c = true) :
    trim (cs ++ blanks) = trim cs := by
  unfold trim
  rw [List.dropWhile_append]
  split
  . next hcs =>
    rw [List.isEmpty_iff.1 hcs, List.dropWhile_eq_nil_iff.2 h]
  . exact trimEnd_append_blanks _ h

/-! Tokens, whatever stands behind them. -/

theorem hexCode?_append {cs digits rest : List Char} {n : Nat} (h : hexCode? cs = some (n, digits, rest))
    (rest' : List Char) : hexCode? (digits ++ rest') = some (n, digits, rest') := by
  unfold hexCode? at h
  split at h
  . simp only [Option.bind_eq_bind, Option.bind_eq_some_iff, Option.pure_def] at h
    obtain ⟨x, hx, y, hy, z, hz, w, hw, heq⟩ := h
    cases heq
    simp [hexCode?, hx, hy, hz, hw]
  . cases h

theorem codeEscape_append {cs : List Char} {piece : Piece} (h : codeEscape cs = .ok piece) (rest' : List Char) :
    ∃ source, piece.source = 'u' :: source ∧
      codeEscape (source ++ rest') = .ok ⟨piece.value, 'u' :: source, rest'⟩ := by
  unfold codeEscape at h
  split at h
  . cases h
  . next high digits rest hhigh =>
    split at h
    . next hpair =>
      split at h
      . split at h
        . cases h
        . next low digits' rest'' hlow =>
          split at h
          . next hlow' =>
            split at h
            . next c hc =>
              cases h
              refine ⟨digits ++ '\\' :: 'u' :: digits', rfl, ?_⟩
              rw [List.append_assoc, codeEscape, hexCode?_append hhigh]
              dsimp only
              rw [if_pos hpair]
              simp only [List.cons_append, hexCode?_append hlow, if_pos hlow', hc]
            . cases h
          . cases h
      . cases h
    . next hpair =>
      split at h
      . next c hc =>
        cases h
        refine ⟨digits, rfl, ?_⟩
        rw [codeEscape, hexCode?_append hhigh]
        dsimp only
        rw [if_neg hpair, hc]
      . cases h

theorem escape_append {cs : List Char} {piece : Piece} (h : escape cs = .ok piece) (rest' : List Char) :
    escape (piece.source ++ rest') = .ok { piece with rest := rest' } := by
  unfold escape at h
  split at h
  . cases h
  . obtain ⟨source, hsource, hescape⟩ := codeEscape_append h rest'
    rw [hsource]
    exact hescape
  . next c cs hne =>
    split at h
    . next value hvalue =>
      cases h
      rw [List.singleton_append, escape]
      . rw [hvalue]
      . exact hne
    . cases h

theorem stringBody_append {quote : Char} {cs : List Char} {body : Body} (h : stringBody quote cs = .ok body)
    (rest' : List Char) : stringBody quote (body.source ++ rest') = .ok { body with rest := rest' } := by
  fun_induction stringBody quote cs generalizing body with
  | case1 => cases h
  | case2 cs =>
    cases h
    rw [List.singleton_append, stringBody, if_pos rfl]
  | case3 => cases h
  | case4 => cases h
  | case5 cs piece hpiece _ body' hbody hne ih =>
    cases h
    simp only [Body.cons, List.cons_append, List.append_assoc]
    rw [stringBody, if_neg hne, if_pos rfl]
    split
    . next hescape =>
      rw [escape_append hpiece] at hescape
      cases hescape
    . next hescape =>
      rw [escape_append hpiece] at hescape
      cases hescape
      rw [ih hbody]
      rfl
  | case6 => cases h
  | case7 c cs hne hne' body' hbody ih =>
    cases h
    simp only [Body.cons, List.cons_append, List.nil_append]
    rw [stringBody, if_neg hne, if_neg hne', ih hbody]
    rfl

theorem head?_of_blanks {before blanks after : List Char} (hblanks : ∀ c ∈ blanks, isBlank c = true) {d : Char}
    (hd : (before ++ blanks ++ after).head? = some d) : (before ++ after).head? = some d ∨ isBlank d = true := by
  cases before with
  | cons b before => exact .inl hd
  | nil =>
    cases blanks with
    | cons b blanks =>
      cases hd
      exact .inr (hblanks d List.mem_cons_self)
    | nil => exact .inl hd

/-! Lines. -/

structure SplitsLine (line rest : List Char) : Prop where
  inside : ∀ c ∈ line, decide (c ≠ '\n') = true
  behind : ∀ c, rest.head? = some c → decide (c ≠ '\n') = false

theorem splitsLine (cs : List Char) : SplitsLine (cs.takeWhile (· ≠ '\n')) (cs.dropWhile (· ≠ '\n')) where
  inside _ hc := List.mem_takeWhile_imp (p := fun c => decide (c ≠ '\n')) hc
  behind c hc := by
    have := List.head?_dropWhile_not (fun c => decide (c ≠ '\n')) cs
    rw [hc] at this
    exact this

theorem SplitsLine.append_left {line line' rest : List Char} (h : SplitsLine line rest)
    (hline : ∀ c ∈ line', decide (c ≠ '\n') = true) : SplitsLine (line' ++ line) rest where
  inside := List.forall_mem_append.2 ⟨hline, h.inside⟩
  behind := h.behind

theorem commentLexeme_line {body rest : List Char} (h : SplitsLine body rest) :
    commentLexeme ('/' :: (body ++ rest)) = .ok ⟨.comment (String.ofList (trim body)), '/' :: '/' :: body, rest⟩ := by
  rw [commentLexeme, takeWhile_append h.inside h.behind, dropWhile_append h.inside h.behind]

/-! Blanks behind a token. -/

section Blanks

variable {before blanks after : List Char} (hblanks : ∀ c ∈ blanks, isBlank c = true)

include hblanks

theorem takeWhile_of_blanks {p : Char → Bool} {cs : List Char} (hp : ∀ c, isBlank c = true → p c = false)
    (hrest : cs.dropWhile p = before ++ after) :
    (cs.takeWhile p ++ (before ++ blanks ++ after)).takeWhile p = cs.takeWhile p ∧
      (cs.takeWhile p ++ (before ++ blanks ++ after)).dropWhile p = before ++ blanks ++ after := by
  have hrun : ∀ c ∈ cs.takeWhile p, p c = true := fun c hc => List.mem_takeWhile_imp hc
  have hstop : ∀ d, (before ++ blanks ++ after).head? = some d → p d = false := by
    intro d hd
    rcases head?_of_blanks hblanks hd with hd | hd
    . have := List.head?_dropWhile_not p cs
      rw [hrest, hd] at this
      exact this
    . exact hp d hd
  exact ⟨takeWhile_append hrun hstop, dropWhile_append hrun hstop⟩

/--
Blanks behind a comment that ends with its line belong to its body up to the end of the line.
-/
theorem exists_commentLexeme_line_of_blanks {body : List Char} (h : SplitsLine body (before ++ after)) :
    ∃ l blanks', commentLexeme ('/' :: (body ++ (before ++ blanks ++ after))) = .ok l ∧
      l.kind = .comment (String.ofList (trim body)) ∧ l.rest = before ++ blanks' ++ after ∧
        ∀ c ∈ blanks', isBlank c = true := by
  cases before with
  | cons b before =>
    have hsplits : SplitsLine body (b :: before ++ blanks ++ after) := ⟨h.inside, h.behind⟩
    exact ⟨_, blanks, commentLexeme_line hsplits, rfl, rfl, hblanks⟩
  | nil =>
    have hline := splitsLine blanks
    generalize hwithin : blanks.takeWhile (· ≠ '\n') = within at hline
    generalize hmore : blanks.dropWhile (· ≠ '\n') = more at hline
    have heq : within ++ more = blanks := by
      rw [← hwithin, ← hmore, List.takeWhile_append_dropWhile]
    rw [← heq, List.forall_mem_append] at hblanks
    have hsplits : SplitsLine (body ++ within) (more ++ after) := by
      refine SplitsLine.append_left ⟨hline.inside, fun c hc => ?_⟩ h.inside
      cases more with
      | nil => exact h.behind c hc
      | cons => exact hline.behind c hc
    have hread := commentLexeme_line hsplits
    rw [List.append_assoc, ← List.append_assoc within, heq] at hread
    exact ⟨_, more, hread, congrArg (fun body => Kind.comment (String.ofList body))
      (trim_append_blanks body hblanks.1), rfl, hblanks.2⟩

theorem exists_commentLexeme_of_blanks {cs : List Char} {l : Lexeme} (h : commentLexeme cs = .ok l)
    (hrest : l.rest = before ++ after) : ∃ l' blanks',
      commentLexeme (l.source.tail ++ (before ++ blanks ++ after)) = .ok l' ∧ l'.kind = l.kind ∧
        l'.rest = before ++ blanks' ++ after ∧ ∀ c ∈ blanks', isBlank c = true := by
  unfold commentLexeme at h
  split at h
  . split at h
    . cases h
    . next body rest hbreak =>
      cases h
      have hbreak' := Text.breakAt_append hbreak (before ++ blanks ++ after)
      refine ⟨⟨.comment (String.ofList (trim body)), '/' :: '*' :: body ++ ['*', '/'], before ++ blanks ++ after⟩,
        blanks, ?_, rfl, rfl, hblanks⟩
      simp only [List.cons_append, List.tail_cons, commentLexeme, hbreak']
  . next cs =>
    cases h
    exact exists_commentLexeme_line_of_blanks hblanks (hrest ▸ splitsLine cs)
  . cases h

theorem exists_lexeme_of_blanks {c : Char} {cs : List Char} {l : Lexeme} (h : lexeme c cs = .ok l)
    (hrest : l.rest = before ++ after) : ∃ l' blanks',
      lexeme c (l.source.tail ++ (before ++ blanks ++ after)) = .ok l' ∧ l'.kind = l.kind ∧
        l'.rest = before ++ blanks' ++ after ∧ ∀ c ∈ blanks', isBlank c = true := by
  unfold lexeme at h
  split at h
  case h_7 => exact exists_commentLexeme_of_blanks hblanks h hrest
  case h_8 =>
    split at h
    . next hquote =>
      split at h
      . cases h
      . next body hbody =>
        cases h
        refine ⟨⟨.string (String.ofList body.value), c :: body.source, before ++ blanks ++ after⟩, blanks, ?_, rfl,
          rfl, hblanks⟩
        rw [List.tail_cons, lexeme, if_pos hquote, stringBody_append hbody]
        all_goals assumption
    . next hquote =>
      split at h
      . next hstart =>
        cases h
        obtain ⟨htake, hdrop⟩ := takeWhile_of_blanks hblanks (fun c hc => (continues_of_isBlank hc).2) hrest
        refine ⟨⟨.number (String.ofList (c :: cs.takeWhile continuesNumber)), c :: cs.takeWhile continuesNumber,
          before ++ blanks ++ after⟩, blanks, ?_, rfl, rfl, hblanks⟩
        rw [List.tail_cons, lexeme, if_neg hquote, if_pos hstart, htake, hdrop]
        all_goals assumption
      . next hstart =>
        split at h
        . next hword =>
          cases h
          obtain ⟨htake, hdrop⟩ := takeWhile_of_blanks hblanks (fun c hc => (continues_of_isBlank hc).1) hrest
          refine ⟨⟨wordKind (String.ofList (c :: cs.takeWhile continuesWord)), c :: cs.takeWhile continuesWord,
            before ++ blanks ++ after⟩, blanks, ?_, rfl, rfl, hblanks⟩
          rw [List.tail_cons, lexeme, if_neg hquote, if_neg hstart, if_pos hword, htake, hdrop]
          all_goals assumption
        . cases h
  all_goals
    cases h
    exact ⟨⟨_, [_], before ++ blanks ++ after⟩, blanks, rfl, rfl, rfl, hblanks⟩

end Blanks

/-! Texts. -/

/--
A text whose tokens are of these kinds, wherever they stand.
-/
inductive Spells : List Char → List Kind → Prop where
  | done {cs : List Char} : cs.dropWhile isGap = [] → Spells cs []
  | token {cs rest : List Char} {c : Char} {l : Lexeme} {kinds : List Kind} :
    cs.dropWhile isGap = c :: rest → lexeme c rest = .ok l → Spells l.rest kinds → Spells cs (l.kind :: kinds)

theorem spells_of_readTokens {position : Position} {cs : List Char} {tokens : Tokens}
    (h : readTokens position cs = .ok tokens) : Spells cs (tokens.list.map Token.kind) := by
  fun_induction readTokens position cs generalizing tokens with
  | case1 =>
    cases h
    exact .done ‹_›
  | case2 => cases h
  | case3 => cases h
  | case4 =>
    rename_i htokens ih
    cases h
    exact .token ‹_› ‹_› (ih htokens)

theorem Spells.exists_readTokens {cs : List Char} {kinds : List Kind} (h : Spells cs kinds) (position : Position) :
    ∃ tokens, readTokens position cs = .ok tokens ∧ tokens.list.map Token.kind = kinds := by
  induction h generalizing position with
  | done hgap =>
    unfold readTokens
    split
    . exact ⟨_, rfl, rfl⟩
    . next h => cases hgap.symm.trans h
  | @token cs rest c l kinds hgap hlexeme _ ih =>
    obtain ⟨tokens, hread, hkinds⟩ := ih ((position.advance (cs.takeWhile isGap)).advance l.source)
    unfold readTokens
    split
    . next h => cases hgap.symm.trans h
    . next h =>
      cases hgap.symm.trans h
      split
      . next h => cases hlexeme.symm.trans h
      . next h =>
        cases hlexeme.symm.trans h
        dsimp only
        rw [hread]
        exact ⟨_, rfl, congrArg (l.kind :: ·) hkinds⟩

theorem Spells.gap_append_iff {gap cs : List Char} {kinds : List Kind} (hgap : ∀ c ∈ gap, isGap c = true) :
    Spells (gap ++ cs) kinds ↔ Spells cs kinds := by
  have hdrop : (gap ++ cs).dropWhile isGap = cs.dropWhile isGap := List.dropWhile_append_of_pos hgap
  constructor
  . intro h
    cases h with
    | done h => exact .done (hdrop ▸ h)
    | token h hlexeme hrest => exact .token (hdrop ▸ h) hlexeme hrest
  . intro h
    cases h with
    | done h => exact .done (hdrop.trans h)
    | token h hlexeme hrest => exact .token (hdrop.trans h) hlexeme hrest

/--
A place between two tokens of a text, before the first of them or behind the last: the gap before a token,
or a place between the tokens behind it.
-/
inductive Between : (before after : List Char) → Prop where
  | gap {before after : List Char} : (∀ c ∈ before, isGap c = true) → Between before after
  | token {gap cs before after : List Char} {c : Char} {l : Lexeme} : (∀ c ∈ gap, isGap c = true) →
    isGap c = false → lexeme c cs = .ok l → l.rest = before ++ after → Between before after →
      Between (gap ++ l.source ++ before) after

theorem Spells.of_blanks {before blanks after : List Char} {kinds : List Kind} (hplace : Between before after)
    (hblanks : ∀ c ∈ blanks, isBlank c = true) (h : Spells (before ++ after) kinds) :
    Spells (before ++ blanks ++ after) kinds := by
  induction hplace generalizing blanks kinds with
  | gap hbefore =>
    have hgap : ∀ c ∈ blanks, isGap c = true := fun c hc => by rw [isGap, hblanks c hc, Bool.true_or]
    rw [List.append_assoc, Spells.gap_append_iff hbefore, Spells.gap_append_iff hgap]
    exact (Spells.gap_append_iff hbefore).1 h
  | @token gap cs before after c l hgap hc hlexeme hrest _ ih =>
    obtain ⟨source, hsource⟩ := List.head?_eq_some_iff.1 (head?_source_of_lexeme hlexeme)
    have htext : l.source ++ before ++ after = c :: cs := by
      rw [List.append_assoc, ← hrest, append_eq_of_lexeme hlexeme]
    rw [List.append_assoc, List.append_assoc, Spells.gap_append_iff hgap, ← List.append_assoc, htext] at h
    have hdrop (cs : List Char) : (c :: cs).dropWhile isGap = c :: cs := List.dropWhile_cons_of_neg (by simp [hc])
    cases h with
    | done h =>
      rw [hdrop] at h
      cases h
    | token h hlexeme' hkinds =>
      cases (hdrop cs).symm.trans h
      cases hlexeme.symm.trans hlexeme'
      obtain ⟨l', blanks', hread, hkind, hrest', hblanks'⟩ := exists_lexeme_of_blanks hblanks hlexeme hrest
      rw [hsource, List.tail_cons] at hread
      simp only [List.append_assoc] at hread ⊢
      rw [Spells.gap_append_iff hgap, hsource, List.cons_append, ← hkind]
      refine .token (hdrop _) hread ?_
      rw [hrest']
      exact ih hblanks' (hrest ▸ hkinds)

theorem exists_tokenize_of_blanks {before blanks after : List Char} (hplace : Between before after)
    (hblanks : ∀ c ∈ blanks, isBlank c = true) {tokens : Tokens}
    (h : tokenize (String.ofList (before ++ after)) = .ok tokens) :
    ∃ tokens', tokenize (String.ofList (before ++ blanks ++ after)) = .ok tokens' ∧
      tokens'.list.map Token.kind = tokens.list.map Token.kind := by
  unfold tokenize at h ⊢
  rw [String.toList_ofList] at h ⊢
  exact ((spells_of_readTokens h).of_blanks hplace hblanks).exists_readTokens Position.start

end LexiconAudit.Fixture
