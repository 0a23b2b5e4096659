import LexiconAudit.Proofs.Fixture.Partition
import LexiconAudit.Proofs.Fixture.Truncation

/-!
This module contains what becomes of a text of a fixture that is cut off before the end of its outermost list. The
cut may fall into a token: what is left of it is no token, or another one, but never a bracket.
-/

namespace LexiconAudit.Fixture

open Text (Position)
open Text.Scanner (takeWhile_append dropWhile_append)

/-! A token that is cut off. -/

def Kind.IsFlat (k : Kind) : Prop :=
  k ∉ [.leftBrace, .rightBrace, .leftBracket, .rightBracket]

theorem Kind.IsFlat.shift_eq {k : Kind} (h : k.IsFlat) (d : Nat) : k.shift d = d := by
  cases k <;> first | rfl | simp [Kind.IsFlat] at h

theorem isFlat_wordKind (name : String) : (wordKind name).IsFlat := by
  unfold wordKind
  repeat' split
  all_goals simp [Kind.IsFlat]

theorem eq_nil_of_append {source s more rest : List Char} (hs : source = s ++ more) (hrest : source ++ rest = s) :
    more = [] := by
  have hlength := congrArg List.length hs
  rw [← hrest] at hlength
  simp only [List.length_append] at hlength
  exact List.length_eq_zero_iff.1 (by omega)

theorem stringBody_inside {quote : Char} {cs s more : List Char} {body body' : Body}
    (h : stringBody quote cs = .ok body) (hs : body.source = s ++ more) (h' : stringBody quote s = .ok body') :
    more = [] := by
  have hrest := append_eq_of_stringBody h'
  have hcs : cs = body'.source ++ (body'.rest ++ (more ++ body.rest)) := by
    rw [← append_eq_of_stringBody h, hs, ← hrest]
    simp
  rw [hcs, stringBody_append h'] at h
  have hbody := Except.ok.inj h
  rw [← hbody] at hs
  exact eq_nil_of_append hs hrest

theorem breakAt_inside {mark cs body rest s more body' rest' : List Char}
    (h : Text.breakAt mark cs = some (body, rest)) (hs : body ++ mark = s ++ more)
    (h' : Text.breakAt mark s = some (body', rest')) : more = [] := by
  have hrest := Text.append_eq_of_breakAt h'
  have hcs : cs = body' ++ mark ++ (rest' ++ (more ++ rest)) := by
    rw [← Text.append_eq_of_breakAt h, hs, ← hrest]
    simp
  rw [hcs, Text.breakAt_append h'] at h
  have hbody : body' = body := congrArg Prod.fst (Option.some.inj h)
  exact eq_nil_of_append hs (hbody ▸ hrest)

theorem dropWhile_inside {p : Char → Bool} {cs s more : List Char} (h : cs.takeWhile p = s ++ more) :
    s.dropWhile p = [] := by
  apply List.dropWhile_eq_nil_iff.2
  intro c hc
  have hmem : c ∈ cs.takeWhile p := by
    rw [h]
    exact List.mem_append_left more hc
  exact List.mem_takeWhile_imp hmem

theorem commentLexeme_inside {cs s more : List Char} {l l' : Lexeme} (h : commentLexeme cs = .ok l)
    (hs : l.source = '/' :: s ++ more) (hmore : more ≠ []) (h' : commentLexeme s = .ok l') :
    l'.rest = [] ∧ l'.kind.IsFlat := by
  cases s with
  | nil => cases h'
  | cons d s =>
    unfold commentLexeme at h
    split at h
    . split at h
      . cases h
      . next hbreak =>
        cases h
        obtain ⟨rfl, hbody⟩ := List.cons.inj (List.cons.inj hs).2
        rw [commentLexeme] at h'
        split at h'
        . cases h'
        . next hbreak' => exact absurd (breakAt_inside hbreak hbody hbreak') hmore
    . cases h
      obtain ⟨rfl, hbody⟩ := List.cons.inj (List.cons.inj hs).2
      cases h'
      exact ⟨dropWhile_inside hbody, by simp [Kind.IsFlat]⟩
    . cases h

theorem lexeme_inside {c : Char} {cs s more : List Char} {l l' : Lexeme} (h : lexeme c cs = .ok l)
    (hs : l.source = c :: s ++ more) (hmore : more ≠ []) (h' : lexeme c s = .ok l') :
    l'.rest = [] ∧ l'.kind.IsFlat := by
  unfold lexeme at h
  split at h
  case h_7 => exact commentLexeme_inside h hs hmore h'
  case h_8 =>
    rw [lexeme] at h'
    . split at h
      . next hquote =>
        rw [if_pos hquote] at h'
        split at h
        . cases h
        . next body hbody =>
          cases h
          split at h'
          . cases h'
          . next body' hbody' =>
            exact absurd (stringBody_inside hbody (List.cons.inj hs).2 hbody') hmore
      . next hquote =>
        rw [if_neg hquote] at h'
        split at h
        . next hstart =>
          cases h
          rw [if_pos hstart] at h'
          cases h'
          exact ⟨dropWhile_inside (List.cons.inj hs).2, by simp [Kind.IsFlat]⟩
        . next hstart =>
          rw [if_neg hstart] at h'
          split at h
          . next hword =>
            cases h
            rw [if_pos hword] at h'
            cases h'
            exact ⟨dropWhile_inside (List.cons.inj hs).2, isFlat_wordKind _⟩
          . cases h
    all_goals assumption
  all_goals
    cases h
    cases s with
    | nil => exact absurd (List.cons.inj hs).2.symm hmore
    | cons => cases hs

/-! A text that is cut off. -/

/--
What is left of a text of these parts has these tokens: those of the first parts, and possibly one of a part that
the cut falls into.
-/
def CutShort (parts : List Part) (left : List Char) (kinds : List Kind) : Prop :=
  ∃ whole more inside, parts = whole ++ more ∧ whole.flatMap Part.written <+: left ∧
    kinds = whole.map Part.kind ++ inside ∧ ∀ k ∈ inside, k.IsFlat

theorem CutShort.none (parts : List Part) (left : List Char) {inside : List Kind} (h : ∀ k ∈ inside, k.IsFlat) :
    CutShort parts left inside :=
  ⟨[], parts, inside, rfl, List.nil_prefix, rfl, h⟩

theorem CutShort.cons {parts : List Part} {left : List Char} {kinds : List Kind} (h : CutShort parts left kinds)
    (part : Part) : CutShort (part :: parts) (part.written ++ left) (part.kind :: kinds) := by
  obtain ⟨whole, more, inside, rfl, hwhole, rfl, hinside⟩ := h
  refine ⟨part :: whole, more, inside, rfl, ?_, rfl, hinside⟩
  rw [List.flatMap_cons]
  exact (List.prefix_append_right_inj part.written).2 hwhole

theorem dropWhile_of_isPrefix {p : Char → Bool} {left cs ds : List Char} {d : Char} (h : left <+: cs)
    (hd : left.dropWhile p = d :: ds) : left.takeWhile p = cs.takeWhile p ∧ d :: ds <+: cs.dropWhile p := by
  obtain ⟨after, rfl⟩ := h
  have hrun : ∀ c ∈ left.takeWhile p, p c = true := fun c hc => List.mem_takeWhile_imp hc
  have hstop : ∀ c, (d :: ds ++ after).head? = some c → p c = false := by
    intro c hc
    have := List.head?_dropWhile_not p left
    rw [hd] at this
    cases hc
    exact this
  have htext : left ++ after = left.takeWhile p ++ (d :: ds ++ after) := by
    rw [← hd, ← List.append_assoc, List.takeWhile_append_dropWhile]
  rw [htext, takeWhile_append hrun hstop, dropWhile_append hrun hstop]
  exact ⟨rfl, List.prefix_append _ _⟩

theorem cutShort_nil {cs : List Char} (hgap : cs.dropWhile isGap = []) {left : List Char} {kinds : List Kind}
    (hleft : left <+: cs) (h : Spells left kinds) : CutShort [] left kinds := by
  cases h with
  | done => exact .none _ _ (List.forall_mem_nil _)
  | token hgap' =>
    obtain ⟨-, hfront⟩ := dropWhile_of_isPrefix hleft hgap'
    rw [hgap] at hfront
    cases List.prefix_nil.1 hfront

theorem cutShort_cons {cs rest : List Char} {c : Char} {l : Lexeme} {parts : List Part}
    (hgap : cs.dropWhile isGap = c :: rest) (hlexeme : lexeme c rest = .ok l)
    (hrest : ∀ left kinds, left <+: l.rest → Spells left kinds → CutShort parts left kinds) {left : List Char}
    {kinds : List Kind} (hleft : left <+: cs) (h : Spells left kinds) :
    CutShort (⟨cs.takeWhile isGap, l.source, l.kind⟩ :: parts) left kinds := by
  cases h with
  | done => exact .none _ _ (List.forall_mem_nil _)
  | @token _ s c' l' kinds hgap' hlexeme' hkinds =>
    obtain ⟨htake, hfront⟩ := dropWhile_of_isPrefix hleft hgap'
    rw [hgap] at hfront
    obtain ⟨rfl, -⟩ := List.cons_prefix_cons.1 hfront
    obtain ⟨source, hsource⟩ := List.head?_eq_some_iff.1 (head?_source_of_lexeme hlexeme)
    have htext : left = cs.takeWhile isGap ++ c' :: s := by
      rw [← htake, ← hgap', List.takeWhile_append_dropWhile]
    have hfirst : l.source <+: c' :: rest := ⟨l.rest, append_eq_of_lexeme hlexeme⟩
    by_cases hwhole : l.source <+: c' :: s
    . obtain ⟨left', hleft'⟩ := hwhole
      have hrest' : left' <+: l.rest := by
        rw [← List.prefix_append_right_inj l.source, hleft', append_eq_of_lexeme hlexeme]
        exact hfront
      have hread := lexeme_of_isPrefix hlexeme hrest'
      have hs' : l.source.tail ++ left' = s := by
        rw [hsource] at hleft' ⊢
        exact (List.cons.inj hleft').2
      rw [hs', hlexeme'] at hread
      cases Except.ok.inj hread
      rw [htext, ← hleft', ← List.append_assoc]
      exact (hrest left' kinds hrest' hkinds).cons ⟨cs.takeWhile isGap, l.source, l.kind⟩
    . have hinside : c' :: s <+: l.source := by
        rcases List.prefix_or_prefix_of_prefix hfirst hfront with h | h
        . exact absurd h hwhole
        . exact h
      obtain ⟨more, hmore⟩ := hinside
      have hne : more ≠ [] := by
        rintro rfl
        exact hwhole ⟨[], by simpa using hmore.symm⟩
      obtain ⟨hnone, hflat⟩ := lexeme_inside hlexeme hmore.symm hne hlexeme'
      rw [hnone] at hkinds
      cases hkinds with
      | done => exact .none _ _ (List.forall_mem_singleton.2 hflat)
      | token h => cases h

theorem exists_partition_of_cut (before : List Char) {cs : List Char} {tokens : Tokens}
    (h : readTokens (placeAfter before) cs = .ok tokens) :
    ∃ parts last, Partition before cs parts last tokens ∧
      ∀ left kinds, left <+: cs → Spells left kinds → CutShort parts left kinds :=
  partition_induction (P := fun cs parts => ∀ left kinds, left <+: cs → Spells left kinds → CutShort parts left kinds)
    (fun hgap _ _ => cutShort_nil hgap) (fun hgap hlexeme hrest _ _ => cutShort_cons hgap hlexeme hrest) before h

/-! A list without its end. -/

theorem depthBehind_of_isFlat {ks : List Kind} (h : ∀ k ∈ ks, k.IsFlat) (d : Nat) : depthBehind d ks = d := by
  induction ks generalizing d with
  | nil => rfl
  | cons k ks ih =>
    rw [List.forall_mem_cons] at h
    rw [depthBehind_cons, h.1.shift_eq, ih h.2]

theorem Unclosed.append_flat {ks inside : List Kind} (h : Unclosed ks) (hinside : ∀ k ∈ inside, k.IsFlat) :
    Unclosed (ks ++ inside) := by
  intro before hbefore hopened
  rcases List.prefix_or_prefix_of_prefix hbefore (List.prefix_append ks inside) with hks | ⟨more, rfl⟩
  . exact h before hks hopened
  . have hmore : ∀ k ∈ more, k.IsFlat := fun k hk =>
      hinside k (((List.prefix_append_right_inj ks).1 hbefore).subset hk)
    rw [depthBehind_append, depthBehind_of_isFlat hmore]
    refine h ks (List.prefix_refl ks) ?_
    rcases List.mem_append.1 hopened with hks | hk
    . exact hks
    . exact absurd (by simp) (hmore _ hk)

theorem CutShort.unclosed {parts parts' : List Part} {part : Part} {left : List Char} {kinds : List Kind}
    (h : CutShort (parts ++ part :: parts') left kinds) (hpart : part.source ≠ [])
    (hleft : left <+: parts.flatMap Part.written ++ part.gap) (hparts : Unclosed (parts.map Part.kind)) :
    Unclosed kinds := by
  obtain ⟨whole, more, inside, hlist, hwhole, rfl, hinside⟩ := h
  refine Unclosed.append_flat ?_ hinside
  have hshort : ¬parts ++ [part] <+: whole := by
    rintro ⟨others, rfl⟩
    have hlength := (hwhole.trans hleft).length_le
    simp only [List.flatMap_append, List.flatMap_cons, List.flatMap_nil, Part.written, List.length_append] at hlength
    have := List.length_pos_iff.2 hpart
    omega
  have hfirst : parts ++ [part] <+: parts ++ part :: parts' := ⟨parts', by simp⟩
  have hwhole' : whole <+: parts := by
    rcases List.prefix_or_prefix_of_prefix (hlist ▸ List.prefix_append whole more) hfirst with h | h
    . rcases List.prefix_concat_iff.1 h with rfl | h
      . exact absurd (List.prefix_refl _) hshort
      . exact h
    . exact absurd h hshort
  exact hparts.of_isPrefix (hwhole'.map Part.kind)

theorem map_kind_tokensOf (before : List Char) (parts : List Part) :
    (tokensOf before parts).map Token.kind = parts.map Part.kind := by
  induction parts generalizing before with
  | nil => rfl
  | cons part parts ih => rw [tokensOf, List.map_cons, ih, List.map_cons]

theorem exists_rejections_of_parse {text : String} {tree : Node} (h : parse text = .ok tree) :
    ∃ parts part parts' last tokens, tokenize text = .ok tokens ∧
      Partition [] text.toList (parts ++ part :: parts') last tokens ∧
      ClosesOutermost (parts.map Part.kind) part.kind (parts'.map Part.kind) ∧
      ∀ left, left <+: parts.flatMap Part.written ++ part.gap → ∃ r, parse (String.ofList left) = .error r := by
  obtain ⟨tokens, htokens, htree⟩ := bind_eq_ok_iff.1 h
  obtain ⟨all, last, hparts, hcut⟩ := exists_partition_of_cut [] htokens
  obtain ⟨before, k, after, hkinds, hcloses⟩ := exists_closesOutermost htree
  rw [hparts.list, map_kind_tokensOf] at hkinds
  obtain ⟨parts, rest, rfl, rfl, hrest⟩ := List.map_eq_append_iff.1 hkinds
  obtain ⟨part, parts', rfl, rfl, rfl⟩ := List.map_eq_cons_iff.1 hrest
  refine ⟨parts, part, parts', last, tokens, htokens, hparts, hcloses, fun left hleft => ?_⟩
  have htext : left <+: text.toList := by
    refine hleft.trans ?_
    rw [hparts.text]
    exact ⟨part.source ++ (parts'.flatMap Part.written ++ last), by simp [Part.written]⟩
  cases hresult : parse (String.ofList left) with
  | error r => exact ⟨r, rfl⟩
  | ok tree' =>
    obtain ⟨tokens', htokens', htree'⟩ := bind_eq_ok_iff.1 hresult
    rw [tokenize, String.toList_ofList] at htokens'
    have hpart := (hparts.areTokens part (by simp)).source
    have hunclosed := (hcut left _ htext (spells_of_readTokens htokens')).unclosed hpart hleft hcloses.unclosed
    obtain ⟨_, _, _, hkinds', hcloses'⟩ := exists_closesOutermost htree'
    rw [hkinds'] at hunclosed
    exact absurd hunclosed hcloses'.not_unclosed

/--
Nothing is read without the bracket that closes the outermost list. Tokens in front of it are rejected at their end:
there is no list if they are all comments, and an unclosed one if they are not. A text that is cut off in front of it
is rejected, even if the cut falls into a token.
-/
theorem cut_off_rejected :
    (∀ tokens tree, ofTokens tokens = .ok tree → ∃ inner bracket trailing,
      tokens.list = inner ++ bracket :: trailing ∧
        ClosesOutermost (inner.map Token.kind) bracket.kind (trailing.map Token.kind) ∧
          ∀ left, left <+: inner → ∀ stop, ofTokens ⟨left, stop⟩ = .error ⟨missingEnd left, stop⟩) ∧
      ∀ text tree, parse text = .ok tree → ∃ parts part parts' last tokens, tokenize text = .ok tokens ∧
        Partition [] text.toList (parts ++ part :: parts') last tokens ∧
          ClosesOutermost (parts.map Part.kind) part.kind (parts'.map Part.kind) ∧
            ∀ left, left <+: parts.flatMap Part.written ++ part.gap →
              ∃ r, parse (String.ofList left) = .error r := by
  refine ⟨fun tokens tree h => ?_, fun _ _ h => exists_rejections_of_parse h⟩
  obtain ⟨before, k, after, hkinds, hcloses⟩ := exists_closesOutermost h
  obtain ⟨inner, rest, hlist, rfl, hrest⟩ := List.map_eq_append_iff.1 hkinds
  obtain ⟨bracket, trailing, rfl, rfl, rfl⟩ := List.map_eq_cons_iff.1 hrest
  refine ⟨inner, bracket, trailing, hlist, hcloses, fun left hleft stop => ?_⟩
  have hfirst : left <+: tokens.list := by
    rw [hlist]
    exact hleft.trans (List.prefix_append inner _)
  exact ofTokens_of_unclosed h hfirst (hcloses.unclosed.of_isPrefix (hleft.map Token.kind)) stop

/-! A list with comments in front of it, in it and behind it. -/

def remarkedText : String :=
  "// [\n[\x7bnotes: [/* ] */]\x7d] // ]"

def remarkedTree : Node where
  name := Node.rootName
  children := [{ name := Node.notesName }]

theorem cut_off_remarkedText :
    parse remarkedText = .ok remarkedTree ∧
      ∃ parts part parts' last tokens, tokenize remarkedText = .ok tokens ∧ ofTokens tokens = .ok remarkedTree ∧
        Partition [] remarkedText.toList (parts ++ part :: parts') last tokens ∧
          (∃ inner bracket trailing, tokens.list = inner ++ bracket :: trailing ∧
            ClosesOutermost (inner.map Token.kind) bracket.kind (trailing.map Token.kind) ∧
              ∀ left, left <+: inner → ∀ stop, ofTokens ⟨left, stop⟩ = .error ⟨missingEnd left, stop⟩) ∧
            ∀ left, left <+: parts.flatMap Part.written ++ part.gap →
              ∃ r, parse (String.ofList left) = .error r := by
  have hparse : parse remarkedText = .ok remarkedTree := by with_unfolding_all rfl
  obtain ⟨hcutTokens, hcutTexts⟩ := cut_off_rejected
  obtain ⟨parts, part, parts', last, tokens, htokens, hparts, -, hleft⟩ := hcutTexts _ _ hparse
  have htree : ofTokens tokens = .ok remarkedTree := by
    rw [parse, htokens] at hparse
    exact hparse
  exact ⟨hparse, parts, part, parts', last, tokens, htokens, htree, hparts, hcutTokens tokens _ htree, hleft⟩

end LexiconAudit.Fixture
