import LexiconAudit.Proofs.Checking
import LexiconAudit.Proofs.Fixture.Likeness
import Mathlib.Algebra.Group.Nat.Defs

/-!
This module contains how the tokens of a text make up the text: their sources, with gaps around them, are the
text, every token stands where it says that it stands, and its source alone is that token again. What is
wrong with a text is wrong at one of its characters or at its end.
-/

namespace LexiconAudit.Fixture

open Text (Position isBlank)
open Text.Scanner (takeWhile_append dropWhile_append)

/-! Places in a text. -/

/--
The place behind `before`: one line more than `before` has line ends, and one column more than it has
characters behind the last of them.
-/
def placeAfter (before : List Char) : Position :=
  ⟨1 + before.count '\n', 1 + (before.reverse.takeWhile (· ≠ '\n')).length⟩

theorem placeAfter_concat (before : List Char) (c : Char) :
    placeAfter (before ++ [c]) = (placeAfter before).after c := by
  unfold placeAfter Position.after
  by_cases h : c = '\n'
  . simp [h, Nat.add_assoc]
  . simp [h, Nat.add_assoc]

theorem placeAfter_append (before cs : List Char) :
    placeAfter (before ++ cs) = (placeAfter before).advance cs := by
  induction cs generalizing before with
  | nil => rw [List.append_nil, Position.advance_nil]
  | cons c cs ih => rw [List.append_cons, ih, placeAfter_concat, Position.advance_cons]

theorem placeAfter_eq_advance (cs : List Char) : placeAfter cs = Position.start.advance cs :=
  placeAfter_append [] cs

def Fits (p : Position) : Prop :=
  p.line < 2 ^ 32 ∧ p.column < 2 ^ 32

theorem fits_placeAfter {before : List Char} (h : before.length < 2 ^ 32 - 1) : Fits (placeAfter before) := by
  have hline := List.count_le_length (a := '\n') (l := before)
  have hcolumn := (List.takeWhile_prefix (l := before.reverse) (· ≠ '\n')).length_le
  rw [List.length_reverse] at hcolumn
  constructor
  . simp only [placeAfter]
    omega
  . simp only [placeAfter]
    omega

/-! The source of a token. -/

theorem head?_of_isPrefix {more rest : List Char} (h : more <+: rest) {c : Char} (hc : more.head? = some c) :
    rest.head? = some c := by
  obtain ⟨after, rfl⟩ := h
  rw [List.head?_append, hc]
  rfl

theorem takeWhile_of_isPrefix {p : Char → Bool} {cs more : List Char} (hmore : more <+: cs.dropWhile p) :
    (cs.takeWhile p ++ more).takeWhile p = cs.takeWhile p ∧ (cs.takeWhile p ++ more).dropWhile p = more := by
  have hrun : ∀ c ∈ cs.takeWhile p, p c = true := fun c hc => List.mem_takeWhile_imp hc
  have hstop : ∀ c, more.head? = some c → p c = false := by
    intro c hc
    have := List.head?_dropWhile_not p cs
    rw [head?_of_isPrefix hmore hc] at this
    exact this
  exact ⟨takeWhile_append hrun hstop, dropWhile_append hrun hstop⟩

theorem commentLexeme_of_isPrefix {cs more : List Char} {l : Lexeme} (h : commentLexeme cs = .ok l)
    (hmore : more <+: l.rest) : commentLexeme (l.source.tail ++ more) = .ok { l with rest := more } := by
  unfold commentLexeme at h
  split at h
  . split at h
    . cases h
    . next body rest hbreak =>
      cases h
      have hbreak' := Text.breakAt_append hbreak more
      simp only [List.cons_append, List.tail_cons, commentLexeme, hbreak']
  . next cs =>
    cases h
    have hsplits := splitsLine cs
    exact commentLexeme_line ⟨hsplits.inside, fun c hc => hsplits.behind c (head?_of_isPrefix hmore hc)⟩
  . cases h

theorem lexeme_of_isPrefix {c : Char} {cs more : List Char} {l : Lexeme} (h : lexeme c cs = .ok l)
    (hmore : more <+: l.rest) : lexeme c (l.source.tail ++ more) = .ok { l with rest := more } := by
  unfold lexeme at h
  split at h
  case h_7 => exact commentLexeme_of_isPrefix h hmore
  case h_8 =>
    split at h
    . next hquote =>
      split at h
      . cases h
      . next body hbody =>
        cases h
        rw [List.tail_cons, lexeme, if_pos hquote, stringBody_append hbody more]
        all_goals assumption
    . next hquote =>
      split at h
      . next hstart =>
        cases h
        obtain ⟨htake, hdrop⟩ := takeWhile_of_isPrefix hmore
        rw [List.tail_cons, lexeme, if_neg hquote, if_pos hstart, htake, hdrop]
        all_goals assumption
      . next hstart =>
        split at h
        . next hword =>
          cases h
          obtain ⟨htake, hdrop⟩ := takeWhile_of_isPrefix hmore
          rw [List.tail_cons, lexeme, if_neg hquote, if_neg hstart, if_pos hword, htake, hdrop]
          all_goals assumption
        . cases h
  all_goals
    cases h
    rfl

theorem readTokens_of_gap {position : Position} {cs : List Char} (h : cs.dropWhile isGap = []) :
    readTokens position cs = .ok ⟨[], position.advance (cs.takeWhile isGap)⟩ := by
  unfold readTokens
  split
  . rfl
  . next hcons => cases h.symm.trans hcons

theorem readTokens_of_lexeme {position : Position} {cs rest : List Char} {c : Char} {l : Lexeme} {tokens : Tokens}
    (hgap : cs.dropWhile isGap = c :: rest) (hlexeme : lexeme c rest = .ok l)
    (hrest : readTokens ((position.advance (cs.takeWhile isGap)).advance l.source) l.rest = .ok tokens) :
    readTokens position cs =
      .ok ⟨⟨l.kind, position.advance (cs.takeWhile isGap)⟩ :: tokens.list, tokens.stop⟩ := by
  unfold readTokens
  split
  . next hnil => cases hgap.symm.trans hnil
  . next hcons =>
    cases hgap.symm.trans hcons
    split
    . next herror => cases hlexeme.symm.trans herror
    . next hok =>
      cases hlexeme.symm.trans hok
      dsimp only
      rw [hrest]

theorem tokenize_source {c : Char} {cs : List Char} {l : Lexeme} (hc : isGap c = false)
    (h : lexeme c cs = .ok l) :
    tokenize (String.ofList l.source) = .ok ⟨[⟨l.kind, Position.start⟩], placeAfter l.source⟩ := by
  obtain ⟨source, hsource⟩ := List.head?_eq_some_iff.1 (head?_source_of_lexeme h)
  have halone := lexeme_of_isPrefix h List.nil_prefix
  rw [hsource, List.tail_cons, List.append_nil] at halone
  have hgap : (c :: source).takeWhile isGap = [] ∧ (c :: source).dropWhile isGap = c :: source :=
    ⟨List.takeWhile_cons_of_neg (by simp [hc]), List.dropWhile_cons_of_neg (by simp [hc])⟩
  unfold tokenize
  rw [String.toList_ofList, hsource, readTokens_of_lexeme hgap.2 halone (readTokens_of_gap rfl), hgap.1,
    placeAfter_eq_advance]
  rfl

/-! The parts of a text. -/

structure Part where
  gap : List Char
  source : List Char
  kind : Kind

def Part.written (part : Part) : List Char :=
  part.gap ++ part.source

def IsGap (cs : List Char) : Prop :=
  ∀ c ∈ cs, isBlank c = true ∨ c = '\uFEFF'

/--
The source is not empty, and alone it is that one token.
-/
structure Part.IsToken (part : Part) : Prop where
  gap : IsGap part.gap
  source : part.source ≠ []
  alone : tokenize (String.ofList part.source) = .ok ⟨[⟨part.kind, Position.start⟩], placeAfter part.source⟩

def tokensOf (before : List Char) : List Part → List Token
  | [] => []
  | part :: parts => ⟨part.kind, placeAfter (before ++ part.gap)⟩ :: tokensOf (before ++ part.written) parts

/--
A text behind `before` consists of parts and a last gap; the tokens of the parts stand where the parts do, and
the end of the tokens is the end of the text.
-/
structure Partition (before cs : List Char) (parts : List Part) (last : List Char) (tokens : Tokens) : Prop where
  text : cs = parts.flatMap Part.written ++ last
  areTokens : ∀ part ∈ parts, part.IsToken
  last : IsGap last
  list : tokens.list = tokensOf before parts
  stop : tokens.stop = placeAfter (before ++ cs)

theorem isGap_takeWhile (cs : List Char) : IsGap (cs.takeWhile isGap) := by
  intro c hc
  have := List.mem_takeWhile_imp hc
  simpa [isGap] using this

theorem partition_nil {before cs : List Char} (hgap : cs.dropWhile isGap = []) :
    Partition before cs [] cs ⟨[], (placeAfter before).advance (cs.takeWhile isGap)⟩ := by
  have hcs : cs.takeWhile isGap = cs := by
    rw [← List.takeWhile_append_dropWhile (p := isGap) (l := cs), hgap, List.append_nil, List.takeWhile_idem]
  refine ⟨rfl, List.forall_mem_nil _, hcs ▸ isGap_takeWhile cs, rfl, ?_⟩
  rw [placeAfter_append, hcs]

theorem partition_cons {before cs rest : List Char} {c : Char} {l : Lexeme} {parts : List Part} {last : List Char}
    {tokens : Tokens} (hgap : cs.dropWhile isGap = c :: rest) (hlexeme : lexeme c rest = .ok l)
    (h : Partition (before ++ cs.takeWhile isGap ++ l.source) l.rest parts last tokens) :
    Partition before cs (⟨cs.takeWhile isGap, l.source, l.kind⟩ :: parts) last
      ⟨⟨l.kind, placeAfter (before ++ cs.takeWhile isGap)⟩ :: tokens.list, tokens.stop⟩ := by
  have hsource := head?_source_of_lexeme hlexeme
  have htext : cs = cs.takeWhile isGap ++ (l.source ++ l.rest) := by
    rw [append_eq_of_lexeme hlexeme, ← hgap, List.takeWhile_append_dropWhile]
  have hc : isGap c = false := by
    have := List.head?_dropWhile_not isGap cs
    rw [hgap] at this
    exact this
  refine ⟨?_, List.forall_mem_cons.2 ⟨⟨isGap_takeWhile cs, ?_, tokenize_source hc hlexeme⟩, h.areTokens⟩,
    h.last, ?_, ?_⟩
  . rw [List.flatMap_cons, List.append_assoc, ← h.text]
    simp only [Part.written, List.append_assoc]
    exact htext
  . rintro hnil
    cases (hnil ▸ hsource : ([] : List Char).head? = some c)
  . simp only [tokensOf, Part.written, h.list, List.append_assoc]
  . rw [h.stop, List.append_assoc, List.append_assoc, ← htext]

theorem partition_induction {P : List Char → List Part → Prop} (hnil : ∀ {cs}, cs.dropWhile isGap = [] → P cs [])
    (hcons : ∀ {cs c rest l parts}, cs.dropWhile isGap = c :: rest → lexeme c rest = .ok l → P l.rest parts →
      P cs (⟨cs.takeWhile isGap, l.source, l.kind⟩ :: parts)) (before : List Char) {cs : List Char} {tokens : Tokens}
    (h : readTokens (placeAfter before) cs = .ok tokens) :
    ∃ parts last, Partition before cs parts last tokens ∧ P cs parts := by
  generalize hp : placeAfter before = position at h
  fun_induction readTokens position cs generalizing before tokens with
  | case1 position cs start =>
    rename_i hgap
    cases h
    cases hp
    exact ⟨[], cs, partition_nil hgap, hnil hgap⟩
  | case2 => cases h
  | case3 => cases h
  | case4 position cs start c rest =>
    rename_i hgap l hlexeme _ more hmore ih
    cases h
    have hstart : placeAfter (before ++ cs.takeWhile isGap) = start := by rw [placeAfter_append, hp]
    obtain ⟨parts, last, hparts, hrest⟩ := ih _ (by rw [placeAfter_append, hstart]) hmore
    rw [← hstart]
    exact ⟨_, last, partition_cons hgap hlexeme hparts, hcons hgap hlexeme hrest⟩

theorem exists_partition_of_readTokens (before : List Char) {cs : List Char} {tokens : Tokens}
    (h : readTokens (placeAfter before) cs = .ok tokens) : ∃ parts last, Partition before cs parts last tokens := by
  have hnil {cs : List Char} (_ : cs.dropWhile isGap = []) : True := trivial
  obtain ⟨parts, last, hparts, -⟩ := partition_induction (P := fun _ _ => True) hnil (fun _ _ h => h) before h
  exact ⟨parts, last, hparts⟩

/-! Faults of a text. -/

/--
The place of a character of the text, or that of its end.
-/
def IsPlaceIn (text : List Char) (p : Position) : Prop :=
  ∃ before after, text = before ++ after ∧ p = placeAfter before

/--
What is blamed stands in the text. A literal without an end is blamed at its start, however long it is.
-/
structure Blames (m : Misread) (cs : List Char) : Prop where
  within : m.before <+: cs
  atStart : m.fault = .unterminatedString → m.before = []

theorem blames_front (fault : Fault) (cs : List Char) : Blames { fault } cs :=
  ⟨List.nil_prefix, fun _ => rfl⟩

theorem Blames.inside {m : Misread} {rest : List Char} (h : Blames m rest) (source : List Char) :
    Blames (m.inside source) (source ++ rest) := by
  unfold Misread.inside
  split
  . next hfault => exact ⟨h.atStart hfault ▸ List.nil_prefix, h.atStart⟩
  . next hfault => exact ⟨(List.prefix_append_right_inj source).2 h.within, fun heq => absurd heq hfault⟩

theorem blames_of_stringBody {quote : Char} {cs : List Char} {m : Misread} (h : stringBody quote cs = .error m) :
    Blames m cs := by
  fun_induction stringBody quote cs generalizing m with
  | case1 =>
    cases h
    exact blames_front _ _
  | case2 => cases h
  | case3 cs fault hescape =>
    cases h
    exact (blames_front fault cs).inside ['\\']
  | case4 cs piece hpiece _ m hbody _ ih =>
    cases h
    rw [← append_eq_of_escape hpiece]
    exact (ih hbody).inside ('\\' :: piece.source)
  | case5 => cases h
  | case6 c cs _ _ m hbody ih =>
    cases h
    exact (ih hbody).inside [c]
  | case7 => cases h

theorem blames_of_commentLexeme {cs : List Char} {m : Misread} (h : commentLexeme cs = .error m) :
    Blames m ('/' :: cs) := by
  unfold commentLexeme at h
  split at h
  . split at h
    . cases h
      exact blames_front _ _
    . cases h
  . cases h
  . cases h
    exact blames_front _ _

theorem blames_of_lexeme {c : Char} {cs : List Char} {m : Misread} (h : lexeme c cs = .error m) :
    Blames m (c :: cs) := by
  unfold lexeme at h
  split at h
  case h_7 => exact blames_of_commentLexeme h
  case h_8 =>
    split at h
    . split at h
      . next hbody =>
        cases h
        exact (blames_of_stringBody hbody).inside [c]
      . cases h
    . split at h
      . cases h
      . split at h
        . cases h
        . cases h
          exact blames_front _ _
  all_goals cases h

theorem exists_place_of_readTokens (before : List Char) {cs : List Char} {r : Rejection}
    (h : readTokens (placeAfter before) cs = .error r) : IsPlaceIn (before ++ cs) r.position := by
  generalize hp : placeAfter before = position at h
  fun_induction readTokens position cs generalizing before r with
  | case1 => cases h
  | case2 position cs start c rest =>
    rename_i hgap m hlexeme
    cases h
    obtain ⟨after, hafter⟩ := (blames_of_lexeme hlexeme).within
    refine ⟨before ++ cs.takeWhile isGap ++ m.before, after, ?_, ?_⟩
    . rw [List.append_assoc, hafter, ← hgap, List.append_assoc, List.takeWhile_append_dropWhile]
    . rw [placeAfter_append, placeAfter_append, hp]
  | case3 position cs start c rest =>
    rename_i hgap l hlexeme _ e hrest ih
    cases h
    have hplace := ih (before ++ cs.takeWhile isGap ++ l.source)
      (by rw [placeAfter_append, placeAfter_append, hp]) hrest
    rwa [List.append_assoc, append_eq_of_lexeme hlexeme, ← hgap, List.append_assoc,
      List.takeWhile_append_dropWhile] at hplace
  | case4 => cases h

theorem Partition.isPlaceIn {before cs : List Char} {parts : List Part} {last : List Char} {tokens : Tokens}
    (h : Partition before cs parts last tokens) : ∀ token ∈ tokens.list, IsPlaceIn (before ++ cs) token.position := by
  rw [h.list, h.text]
  clear h
  induction parts generalizing before with
  | nil => nofun
  | cons part parts ih =>
    refine List.forall_mem_cons.2
      ⟨⟨before ++ part.gap, part.source ++ (parts.flatMap Part.written ++ last), ?_, rfl⟩, ?_⟩
    . simp [Part.written]
    . have hparts := @ih (before ++ part.written)
      rwa [List.append_assoc, ← List.append_assoc part.written] at hparts

theorem likewise_of_forall {P : Position → Prop} {ts : List Token} (h : ∀ t ∈ ts, P t.position) :
    Likewise (fun p _ => P p) ts ts := by
  induction ts with
  | nil => exact .nil
  | cons t ts ih =>
    rw [List.forall_mem_cons] at h
    exact .cons h.1 (ih h.2)

theorem position_of_ofTokens {P : Position → Prop} {tokens : Tokens} (h : ∀ t ∈ tokens.list, P t.position)
    (hstop : P tokens.stop) {r : Rejection} (hr : ofTokens tokens = .error r) : P r.position := by
  rcases ofTokens_of_likewise (likewise_of_forall h) hstop with ⟨tree, hok, _⟩ | ⟨e, f, he, _, hsame⟩
  . cases hr.symm.trans hok
  . cases hr.symm.trans he
    exact hsame.position

theorem isPlaceIn_of_parse {text : String} {r : Rejection} (h : parse text = .error r) :
    IsPlaceIn text.toList r.position := by
  rcases bind_eq_error_iff.1 h with h | ⟨tokens, htokens, h⟩
  . exact exists_place_of_readTokens [] h
  . obtain ⟨parts, last, hparts⟩ := exists_partition_of_readTokens [] htokens
    exact position_of_ofTokens hparts.isPlaceIn ⟨text.toList, [], by simp, hparts.stop⟩ h

theorem IsPlaceIn.fits {text : List Char} {p : Position} (hp : IsPlaceIn text p)
    (h : text.length < 2 ^ 32 - 1) : Fits p := by
  obtain ⟨before, after, rfl, rfl⟩ := hp
  refine fits_placeAfter ?_
  rw [List.length_append] at h
  omega

/-! Texts. -/

/--
The tokens of a text and the gaps around them make up the text, and a text that is no fixture is rejected at a
place in it. The lines and columns of a text of fewer than 2^32 - 1 characters fit into 32 bits.
-/
theorem tokens_partition {text : String} (hlength : text.length < 2 ^ 32 - 1) :
    (∀ tokens, tokenize text = .ok tokens →
      (∃ parts last, Partition [] text.toList parts last tokens) ∧
        (∀ token ∈ tokens.list, Fits token.position) ∧ Fits tokens.stop) ∧
      ∀ r, parse text = .error r → IsPlaceIn text.toList r.position ∧ Fits r.position := by
  rw [← String.length_toList] at hlength
  constructor
  . intro tokens htokens
    obtain ⟨parts, last, h⟩ := exists_partition_of_readTokens [] htokens
    refine ⟨⟨parts, last, h⟩, fun token htoken => (h.isPlaceIn token htoken).fits hlength, ?_⟩
    rw [h.stop]
    exact fits_placeAfter hlength
  . intro r hr
    have hplace := isPlaceIn_of_parse hr
    exact ⟨hplace, hplace.fits hlength⟩

/-! A literal of two lines and a comment, where a section should be. -/

def twoLinesText : String :=
  "[ 'a\nb' // no gloss\n]"

def twoLinesTokens : Tokens :=
  ⟨[⟨.leftBracket, ⟨1, 1⟩⟩, ⟨.string "a\nb", ⟨1, 3⟩⟩, ⟨.comment "no gloss", ⟨2, 4⟩⟩, ⟨.rightBracket, ⟨3, 1⟩⟩], ⟨3, 2⟩⟩

theorem partition_twoLines :
    twoLinesText.length < 2 ^ 32 - 1 ∧
      (∃ parts last, Partition [] twoLinesText.toList parts last twoLinesTokens) ∧
      parse twoLinesText = .error ⟨.unexpected "a section object" (.string "a\nb"), ⟨1, 3⟩⟩ ∧
      IsPlaceIn twoLinesText.toList ⟨1, 3⟩ := by
  have hlength : twoLinesText.length < 2 ^ 32 - 1 := by decide
  have htokens : tokenize twoLinesText = .ok twoLinesTokens := by with_unfolding_all rfl
  have hparse : parse twoLinesText = .error ⟨.unexpected "a section object" (.string "a\nb"), ⟨1, 3⟩⟩ := by
    with_unfolding_all rfl
  obtain ⟨hread, hrejected⟩ := tokens_partition hlength
  exact ⟨hlength, (hread _ htokens).1, hparse, (hrejected _ hparse).1⟩

end LexiconAudit.Fixture
