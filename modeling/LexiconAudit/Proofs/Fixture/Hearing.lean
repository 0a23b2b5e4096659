import LexiconAudit.Proofs.Fixture.Derivation
import LexiconAudit.Proofs.Fixture.Records
import LexiconAudit.Proofs.Node.Elements

/-!
This module contains why the reader of fixtures makes the markers that the tokens call for. At any moment of
a run the markers made so far, with those that the comments put aside and the tokens still to read call for,
are the markers of the record that is open: each step keeps this tally, and so does a whole run.
-/

namespace LexiconAudit.Fixture

open Grammar Reading
open Reader hiding lexicon notes object sense entry note reply message senses fixture

variable {α : Type}

/-! What is still to come at a moment of a run. -/

def Unread.kinds (u : Unread) : List Kind :=
  u.tokens.map Token.kind

def Unread.whole (u : Unread) : List Kind :=
  u.comments.map .comment ++ u.kinds

theorem Unread.whole_taken (u : Unread) : Unread.whole { u with comments := [] } = u.kinds := rfl

theorem map_kind_leadingComments (ts : List Token) :
    ts.map Token.kind = (leadingComments ts).1.map .comment ++ (leadingComments ts).2.map Token.kind := by
  fun_induction leadingComments ts with
  | case1 body position ts bodies rest heq ih =>
    rw [heq] at ih
    rw [List.map_cons, ih]
    rfl
  | case2 => rfl

theorem Unread.whole_settle (u : Unread) : u.settle.whole = u.whole := by
  simp [whole, kinds, settle, map_kind_leadingComments u.tokens]

theorem whole_of_next {atEnd : Fault} {u v : Unread} {t : Token} (h : (next atEnd).run u = .ok (t, v)) :
    t.kind.isComment = false ∧ u.whole = v.comments.map .comment ++ t.kind :: v.kinds := by
  simp only [next] at h
  split at h
  . cases h
  . next heq =>
    cases h
    refine ⟨isComment_of_leadingComments heq, ?_⟩
    rw [← u.whole_settle, Unread.whole, Unread.kinds, heq]
    rfl

theorem whole_of_expect {k : Kind} {wanted : String} {u v : Unread} {t : Token}
    (h : (expect k wanted).run u = .ok (t, v)) :
    t.kind = k ∧ k.isComment = false ∧ u.whole = v.comments.map .comment ++ k :: v.kinds := by
  obtain ⟨t', v', hnext, h⟩ := run_bind_eq_ok_iff.1 h
  split at h
  . next hk =>
    cases h
    exact ⟨hk, hk ▸ whole_of_next hnext⟩
  . cases h

theorem whole_of_expectString {owner : String} {u v : Unread} {text : String}
    (h : (expectString owner).run u = .ok (text, v)) :
    u.whole = v.comments.map .comment ++ .string text :: v.kinds := by
  obtain ⟨t, v', hnext, h⟩ := run_bind_eq_ok_iff.1 h
  split at h
  . next hk =>
    cases h
    exact hk ▸ (whole_of_next hnext).2
  . cases h

theorem whole_of_front {u v : Unread} {t : Token} (h : front.run u = .ok (t, v)) :
    v.whole = u.whole ∧ t.kind.isComment = false ∧ ∃ ts, v.tokens = t :: ts := by
  simp only [front] at h
  split at h
  . cases h
  . next heq =>
    cases h
    exact ⟨u.whole_settle, isComment_of_leadingComments heq, _, heq⟩

theorem eq_of_next {atEnd : Fault} {u v : Unread} {t t' : Token} {ts : List Token} (hts : u.tokens = t :: ts)
    (ht : t.kind.isComment = false) (h : (next atEnd).run u = .ok (t', v)) :
    t' = t ∧ v = { u with tokens := ts } := by
  obtain ⟨tokens, comments, stop⟩ := u
  cases hts
  rw [run_next_cons ht] at h
  cases h
  exact ⟨rfl, rfl⟩

theorem whole_of_finish {u v : Unread} (h : finish.run u = .ok ((), v)) :
    u.whole = v.comments.map .comment := by
  simp only [finish] at h
  split at h
  . next heq =>
    cases h
    rw [← u.whole_settle, Unread.whole, Unread.kinds, heq]
    exact List.append_nil _
  . cases h

/-! The tally. -/

def tally (made : List Node) (frames : List Frame) (ks : List Kind) : List Node × List Record :=
  (made ++ (survey frames ks).1.filterMap Origin.marker?, (survey frames ks).2)

section Tally

variable {frames : List Frame} {k : Kind} {bodies : List String} {ks : List Kind} {made : List Node}

theorem filterMap_marker?_comments (bodies : List String) :
    (bodies.map (Origin.comment · true)).filterMap Origin.marker? = markers bodies := by
  rw [List.filterMap_map]
  rfl

theorem tally_of_hears (h : hears frames ks = true) :
    tally made frames (bodies.map .comment ++ ks) = tally (made ++ markers bodies) frames ks := by
  simp [tally, survey_comments, h, ← filterMap_marker?_comments]

theorem tally_of_not_hears (h : hears frames ks = false) :
    tally made frames (bodies.map .comment ++ ks) = tally made frames ks := by
  have hnone : (bodies.map (Origin.comment · false)).filterMap Origin.marker? = [] := by
    simp [List.filterMap_map, Function.comp_def, Origin.marker?]
  simp [tally, survey_comments, h, hnone]

theorem tally_cons (hopens : opensRecord frames k = false) (hcloses : closesRecord frames k = false) :
    tally made frames (k :: ks) =
      tally (made ++ (originsAt frames k ks).filterMap Origin.marker?) (advance frames k) ks := by
  simp [tally, survey_cons hopens hcloses]

theorem tally_colon : tally made frames (.colon :: ks) =
    tally (made ++ (emptyElement? frames ks).toList.map Node.absent) frames ks := by
  have horigins : (originsAt frames .colon ks).filterMap Origin.marker? =
      (emptyElement? frames ks).toList.map Node.absent := by
    cases h : emptyElement? frames ks <;> simp [originsAt, h, Origin.marker?]
  rw [tally_cons rfl (closesRecord_of_ne (by simp)), horigins]
  rfl

end Tally

def Glides (frames : List Frame) (k : Kind) : Prop :=
  ∀ (made : List Node) (bodies : List String) (ks : List Kind),
    tally made frames (bodies.map .comment ++ k :: ks) =
      tally made (advance frames k) (bodies.map .comment ++ ks)

theorem Glides.intro {frames : List Frame} {k : Kind} (hopens : opensRecord frames k = false)
    (hcloses : closesRecord frames k = false) (horigins : ∀ ks, originsAt frames k ks = [])
    (hhears : ∀ ks, hears frames (k :: ks) = hears (advance frames k) ks) : Glides frames k := by
  intro made bodies ks
  simp only [tally, survey_comments, survey_cons hopens hcloses, horigins, hhears, List.nil_append]

/--
The tokens that open and close nothing that matters to comments, and behind which nothing is said.
-/
def quiet (frames : List Frame) : Kind → Bool
  | .string _ | .word _ | .number _ | .truth _ | .null | .comma | .leftBracket => true
  | .rightBracket =>
    match frames with
    | .list _ :: _ => true
    | _ => false
  | .leftBrace | .rightBrace | .colon | .comment _ => false

theorem inNote_advance {frames : List Frame} {k : Kind} (hk : quiet frames k = true) :
    inNote (advance frames k) = inNote frames := by
  cases k with
  | leftBrace | rightBrace | colon | comment => cases hk
  | leftBracket | number | truth | null => rfl
  | rightBracket => obtain _ | ⟨⟨_, _⟩ | _, _⟩ := frames <;> first | rfl | cases hk
  | comma | string | word =>
    obtain _ | ⟨⟨scope, _ | _⟩ | _, _⟩ := frames <;> first | rfl | (cases scope <;> rfl)

theorem opensRecord_of_quiet {frames : List Frame} {k : Kind} (hk : quiet frames k = true) :
    opensRecord frames k = false := by
  cases k <;> first | rfl | cases hk

theorem closesRecord_of_quiet {frames : List Frame} {k : Kind} (hk : quiet frames k = true) :
    closesRecord frames k = false := by
  cases k <;> obtain _ | ⟨⟨_, _⟩ | _, _⟩ := frames <;> first | rfl | cases hk

theorem glides_of_quiet {frames : List Frame} {k : Kind} (hk : quiet frames k = true) : Glides frames k := by
  have hopens := opensRecord_of_quiet hk
  have hcloses := closesRecord_of_quiet hk
  refine Glides.intro hopens hcloses (fun ks => ?_) (fun ks => ?_)
  . cases k <;> first | rfl | cases hk
  . have hopensNext : opensNext (k :: ks) = opensNext ks := by
      cases k <;> first | rfl | cases hk
    unfold hears
    rw [recordScope?_advance hopens hcloses, inNote_advance hk, hopensNext]

/-! In an entry. -/

section Entry

variable {frames : List Frame} (hentry : recordScope? frames = some .entry)

include hentry

theorem hears_of_entry (ks : List Kind) : hears frames ks = true := by
  simp [hears, hentry]

theorem glides_of_entry {k : Kind} (hopens : opensRecord frames k = false) (hcloses : closesRecord frames k = false)
    (horigins : ∀ ks, originsAt frames k ks = []) : Glides frames k := by
  refine Glides.intro hopens hcloses horigins fun ks => ?_
  rw [hears_of_entry hentry, hears_of_entry (recordScope?_advance hopens hcloses ▸ hentry)]

end Entry

/-! Members of objects and items of lists. -/

section Loops

def KeptByQuiet (Inv : α → List Frame → List Kind → Prop) : Prop :=
  ∀ ⦃a : α⦄ ⦃frames : List Frame⦄ ⦃k : Kind⦄ ⦃bodies : List String⦄ ⦃ks : List Kind⦄,
    quiet frames k = true → Inv a frames (bodies.map .comment ++ k :: ks) →
      Inv a (advance frames k) (bodies.map .comment ++ ks)

theorem keptByQuiet_tally (made : α → List Node) (total : List Node × List Record) :
    KeptByQuiet fun a frames ks => tally (made a) frames ks = total := by
  intro a frames k bodies ks hk h
  rw [← h, glides_of_quiet hk]

variable {Inv : α → List Frame → List Kind → Prop} {scope : Scope} {outer : List Frame}

def KeptByMember (Inv : α → List Frame → List Kind → Prop) (scope : Scope) (outer : List Frame)
    (member : Key → α → Reader α) : Prop :=
  ∀ ⦃name : String⦄ ⦃token : Token⦄ ⦃a a' : α⦄ ⦃u v : Unread⦄,
    (member ⟨name, token⟩ a).run u = .ok (a', v) →
      Inv a (.object scope (some name) :: outer) (u.comments.map .comment ++ .colon :: u.kinds) →
        Inv a' (.object scope (some name) :: outer) v.whole

theorem KeptByMember.keep {member : Key → α → Reader α} (hquiet : KeptByQuiet Inv)
    (hmember : KeptByMember Inv scope outer member) {a a' : α} {u v w x : Unread} {token colon : Token}
    {name : String} (hname : next.run u = .ok (token, v))
    (htoken : token.kind = .string name ∨ token.kind = .word name)
    (hcolon : (expect .colon "':'").run v = .ok (colon, w))
    (hrun : (member ⟨name, token⟩ a).run w = .ok (a', x)) (h : Inv a (.object scope none :: outer) u.whole) :
    Inv a' (.object scope (some name) :: outer) x.whole := by
  rw [(whole_of_next hname).2] at h
  have hadvance : quiet (.object scope none :: outer) token.kind = true ∧
      advance (.object scope none :: outer) token.kind = .object scope (some name) :: outer := by
    rcases htoken with htoken | htoken <;> rw [htoken] <;> exact ⟨rfl, rfl⟩
  replace h := hquiet hadvance.1 h
  rw [hadvance.2] at h
  refine hmember hrun ?_
  rw [← (whole_of_expect hcolon).2.2]
  exact h

theorem membersRound_keep {member : Key → α → Reader α} (hquiet : KeptByQuiet Inv)
    (hmember : KeptByMember Inv scope outer member) {a : α} {round : Round α α} {u v : Unread}
    (hrun : (membersRound member a).run u = .ok (round, v)) (h : Inv a (.object scope none :: outer) u.whole) :
    match round with
    | .again a' => Inv a' (.object scope none :: outer) v.whole
    | .done b => ∃ name,
      Inv b (.object scope name :: outer) (v.comments.map .comment ++ .rightBrace :: v.kinds) := by
  obtain ⟨token, v', hname, hrun⟩ := run_bind_eq_ok_iff.1 hrun
  split at hrun
  case h_1 hk =>
    cases hrun
    exact ⟨none, hk ▸ (whole_of_next hname).2 ▸ h⟩
  case h_4 => cases hrun
  all_goals
    next name hk =>
    obtain ⟨colon, w, hcolon, hrun⟩ := run_bind_eq_ok_iff.1 hrun
    obtain ⟨a', x, hvalue, hrun⟩ := run_bind_eq_ok_iff.1 hrun
    obtain ⟨behind, y, hbehind, hrun⟩ := run_bind_eq_ok_iff.1 hrun
    have hkept := hmember.keep hquiet hname (by simp [hk]) hcolon hvalue h
    rw [(whole_of_next hbehind).2] at hkept
    split at hrun
    case h_1 hk =>
      cases hrun
      rw [hk] at hkept
      exact hquiet rfl hkept
    case h_2 hk =>
      cases hrun
      exact ⟨some name, hk ▸ hkept⟩
    case h_3 => cases hrun

theorem members_keep {member : Key → α → Reader α} (hquiet : KeptByQuiet Inv)
    (hmember : KeptByMember Inv scope outer member) {a b : α} {u v : Unread}
    (hrun : (members member a).run u = .ok (b, v)) (h : Inv a (.object scope none :: outer) u.whole) :
    ∃ name, Inv b (.object scope name :: outer) (v.comments.map .comment ++ .rightBrace :: v.kinds) := by
  refine loop_induction (P := fun a u b v => Inv a (.object scope none :: outer) u.whole →
    ∃ name, Inv b (.object scope name :: outer) (v.comments.map .comment ++ .rightBrace :: v.kinds))
    ?_ ?_ hrun h
  . intro a u b v hround h
    exact membersRound_keep hquiet hmember hround h
  . intro a u a' v b w hround ih h
    exact ih (membersRound_keep hquiet hmember hround h)

def KeptByProperty (Inv : α → List Frame → List Kind → Prop) (scope : Scope) (outer : List Frame)
    (property : Property → Option (α → Reader α)) : Prop :=
  ∀ ⦃name : String⦄ ⦃p : Property⦄ ⦃read : α → Reader α⦄ ⦃a a' : α⦄ ⦃u v : Unread⦄,
    Property.ofName? name = some p → property p = some read → (read a).run u = .ok (a', v) →
      Inv a (.object scope (some name) :: outer) (u.comments.map .comment ++ .colon :: u.kinds) →
        Inv a' (.object scope (some name) :: outer) v.whole

theorem object_keep {place : Place} {property : Property → Option (α → Reader α)} (hquiet : KeptByQuiet Inv)
    (hproperty : KeptByProperty Inv scope outer property) {a b : α} {u v : Unread}
    (hrun : (Reader.object place property a).run u = .ok (b, v)) (h : Inv a (.object scope none :: outer) u.whole) :
    ∃ name, Inv b (.object scope name :: outer) (v.comments.map .comment ++ .rightBrace :: v.kinds) := by
  refine members_keep hquiet (fun name token a a' u v hrun h => ?_) hrun h
  split at hrun
  . cases hrun
  . next p hp =>
    split at hrun
    . cases hrun
    . next read hread => exact hproperty hp hread hrun h

def KeptByItem (Inv : α → List Frame → List Kind → Prop) (frames : List Frame) (item : α → Reader α) : Prop :=
  ∀ ⦃a a' : α⦄ ⦃u v : Unread⦄ ⦃token : Token⦄ ⦃ts : List Token⦄, u.tokens = token :: ts →
    token.kind.isComment = false → (item a).run u = .ok (a', v) → Inv a frames u.whole → Inv a' frames v.whole

theorem itemsRound_keep {kind : Scope} {item : α → Reader α} (hquiet : KeptByQuiet Inv)
    (hitem : KeptByItem Inv (.list kind :: outer) item) {a : α} {round : Round α α} {u v : Unread}
    (hrun : (itemsRound item a).run u = .ok (round, v)) (h : Inv a (.list kind :: outer) u.whole) :
    match round with
    | .again a' => Inv a' (.list kind :: outer) v.whole
    | .done b => Inv b outer v.whole := by
  obtain ⟨token, w, hfront, hrun⟩ := run_bind_eq_ok_iff.1 hrun
  obtain ⟨hwhole, hcomment, ts, hts⟩ := whole_of_front hfront
  rw [← hwhole] at h
  split at hrun
  . next hk =>
    obtain ⟨bracket, x, hnext, hrun⟩ := run_bind_eq_ok_iff.1 hrun
    cases hrun
    rw [(whole_of_next hnext).2, (eq_of_next hts hcomment hnext).1, hk] at h
    exact hquiet rfl h
  . obtain ⟨a', x, hvalue, hrun⟩ := run_bind_eq_ok_iff.1 hrun
    obtain ⟨behind, y, hbehind, hrun⟩ := run_bind_eq_ok_iff.1 hrun
    have hkept := hitem hts hcomment hvalue h
    rw [(whole_of_next hbehind).2] at hkept
    split at hrun
    case h_3 => cases hrun
    all_goals
      next hk =>
      cases hrun
      rw [hk] at hkept
      exact hquiet rfl hkept

theorem foldItems_keep {kind : Scope} {item : α → Reader α} (hquiet : KeptByQuiet Inv)
    (hitem : KeptByItem Inv (.list kind :: outer) item) {a b : α} {u v : Unread}
    (hrun : (foldItems item a).run u = .ok (b, v)) (h : Inv a (.list kind :: outer) u.whole) :
    Inv b outer v.whole := by
  refine loop_induction (P := fun a u b v => Inv a (.list kind :: outer) u.whole → Inv b outer v.whole)
    ?_ ?_ hrun h
  . intro a u b v hround h
    exact itemsRound_keep hquiet hitem hround h
  . intro a u a' v b w hround ih h
    exact ih (itemsRound_keep hquiet hitem hround h)

theorem items_keep {Inv : List α → List Frame → List Kind → Prop} {kind : Scope} {item : Reader α}
    (hquiet : KeptByQuiet Inv)
    (hitem : ∀ {as : List α} {a : α} {u v : Unread} {token : Token} {ts : List Token}, u.tokens = token :: ts →
      token.kind.isComment = false → item.run u = .ok (a, v) → Inv as (.list kind :: outer) u.whole →
        Inv (as ++ [a]) (.list kind :: outer) v.whole)
    {as : List α} {u v : Unread} (hrun : (items item).run u = .ok (as, v))
    (h : Inv [] (.list kind :: outer) u.whole) : Inv as outer v.whole := by
  refine foldItems_keep hquiet (fun as as' u v token ts hts htoken hrun h => ?_) hrun h
  obtain ⟨a, _, ha, hrun⟩ := run_bind_eq_ok_iff.1 hrun
  cases hrun
  exact hitem hts htoken ha h

theorem ofTokens_keep {Inv : List Node → List Frame → List Kind → Prop} (hquiet : KeptByQuiet Inv)
    (hsection : KeptByItem Inv [.list .part] sectionObject) {tokens : Tokens} {tree : Node}
    (hrun : ofTokens tokens = .ok tree) (h : Inv [] [] (tokens.list.map Token.kind)) :
    ∃ bodies : List String, Inv tree.children [] (bodies.map .comment) := by
  unfold ofTokens at hrun
  cases hfixture : Reader.fixture.run ⟨tokens.list, [], tokens.stop⟩ with
  | error r =>
    rw [hfixture] at hrun
    cases hrun
  | ok result =>
    rw [hfixture] at hrun
    obtain ⟨node, v⟩ := result
    cases hrun
    obtain ⟨t, w, hnext, hrun⟩ := run_bind_eq_ok_iff.1 hfixture
    split at hrun
    case isFalse => cases hrun
    next ht =>
    obtain ⟨sections, x, hfold, hrun⟩ := run_bind_eq_ok_iff.1 hrun
    obtain ⟨_, y, hfinish, hrun⟩ := run_bind_eq_ok_iff.1 hrun
    cases hrun
    have hstart : Inv [] [] (Unread.whole { tokens := tokens.list, stop := tokens.stop }) := h
    rw [(whole_of_next hnext).2, ht] at hstart
    have hclose := foldItems_keep hquiet hsection hfold (hquiet rfl hstart)
    rw [whole_of_finish hfinish] at hclose
    exact ⟨_, hclose⟩

end Loops

/-! Steps in sequence. -/

inductive Taken : Unread → List Kind → Unread → Prop where
  | nil (u : Unread) : Taken u [] u
  | cons {u v w : Unread} {k : Kind} {ks : List Kind} : k.isComment = false →
    u.whole = v.comments.map .comment ++ k :: v.kinds → Taken v ks w → Taken u (k :: ks) w

def GlidesThrough (frames : List Frame) : List Kind → Prop
  | [] => True
  | k :: ks => Glides frames k ∧ GlidesThrough (advance frames k) ks

theorem Taken.tally_eq {u v : Unread} {ks : List Kind} (h : Taken u ks v) {frames : List Frame}
    (hglides : GlidesThrough frames ks) (made : List Node) :
    tally made frames u.whole = tally made (ks.foldl advance frames) v.whole := by
  induction h generalizing frames with
  | nil => rfl
  | cons _ hwhole _ ih =>
    rw [hwhole, hglides.1]
    exact ih hglides.2

theorem otherKinds_comments (bodies : List String) (ks : List Kind) :
    otherKinds (bodies.map .comment ++ ks) = otherKinds ks := by
  simp [otherKinds, List.filter_map, Function.comp_def, Kind.isComment]

theorem Taken.otherKinds_eq {u v : Unread} {ks : List Kind} (h : Taken u ks v) :
    otherKinds u.whole = ks ++ otherKinds v.whole := by
  induction h with
  | nil => rfl
  | @cons u v w k ks hk hwhole _ ih =>
    rw [hwhole, otherKinds_comments]
    rw [Unread.whole, otherKinds_comments] at ih
    rw [List.cons_append, ← ih]
    simp [otherKinds, hk]

theorem Taken.next {atEnd : Fault} {t : Token} {u v w : Unread} {ks : List Kind}
    (h : (next atEnd).run u = .ok (t, v)) (htaken : Taken v ks w) : Taken u (t.kind :: ks) w :=
  .cons (whole_of_next h).1 (whole_of_next h).2 htaken

theorem Taken.expect {k : Kind} {wanted : String} {t : Token} {u v w : Unread} {ks : List Kind}
    (h : (expect k wanted).run u = .ok (t, v)) (htaken : Taken v ks w) : Taken u (k :: ks) w :=
  .cons (whole_of_expect h).2.1 (whole_of_expect h).2.2 htaken

theorem Taken.expectString {owner text : String} {u v w : Unread} {ks : List Kind}
    (h : (expectString owner).run u = .ok (text, v)) (htaken : Taken v ks w) : Taken u (.string text :: ks) w :=
  .cons rfl (whole_of_expectString h) htaken

theorem taken_writingSystemValue {u v : Unread} {system value : String}
    (h : writingSystemValue.run u = .ok ((system, value), v)) :
    ∃ k k', (k = .string system ∨ k = .word system) ∧ (k' = .string "value" ∨ k' = .word "value") ∧
      Taken u [.leftBrace, k, .colon, .leftBrace, k', .colon, .string value, .rightBrace, .rightBrace] v := by
  obtain ⟨_, w₁, h₁, h⟩ := run_bind_eq_ok_iff.1 h
  obtain ⟨token, w₂, h₂, h⟩ := run_bind_eq_ok_iff.1 h
  split at h
  case h_3 => cases (run_bind_eq_ok_iff.1 h).choose_spec.choose_spec.1
  all_goals
    next text htoken =>
    obtain ⟨_, _, hpure, h⟩ := run_bind_eq_ok_iff.1 h
    cases hpure
    obtain ⟨_, w₃, h₃, h⟩ := run_bind_eq_ok_iff.1 h
    obtain ⟨_, w₄, h₄, h⟩ := run_bind_eq_ok_iff.1 h
    obtain ⟨key, w₅, h₅, h⟩ := run_bind_eq_ok_iff.1 h
    split at h
    case isFalse => cases h
    next hkey =>
    obtain ⟨_, w₆, h₆, h⟩ := run_bind_eq_ok_iff.1 h
    obtain ⟨_, w₇, h₇, h⟩ := run_bind_eq_ok_iff.1 h
    obtain ⟨_, w₈, h₈, h⟩ := run_bind_eq_ok_iff.1 h
    obtain ⟨_, w₉, h₉, h⟩ := run_bind_eq_ok_iff.1 h
    cases h
    refine ⟨token.kind, key.kind, by simp [htoken], hkey, ?_⟩
    exact .expect h₁ (.next h₂ (.expect h₃ (.expect h₄ (.next h₅ (.expect h₆ (.expectString h₇
      (.expect h₈ (.expect h₉ (.nil v)))))))))

/-! Values in an entry. -/

theorem tally_of_next {atEnd : Fault} {frames : List Frame} {t : Token} {u v : Unread}
    (h : (next atEnd).run u = .ok (t, v)) (hglides : Glides frames t.kind) (made : List Node) :
    tally made frames u.whole = tally made (advance frames t.kind) v.whole :=
  (Taken.next h (.nil v)).tally_eq ⟨hglides, trivial⟩ made

theorem tally_of_expect {k : Kind} {wanted : String} {frames : List Frame} {t : Token} {u v : Unread}
    (h : (expect k wanted).run u = .ok (t, v)) (hglides : Glides frames k) (made : List Node) :
    tally made frames u.whole = tally made (advance frames k) v.whole :=
  (Taken.expect h (.nil v)).tally_eq ⟨hglides, trivial⟩ made

theorem tally_of_expectString {owner text name : String} {scope : Scope} {outer : List Frame} {u v : Unread}
    (h : (expectString owner).run u = .ok (text, v)) (made : List Node) :
    tally made (.object scope (some name) :: outer) u.whole =
      tally made (.object scope (some name) :: outer) v.whole :=
  (Taken.expectString h (.nil v)).tally_eq ⟨glides_of_quiet rfl, trivial⟩ made

section Values

variable {frames : List Frame} (hentry : recordScope? frames = some .entry)

include hentry

theorem glides_leftBrace (hopens : (objectScope frames).isRecord = false) : Glides frames .leftBrace :=
  glides_of_entry hentry (by simp [opensRecord, hopens]) (closesRecord_of_ne (by simp)) fun _ => rfl

theorem glides_other {name : Option String} {k : Kind} (hk : k.isComment = false) :
    Glides (.object .other name :: frames) k := by
  have hinner : recordScope? (.object .other name :: frames) = some .entry := hentry
  refine glides_of_entry hinner ?_ ?_ fun ks => ?_
  . cases k <;> rfl
  . cases k <;> rfl
  . cases k <;> first | rfl | cases hk

theorem tally_writingSystemValue (hobject : objectScope frames = .other) {u v : Unread} {system value : String}
    (h : writingSystemValue.run u = .ok ((system, value), v)) (made : List Node) :
    tally made frames u.whole = tally made frames v.whole := by
  obtain ⟨k, k', hk, hk', htaken⟩ := taken_writingSystemValue h
  have hinner : recordScope? (.object .other (some system) :: frames) = some .entry := hentry
  have hglides : GlidesThrough frames
      [.leftBrace, k, .colon, .leftBrace, k', .colon, .string value, .rightBrace, .rightBrace] := by
    refine ⟨glides_leftBrace hentry (by rw [hobject]; rfl), ?_⟩
    rcases hk with rfl | rfl <;> rcases hk' with rfl | rfl
    all_goals
      simp only [advance, hobject]
      exact ⟨glides_other hentry rfl, glides_other hentry rfl, glides_other hentry rfl,
        glides_other hinner rfl, glides_other hinner rfl, glides_other hinner rfl, glides_other hinner rfl,
        glides_other hentry rfl, trivial⟩
  rw [htaken.tally_eq hglides]
  rcases hk with rfl | rfl <;> rcases hk' with rfl | rfl <;> simp [advance, hobject]

theorem tally_skipWithin {depth : Nat} (hplain : Plain frames) {u v : Unread}
    (h : (skipWithin depth).run u = .ok ((), v)) (made : List Node) :
    tally made frames u.whole = tally made frames v.whole := by
  induction depth generalizing frames u v with
  | zero =>
    obtain ⟨_, _, -, h⟩ := run_bind_eq_ok_iff.1 h
    cases h
  | succ depth ih =>
    obtain ⟨token, w, hnext, h⟩ := run_bind_eq_ok_iff.1 h
    split at h
    case h_1 hk =>
      have hopen := tally_of_next hnext (hk ▸ glides_leftBrace hentry (by rw [hplain.objectScope_eq]; rfl)) made
      have hmember : KeptByMember (fun _ inner ks => tally made inner ks = tally made frames u.whole) .other frames
          fun _ _ => skipWithin depth := by
        intro name token a a' u' v' hrun hinv
        have hinner : recordScope? (.object .other (some name) :: frames) = some .entry := hentry
        rw [← ih hinner (.member (.inr rfl)) hrun, ← hinv, glides_other hentry rfl]
        rfl
      obtain ⟨name, hclose⟩ := members_keep (keptByQuiet_tally _ _) hmember h
        (by rw [hopen, hk, advance, hplain.objectScope_eq])
      rw [← hclose, glides_other hentry rfl]
      rfl
    case h_2 hk =>
      have hglides : Glides frames token.kind := by
        rw [hk]
        exact glides_of_quiet rfl
      have hopen := tally_of_next hnext hglides made
      have hitem : KeptByItem (fun _ inner ks => tally made inner ks = tally made frames u.whole)
          (.list .other :: frames) fun _ => skipWithin depth := by
        intro a a' u' v' token ts _ _ hrun hinv
        have hinner : recordScope? (.list .other :: frames) = some .entry := hentry
        rw [← ih hinner .item hrun, hinv]
      exact (foldItems_keep (keptByQuiet_tally _ _) hitem h
        (by rw [hopen, hk, advance, hplain.listScope_eq])).symm
    case h_7 => cases h
    all_goals
      next hk =>
      cases h
      rw [tally_of_next hnext (by rw [hk]; exact glides_of_quiet rfl), hk]
      first | rfl | rw [hplain.advance_string]

theorem tally_skip (hplain : Plain frames) {u v : Unread} (h : Reader.skip.run u = .ok ((), v))
    (made : List Node) : tally made frames u.whole = tally made frames v.whole :=
  tally_skipWithin hentry hplain h made

end Values

theorem isEmptyValue_of_run {u v : Unread} {system value : String}
    (h : writingSystemValue.run u = .ok ((system, value), v)) : isEmptyValue u.whole = value.isEmpty := by
  obtain ⟨k, k', -, -, htaken⟩ := taken_writingSystemValue h
  rw [isEmptyValue, htaken.otherKinds_eq]
  rfl

end LexiconAudit.Fixture
