import LexiconAudit.Proofs.Checking
import LexiconAudit.Proofs.Fixture.Nesting

/-!
This module contains where the outermost list of a fixture is closed: from its first bracket on there is always
some bracket open, up to the one that is the last token apart from comments.
-/

namespace LexiconAudit.Fixture

open Reading
open Reader hiding lexicon notes object sense entry note reply message senses fixture

variable {α : Type}

/-! Open brackets. -/

def Kind.shift (d : Nat) : Kind → Nat
  | .leftBrace | .leftBracket => d + 1
  | .rightBrace | .rightBracket => d - 1
  | _ => d

def depthBehind (d : Nat) (ks : List Kind) : Nat :=
  ks.foldl Kind.shift d

/--
From the first opening bracket of a list on, there is always some bracket open.
-/
def Unclosed (ks : List Kind) : Prop :=
  ∀ before, before <+: ks → .leftBracket ∈ before → depthBehind 0 before ≠ 0

/--
This bracket closes the list that opened first, and only comments stand behind it.
-/
structure ClosesOutermost (before : List Kind) (k : Kind) (after : List Kind) : Prop where
  bracket : k = .rightBracket
  opened : .leftBracket ∈ before
  unclosed : Unclosed before
  closed : depthBehind 0 (before ++ [k]) = 0
  behind : ∀ k ∈ after, k.isComment = true

theorem depthBehind_cons (d : Nat) (k : Kind) (ks : List Kind) :
    depthBehind d (k :: ks) = depthBehind (k.shift d) ks := rfl

theorem depthBehind_append (d : Nat) (ks ks' : List Kind) :
    depthBehind d (ks ++ ks') = depthBehind (depthBehind d ks) ks' :=
  List.foldl_append

theorem shift_of_isComment {k : Kind} (hk : k.isComment = true) (d : Nat) : k.shift d = d := by
  cases k <;> first | rfl | cases hk

theorem depthBehind_otherKinds (d : Nat) (ks : List Kind) : depthBehind d (otherKinds ks) = depthBehind d ks := by
  induction ks generalizing d with
  | nil => rfl
  | cons k ks ih =>
    cases hk : k.isComment with
    | true => simp [otherKinds, hk, depthBehind_cons, shift_of_isComment, ← ih]
    | false => simp [otherKinds, hk, depthBehind_cons, ← ih]

theorem Unclosed.of_isPrefix {ks ks' : List Kind} (h : Unclosed ks) (hks : ks' <+: ks) : Unclosed ks' :=
  fun _ hbefore => h _ (hbefore.trans hks)

theorem Unclosed.of_otherKinds {ks : List Kind} (h : Unclosed (otherKinds ks)) : Unclosed ks := by
  intro before hbefore hopened
  rw [← depthBehind_otherKinds]
  refine h (otherKinds before) (hbefore.filter _) ?_
  exact List.mem_filter.2 ⟨hopened, rfl⟩

theorem Shifts.shift_eq {k : Kind} {d e : Nat} (h : Shifts d k e) : k.shift d = e := by
  cases h with
  | opening hk => rcases hk with rfl | rfl <;> rfl
  | closing hk => rcases hk with rfl | rfl <;> rfl
  | plain hk => cases k <;> first | rfl | cases hk
  | joining hk => cases k <;> first | rfl | cases hk

theorem Nested.exists_between {ks ks' : List Kind} {d e : Nat} (h : Nested d (ks ++ ks') e) :
    ∃ m, Nested d ks m ∧ Nested m ks' e := by
  induction ks generalizing d with
  | nil => exact ⟨d, .nil d, h⟩
  | cons k ks ih =>
    cases h with
    | cons hk h =>
      obtain ⟨m, hks, hks'⟩ := ih h
      exact ⟨m, .cons hk hks, hks'⟩

theorem Nested.depthBehind_eq {ks : List Kind} {d e : Nat} (h : Nested d ks e) : depthBehind d ks = e := by
  induction h with
  | nil => rfl
  | cons hk _ ih => rw [depthBehind_cons, hk.shift_eq, ih]

/-! Between the brackets of a list. -/

structure Level (ks : List Kind) : Prop where
  total : depthBehind 1 ks = 1
  inside : ∀ before, before <+: ks → depthBehind 1 before ≠ 0

theorem Level.nil : Level [] where
  total := rfl
  inside before hbefore := by
    rw [List.prefix_nil.1 hbefore]
    exact Nat.one_ne_zero

theorem Level.append {ks ks' : List Kind} (h : Level ks) (h' : Level ks') : Level (ks ++ ks') where
  total := by rw [depthBehind_append, h.total, h'.total]
  inside before hbefore := by
    rcases List.prefix_or_prefix_of_prefix hbefore (List.prefix_append ks ks') with hks | ⟨more, rfl⟩
    . exact h.inside before hks
    . rw [depthBehind_append, h.total]
      exact h'.inside more ((List.prefix_append_right_inj ks).1 hbefore)

theorem Nested.level {ks : List Kind} (h : Nested 0 ks 0) : Level ks where
  total := h.succ.depthBehind_eq
  inside before hbefore := by
    obtain ⟨after, rfl⟩ := hbefore
    obtain ⟨m, hm, -⟩ := h.exists_between
    rw [hm.succ.depthBehind_eq]
    exact Nat.succ_ne_zero m

theorem Level.comma : Level [.comma] where
  total := rfl
  inside before hbefore := by
    rcases List.prefix_cons_iff.1 hbefore with rfl | ⟨more, rfl, hmore⟩
    . exact Nat.one_ne_zero
    . rw [List.prefix_nil.1 hmore]
      exact Nat.one_ne_zero

def roundEnd : Round α α → Kind
  | .again _ => .comma
  | .done _ => .rightBracket

section Items

variable {item : α → Reader α} (hitem : ∀ a, Spans (item a) 0 0)

include hitem

theorem level_itemsRound {a : α} {round : Round α α} {u v : Unread}
    (h : (itemsRound item a).run u = .ok (round, v)) :
    ∃ ks, Level ks ∧ otherKinds u.whole = ks ++ roundEnd round :: otherKinds v.whole := by
  obtain ⟨token, w, hfront, h⟩ := run_bind_eq_ok_iff.1 h
  obtain ⟨hwhole, hcomment, ts, hts⟩ := whole_of_front hfront
  rw [← hwhole]
  split at h
  . next hk =>
    obtain ⟨bracket, x, hnext, h⟩ := run_bind_eq_ok_iff.1 h
    cases h
    refine ⟨[], .nil, ?_⟩
    rw [(Taken.next hnext (.nil _)).otherKinds_eq, (eq_of_next hts hcomment hnext).1, hk]
    rfl
  . obtain ⟨a', x, hrun, h⟩ := run_bind_eq_ok_iff.1 h
    obtain ⟨ks, hks, hx⟩ := hitem a hrun
    obtain ⟨behind, y, hnext, h⟩ := run_bind_eq_ok_iff.1 h
    refine ⟨ks, hks.level, ?_⟩
    rw [hx, (Taken.next hnext (.nil _)).otherKinds_eq]
    split at h
    . next hk =>
      cases h
      rw [hk]
      rfl
    . next hk =>
      cases h
      rw [hk]
      rfl
    . cases h

theorem level_foldItems {a b : α} {u v : Unread} (h : (foldItems item a).run u = .ok (b, v)) :
    ∃ ks, Level ks ∧ otherKinds u.whole = ks ++ .rightBracket :: otherKinds v.whole := by
  refine loop_induction (P := fun _ u _ v => ∃ ks, Level ks ∧
    otherKinds u.whole = ks ++ .rightBracket :: otherKinds v.whole) ?_ ?_ h
  . intro a u b v h
    exact level_itemsRound hitem h
  . intro a u a' v b w h ⟨ks', hks', hv⟩
    obtain ⟨ks, hks, hu⟩ := level_itemsRound hitem h
    refine ⟨ks ++ [.comma] ++ ks', (hks.append .comma).append hks', ?_⟩
    rw [hu, hv]
    simp [roundEnd]

end Items

/-! The outermost list. -/

theorem Level.unclosed {ks : List Kind} (h : Level ks) : Unclosed (.leftBracket :: ks) := by
  intro before hbefore hopened
  cases before with
  | nil => cases hopened
  | cons k before =>
    obtain ⟨rfl, hmore⟩ := List.cons_prefix_cons.1 hbefore
    exact h.inside before hmore

theorem exists_closing {ks inner more : List Kind} (hinner : Level inner)
    (h : otherKinds ks = .leftBracket :: inner ++ .rightBracket :: more) :
    ∃ before after, ks = before ++ .rightBracket :: after ∧ .leftBracket ∈ before ∧ Unclosed before ∧
      depthBehind 0 (before ++ [.rightBracket]) = 0 ∧ otherKinds after = more := by
  obtain ⟨before, rest, rfl, hbefore, hrest⟩ := List.filter_eq_append_iff.1 h
  obtain ⟨comments, after, rfl, hcomments, -, hafter⟩ := List.filter_eq_cons_iff.1 hrest
  have hothers : otherKinds (before ++ comments) = .leftBracket :: inner := by
    rw [otherKinds, List.filter_append, hbefore, List.filter_eq_nil_iff.2 hcomments, List.append_nil]
  refine ⟨before ++ comments, after, by simp, ?_, ?_, ?_, hafter⟩
  . have hmem : .leftBracket ∈ otherKinds (before ++ comments) := hothers ▸ List.mem_cons_self
    exact (List.mem_filter.1 hmem).1
  . exact .of_otherKinds (hothers ▸ hinner.unclosed)
  . rw [depthBehind_append, ← depthBehind_otherKinds 0 (before ++ comments), hothers, depthBehind_cons]
    change depthBehind (depthBehind 1 inner) [.rightBracket] = 0
    rw [hinner.total]
    rfl

theorem level_sections {atEnd : Fault} {u v w : Unread} {t : Token} {sections sections' : List Node}
    (hnext : (next atEnd).run u = .ok (t, v)) (ht : t.kind = .leftBracket)
    (h : (foldItems sectionObject sections).run v = .ok (sections', w)) :
    ∃ inner, Level inner ∧ otherKinds u.whole = .leftBracket :: inner ++ .rightBracket :: otherKinds w.whole := by
  obtain ⟨inner, hinner, hv⟩ := level_foldItems spans_sectionObject h
  refine ⟨inner, hinner, ?_⟩
  rw [(Taken.next hnext (.nil _)).otherKinds_eq, ht, hv]
  rfl

theorem exists_closesOutermost {tokens : Tokens} {tree : Node} (h : ofTokens tokens = .ok tree) :
    ∃ before k after, tokens.list.map Token.kind = before ++ k :: after ∧ ClosesOutermost before k after := by
  obtain ⟨⟨_, u⟩, hrun, rfl⟩ := map_eq_ok_iff.1 h
  obtain ⟨t, v, hnext, hrun⟩ := run_bind_eq_ok_iff.1 hrun
  split at hrun
  . next ht =>
    obtain ⟨sections, w, hsections, hrun⟩ := run_bind_eq_ok_iff.1 hrun
    obtain ⟨_, x, hfinish, hrun⟩ := run_bind_eq_ok_iff.1 hrun
    obtain ⟨inner, hinner, hu⟩ := level_sections hnext ht hsections
    obtain ⟨before, after, hlist, hopened, hunclosed, hclosed, hafter⟩ := exists_closing hinner hu
    refine ⟨before, _, after, hlist, rfl, hopened, hunclosed, hclosed, ?_⟩
    rw [whole_of_finish hfinish, ← List.append_nil (x.comments.map _), otherKinds_comments] at hafter
    intro k hk
    by_contra hcomment
    have hmem : k ∈ otherKinds after := List.mem_filter.2 ⟨hk, by simpa using hcomment⟩
    rw [hafter] at hmem
    cases hmem
  . cases hrun

theorem ClosesOutermost.not_unclosed {before after : List Kind} {k : Kind} (h : ClosesOutermost before k after) :
    ¬Unclosed (before ++ k :: after) := fun hunclosed =>
  hunclosed (before ++ [k]) ⟨after, by simp⟩ (List.mem_append_left _ h.opened) h.closed

end LexiconAudit.Fixture
