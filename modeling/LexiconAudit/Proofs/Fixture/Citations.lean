import LexiconAudit.Proofs.Fixture.Marking
import LexiconAudit.Proofs.Fixture.Nesting
import LexiconAudit.Proofs.Fixture.References

/-!
This module contains what the notes of a fixture are about, as it stands among its tokens: the text that the last
`ref` of each note gives. The elements that are read have these texts in their references, in the order of the
notes.
-/

namespace LexiconAudit.Fixture

open Grammar Reading
open Reader hiding lexicon notes object sense entry note reply message senses fixture

variable {α : Type}

/-! References among tokens. -/

/--
The text behind this colon, if it is the one of a `ref` that belongs to a note.
-/
def citedAt : List Frame → Kind → List Kind → Option String
  | .object .note (some name) :: _, .colon, .string target :: _ =>
    if Property.ofName? name = some .ref then some target else none
  | _, _, _ => none

def opensNote (frames : List Frame) (k : Kind) : Bool :=
  k = .leftBrace && objectScope frames = .note

def closesNote : List Frame → Kind → Bool
  | .object .note _ :: _, .rightBrace | .object .note _ :: _, .rightBracket => true
  | _, _ => false

/--
The last text that is cited up to the end of the note that is open, and that of each note that opens in these
tokens.
-/
def citations (frames : List Frame) : List Kind → Option String × List (Option String)
  | [] => (none, [])
  | k :: ks =>
    let rest := citations (advance frames k) ks
    if opensNote frames k then
      (none, rest.1 :: rest.2)
    else if closesNote frames k then
      (none, rest.2)
    else
      (rest.1.or (citedAt frames k ks), rest.2)

/--
The text of the last `ref` of each note among the tokens of a fixture, in order; `none` for a note without one.
-/
def noteTargets (ks : List Kind) : List (Option String) :=
  (citations [] (otherKinds ks)).2

section Citations

variable {frames : List Frame} {k : Kind}

theorem citations_of_opens (hopens : opensNote frames k = true) (ks : List Kind) :
    citations frames (k :: ks) =
      (none, (citations (advance frames k) ks).1 :: (citations (advance frames k) ks).2) := by
  simp only [citations, if_pos hopens]

theorem citations_of_closes (hopens : opensNote frames k = false) (hcloses : closesNote frames k = true)
    (ks : List Kind) : citations frames (k :: ks) = (none, (citations (advance frames k) ks).2) := by
  simp [citations, hopens, hcloses]

theorem closesNote_of_ne (hk : ¬k.closes) : closesNote frames k = false := by
  unfold closesNote
  split
  . exact absurd (.inl rfl) hk
  . exact absurd (.inr rfl) hk
  . rfl

theorem citedAt_of_ne (hk : k ≠ .colon) (ks : List Kind) : citedAt frames k ks = none := by
  unfold citedAt
  split
  . exact absurd rfl hk
  . rfl

theorem citations_cons (hopens : opensNote frames k = false) (hcloses : closesNote frames k = false)
    {ks : List Kind} (hcited : citedAt frames k ks = none) :
    citations frames (k :: ks) = citations (advance frames k) ks := by
  simp [citations, hopens, hcloses, hcited]

theorem citations_cons_of_ne (hbrace : k ≠ .leftBrace) (hcloses : ¬k.closes) (hcolon : k ≠ .colon)
    (ks : List Kind) : citations frames (k :: ks) = citations (advance frames k) ks :=
  citations_cons (by simp [opensNote, hbrace]) (closesNote_of_ne hcloses) (citedAt_of_ne hcolon ks)

end Citations

/-! Values in which there are no notes. -/

def Grammar.Scope.isNoteless : Scope → Bool
  | entry | sense | other => true
  | part | note => false

def Frame.isNoteless : Frame → Bool
  | object scope _ => scope.isNoteless
  | list items => items.isNoteless

section Frame

variable {frame : Frame} (h : frame.isNoteless = true) (frames : List Frame)

include h

theorem isNoteless_scopes :
    (objectScope (frame :: frames)).isNoteless = true ∧ (listScope (frame :: frames)).isNoteless = true := by
  cases frame with
  | list items => exact ⟨h, rfl⟩
  | object scope name =>
    refine ⟨rfl, ?_⟩
    cases name with
    | none => rfl
    | some name =>
      cases scope with
      | part | note => cases h
      | sense | other => rfl
      | entry =>
        simp only [listScope]
        split <;> simp_all [Scope.isNoteless]

theorem citations_cons_of_isNoteless {k : Kind} (hk : k ≠ .leftBrace) (ks : List Kind) :
    citations (frame :: frames) (k :: ks) = citations (advance (frame :: frames) k) ks := by
  apply citations_cons
  . simp [opensNote, hk]
  . obtain ⟨scope, _⟩ | items := frame
    . cases scope <;> first | rfl | cases h
    . rfl
  . obtain ⟨scope, _⟩ | items := frame
    . cases scope <;> first | rfl | cases h
    . rfl

end Frame

section Nested

variable {base : List Frame} (hobject : (objectScope base).isNoteless = true)
  (hlist : (listScope base).isNoteless = true) (hplain : ∀ k : Kind, k.isPlain = true → advance base k = base)

include hobject hlist hplain

theorem upholds_isNoteless : Upholds (·.isNoteless = true) base where
  object := hobject
  list := hlist
  inside _ frames h := isNoteless_scopes h frames
  named _ _ _ h := h
  plain := hplain

theorem citations_shifts {k : Kind} {d e : Nat} (hk : Shifts d k e) {inner : List Frame} (hd : inner.length = d)
    (hinner : ∀ frame ∈ inner, frame.isNoteless = true) (ks : List Kind) :
    citations (inner ++ base) (k :: ks) = citations (advance (inner ++ base) k) ks := by
  have hinside {d : Nat} (hd : inner.length = d + 1) (hk : k ≠ .leftBrace) :
      citations (inner ++ base) (k :: ks) = citations (advance (inner ++ base) k) ks := by
    obtain ⟨frame, inner, rfl⟩ := List.exists_cons_of_length_eq_add_one hd
    exact citations_cons_of_isNoteless (hinner frame List.mem_cons_self) _ hk ks
  cases hk with
  | opening hk =>
    rcases hk with rfl | rfl
    . have hopens : opensNote (inner ++ base) .leftBrace = false := by
        simp only [opensNote, decide_true, Bool.true_and, decide_eq_false_iff_not]
        intro hnote
        have hobject' := ((upholds_isNoteless hobject hlist hplain).opened hinner).1
        rw [hnote] at hobject'
        cases hobject'
      exact citations_cons hopens (closesNote_of_ne (by simp [Kind.closes])) (citedAt_of_ne (by simp) ks)
    . exact citations_cons_of_ne (by simp) (by simp [Kind.closes]) (by simp) ks
  | closing hk => exact hinside hd (by rcases hk with rfl | rfl <;> simp)
  | plain hk =>
    apply citations_cons_of_ne
    all_goals
      cases k <;> simp [Kind.closes, Kind.isPlain] at hk ⊢
  | joining hk =>
    refine hinside hd ?_
    rintro rfl
    cases hk

theorem citations_nested {ks : List Kind} {d e : Nat} (h : Nested d ks e) {inner : List Frame}
    (hd : inner.length = d) (hinner : ∀ frame ∈ inner, frame.isNoteless = true) :
    ∃ inner', inner'.length = e ∧
      ∀ rest, citations (inner ++ base) (ks ++ rest) = citations (inner' ++ base) rest := by
  induction h generalizing inner with
  | nil => exact ⟨inner, hd, fun _ => rfl⟩
  | cons hk _ ih =>
    obtain ⟨inner', hd', hinner', hadvance⟩ := (upholds_isNoteless hobject hlist hplain).advance hk hd hinner
    obtain ⟨inner'', hlength, hks⟩ := ih hd' hinner'
    refine ⟨inner'', hlength, fun rest => ?_⟩
    rw [List.cons_append, citations_shifts hobject hlist hplain hk hd hinner, hadvance, hks]

theorem citations_of_spans {r : Reader α} (h : Spans r 0 0) {u v : Unread} {a : α} (hrun : r.run u = .ok (a, v)) :
    citations base (otherKinds u.whole) = citations base (otherKinds v.whole) := by
  obtain ⟨ks, hks, hu⟩ := h hrun
  have hempty : ([] : List Frame).length = 0 := rfl
  obtain ⟨inner, hlength, heq⟩ := citations_nested hobject hlist hplain hks hempty nofun
  cases List.eq_nil_of_length_eq_zero hlength
  rw [hu]
  exact heq _

end Nested

/-! Notes. -/

def reckon (made : Option String) (frames : List Frame) (ks : List Kind) : Option String × List (Option String) :=
  (((citations frames ks).1.map (Node.labelMark ++ ·)).or made, (citations frames ks).2)

def Reckons (made : α → Option String) (total : Option String × List (Option String)) (a : α) (frames : List Frame)
    (ks : List Kind) : Prop :=
  reckon (made a) frames (otherKinds ks) = total

theorem otherKinds_cons {k : Kind} (hk : k.isComment = false) (bodies : List String) (ks : List Kind) :
    otherKinds (bodies.map .comment ++ k :: ks) = k :: otherKinds ks := by
  rw [otherKinds_comments]
  simp [otherKinds, hk]

theorem isComment_of_quiet {frames : List Frame} {k : Kind} (hk : quiet frames k = true) : k.isComment = false := by
  cases k <;> first | rfl | cases hk

theorem citations_of_quiet {frames : List Frame} {k : Kind} (hk : quiet frames k = true) (ks : List Kind) :
    citations frames (k :: ks) = citations (advance frames k) ks := by
  apply citations_cons
  . cases k <;> first | rfl | cases hk
  . unfold closesNote
    split
    . cases hk
    . cases hk
    . rfl
  . exact citedAt_of_ne (by rintro rfl; cases hk) ks

theorem keptByQuiet_reckons (made : α → Option String) (total : Option String × List (Option String)) :
    KeptByQuiet (Reckons made total) := by
  intro a frames k bodies ks hk h
  unfold Reckons reckon at *
  rw [otherKinds_cons (isComment_of_quiet hk), citations_of_quiet hk] at h
  rw [otherKinds_comments]
  exact h

section Note

variable {outer : List Frame} {name : String} {p : Property} (hp : Property.ofName? name = some p)

include hp

theorem reckon_colon (hne : p ≠ .ref) (made : Option String) (ks : List Kind) :
    reckon made (.object .note (some name) :: outer) (.colon :: ks) =
      reckon made (.object .note (some name) :: outer) ks := by
  have hcited : citedAt (.object .note (some name) :: outer) .colon ks = none := by
    unfold citedAt
    split
    . simp_all
    . rfl
  unfold reckon
  rw [citations_cons rfl rfl hcited]
  rfl

theorem reckon_reference (href : p = .ref) (made : Option String) (target : String) (ks : List Kind) :
    reckon made (.object .note (some name) :: outer) (.colon :: .string target :: ks) =
      reckon (some (Node.labelMark ++ target)) (.object .note (some name) :: outer) ks := by
  have hcited : citedAt (.object .note (some name) :: outer) .colon (.string target :: ks) = some target := by
    simp only [citedAt]
    rw [if_pos (hp.trans (congrArg some href))]
  have hcons : citations (.object .note (some name) :: outer) (.string target :: ks) =
      citations (.object .note (some name) :: outer) ks :=
    citations_of_quiet rfl ks
  unfold reckon
  rw [citations, if_neg (by simp [opensNote]), if_neg (by simp [closesNote]), hcited]
  dsimp only [advance]
  rw [hcons, Option.map_or, Option.or_assoc]
  rfl

omit hp in
theorem reckon_of_spans {r : Reader α} (hr : Spans r 0 0) {u v : Unread} {a : α} (hrun : r.run u = .ok (a, v))
    (made : Option String) :
    reckon made (.object .note (some name) :: outer) (otherKinds u.whole) =
      reckon made (.object .note (some name) :: outer) (otherKinds v.whole) := by
  unfold reckon
  rw [citations_of_spans rfl rfl advance_of_isPlain hr hrun]

end Note

theorem keptByNoteProperty_reckons (outer : List Frame) (total : Option String × List (Option String)) :
    KeptByProperty (Reckons (fun draft => draft.node.attribute? Node.referenceKey) total) .note outer
      Reader.note.property := by
  intro name p read draft draft' u v hp hread hrun h
  unfold Reckons at *
  rw [otherKinds_cons rfl] at h
  cases p <;> cases hread
  all_goals
    obtain ⟨_, w, htake, hrun⟩ := run_bind_eq_ok_iff.1 hrun
    cases htake
  case ref =>
    obtain ⟨target, _, htarget, hrun⟩ := run_bind_eq_ok_iff.1 hrun
    cases hrun
    have htaken := (Taken.expectString htarget (.nil v)).otherKinds_eq
    rw [Unread.whole_taken] at htaken
    rw [← h, htaken, List.singleton_append, reckon_reference hp rfl]
    dsimp only
    rw [attribute?_setAttribute_self]
  all_goals
    rw [← h, reckon_colon hp (by decide), ← Unread.whole_taken]
  case noteClass =>
    obtain ⟨_, _, hvalue, hrun⟩ := run_bind_eq_ok_iff.1 hrun
    cases hrun
    rw [reckon_of_spans spans_expectString hvalue]
    dsimp only
    rw [attribute?_setAttribute_of_ne (by decide)]
  case message =>
    obtain ⟨_, _, hvalue, hrun⟩ := run_bind_eq_ok_iff.1 hrun
    cases hrun
    rw [reckon_of_spans spans_message hvalue]
  all_goals
    rw [reckon_of_spans spans_replies hrun]
    obtain ⟨_, w, hbracket, hrun⟩ := run_bind_eq_ok_iff.1 hrun
    obtain ⟨_, _, hvalue, hrun⟩ := run_bind_eq_ok_iff.1 hrun
    cases hrun
    rfl

theorem exists_target_of_note (outer : List Frame) {u v : Unread} {node : Node}
    (h : Reader.note.run u = .ok (node, v)) :
    ∃ target : Option String, node.attribute? Node.referenceKey = target.map (Node.labelMark ++ ·) ∧
      (citations (.list .note :: outer) (otherKinds u.whole)).2 =
        target :: (citations (.list .note :: outer) (otherKinds v.whole)).2 := by
  obtain ⟨_, w, hbrace, h⟩ := run_bind_eq_ok_iff.1 h
  obtain ⟨draft, x, hobject, h⟩ := run_bind_eq_ok_iff.1 h
  obtain ⟨_, _, htake, h⟩ := run_bind_eq_ok_iff.1 h
  cases htake
  cases h
  obtain ⟨name, hclose⟩ := object_keep (keptByQuiet_reckons _ _)
    (keptByNoteProperty_reckons (.list .note :: outer) _) hobject rfl
  unfold Reckons reckon at hclose
  rw [otherKinds_cons rfl, citations_of_closes rfl rfl] at hclose
  refine ⟨(citations (.object .note none :: .list .note :: outer) (otherKinds w.whole)).1, ?_, ?_⟩
  . exact (congrArg Prod.fst hclose).trans (Option.or_none)
  . rw [(Taken.expect hbrace (.nil w)).otherKinds_eq, List.singleton_append, citations_of_opens rfl]
    exact congrArg _ (congrArg Prod.snd hclose).symm

/-! Sections. -/

def references (nodes : List Node) : List (Option String) :=
  nodes.map (Node.attribute? · Node.referenceKey)

def notesAmong (sections : List Node) : List Node :=
  (sections.filter fun part => part.name = Node.notesName).flatMap Node.children

theorem notesAmong_append (sections sections' : List Node) :
    notesAmong (sections ++ sections') = notesAmong sections ++ notesAmong sections' := by
  simp [notesAmong]

def Cites (total : List (Option String)) (nodes : List Node) (frames : List Frame) (ks : List Kind) : Prop :=
  references nodes ++ (citations frames (otherKinds ks)).2.map (Option.map (Node.labelMark ++ ·)) = total

section Sections

variable {total : List (Option String)} {nodes : List Node} {frames : List Frame}

theorem cites_comments {bodies : List String} {ks : List Kind} :
    Cites total nodes frames (bodies.map .comment ++ ks) ↔ Cites total nodes frames ks := by
  simp only [Cites, otherKinds_comments]

theorem cites_step {k : Kind} (hcomment : k.isComment = false)
    (hk : ∀ ks, citations frames (k :: ks) = citations (advance frames k) ks) {bodies : List String}
    {ks : List Kind} :
    Cites total nodes frames (bodies.map .comment ++ k :: ks) ↔ Cites total nodes (advance frames k) ks := by
  unfold Cites
  rw [otherKinds_cons hcomment, hk]

theorem keptByQuiet_cites (total : List (Option String)) (nodes : α → List Node) :
    KeptByQuiet fun a frames ks => Cites total (nodes a) frames ks := by
  intro a frames k bodies ks hk h
  exact cites_comments.2 ((cites_step (isComment_of_quiet hk) (citations_of_quiet hk)).1 h)

theorem cites_of_notes (hscope : listScope frames = .note) {u v : Unread} {node : Node}
    (h : Reader.notes.run u = .ok (node, v)) (hcites : Cites total nodes frames u.whole) :
    Cites total (nodes ++ notesAmong [node]) frames v.whole := by
  obtain ⟨_, w, hbracket, h⟩ := run_bind_eq_ok_iff.1 h
  obtain ⟨children, x, hitems, h⟩ := run_bind_eq_ok_iff.1 h
  obtain ⟨_, _, hdrop, h⟩ := run_bind_eq_ok_iff.1 h
  cases hdrop
  cases h
  rw [(whole_of_expect hbracket).2.2, cites_step rfl (citations_of_quiet rfl), advance, hscope] at hcites
  have hopen : Cites total (nodes ++ []) (.list .note :: frames) w.whole := by
    rw [List.append_nil]
    exact cites_comments.2 hcites
  have hclose := items_keep (keptByQuiet_cites total fun children => nodes ++ children)
    (fun {children node u v _ _} _ _ hrun h => ?_) hitems hopen
  . have hamong : notesAmong [container Node.notesName children] = children := by
      simp [notesAmong, container]
    rw [hamong, Unread.whole_taken]
    exact cites_comments.1 hclose
  obtain ⟨_, _, hdrop, hrun⟩ := run_bind_eq_ok_iff.1 hrun
  cases hdrop
  obtain ⟨target, htarget, hcitations⟩ := exists_target_of_note frames hrun
  rw [Unread.whole_taken] at hcitations
  rw [Unread.whole, cites_comments] at h
  unfold Cites references at *
  rw [← h, hcitations]
  simp [htarget]

theorem cites_of_lexicon {name : String} (hname : Property.ofName? name = some .lexicon) {outer : List Frame}
    {u v : Unread} {node : Node} (h : Reader.lexicon.run u = .ok (node, v))
    (hcites : Cites total nodes (.object .part (some name) :: outer) u.whole) :
    Cites total (nodes ++ notesAmong [node]) (.object .part (some name) :: outer) v.whole := by
  have hlist : (listScope (.object .part (some name) :: outer)).isNoteless = true := by
    simp [listScope, hname, Grammar.Scope.isNoteless]
  have hcitations := citations_of_spans rfl hlist advance_of_isPlain spans_lexicon h
  have hnone : notesAmong [node] = [] := by
    obtain ⟨_, _, -, h⟩ := run_bind_eq_ok_iff.1 h
    obtain ⟨_, _, -, h⟩ := run_bind_eq_ok_iff.1 h
    obtain ⟨_, _, -, h⟩ := run_bind_eq_ok_iff.1 h
    cases h
    rfl
  rw [hnone, List.append_nil]
  unfold Cites at *
  rw [← hcitations]
  exact hcites

theorem keptBySectionProperty_cites (outer : List Frame) (total : List (Option String)) :
    KeptByProperty (fun sections frames ks => Cites total (notesAmong sections) frames ks) .part outer
      Reader.sectionObject.property := by
  intro name p read sections sections' u v hp hread hrun h
  -- a colon in a section says nothing about notes
  rw [cites_step rfl fun _ => citations_cons rfl rfl rfl] at h
  cases p <;> cases hread
  all_goals
    obtain ⟨_, _, hdrop, hrun⟩ := run_bind_eq_ok_iff.1 hrun
    cases hdrop
    obtain ⟨node, _, hnode, hrun⟩ := run_bind_eq_ok_iff.1 hrun
    cases hrun
    rw [notesAmong_append]
  . exact cites_of_lexicon hp hnode h
  . exact cites_of_notes (by simp [listScope, hp]) hnode h

theorem keptBySectionObject_cites (outer : List Frame) (total : List (Option String)) :
    KeptByItem (fun sections frames ks => Cites total (notesAmong sections) frames ks) (.list .part :: outer)
      sectionObject := by
  intro sections sections' u v _ _ _ _ hrun h
  obtain ⟨_, w, hbrace, hrun⟩ := run_bind_eq_ok_iff.1 hrun
  obtain ⟨_, x, hobject, hrun⟩ := run_bind_eq_ok_iff.1 hrun
  obtain ⟨_, _, hdrop, hrun⟩ := run_bind_eq_ok_iff.1 hrun
  cases hdrop
  cases hrun
  rw [(whole_of_expect hbrace).2.2, cites_step rfl fun _ => citations_cons rfl rfl rfl] at h
  obtain ⟨name, hclose⟩ := object_keep (keptByQuiet_cites total notesAmong) (keptBySectionProperty_cites _ total)
    hobject (cites_comments.2 h)
  exact (cites_step rfl fun _ => citations_cons rfl rfl rfl).1 hclose

end Sections

theorem references_of_ofTokens {tokens : Tokens} {tree : Node} (h : ofTokens tokens = .ok tree) :
    references (notesAmong tree.children) =
      (noteTargets (tokens.list.map Token.kind)).map (Option.map (Node.labelMark ++ ·)) := by
  obtain ⟨bodies, hcites⟩ := ofTokens_keep
    (keptByQuiet_cites ((noteTargets (tokens.list.map Token.kind)).map (Option.map (Node.labelMark ++ ·))) notesAmong)
    (keptBySectionObject_cites [] _) h rfl
  rw [← List.append_nil (bodies.map _), cites_comments] at hcites
  rw [← hcites]
  exact (List.append_nil _).symm

end LexiconAudit.Fixture
