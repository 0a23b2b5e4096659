import LexiconAudit.Proofs.Fixture.Hearing

/-!
This module contains that what a reader of values takes is nested: the tokens of a value close all brackets that
they open and no others, and names, colons and commas stand between brackets only. Comments do not count.
-/

namespace LexiconAudit.Fixture

open Reading
open Reader hiding lexicon notes object sense entry note reply message senses fixture

variable {α β : Type}

/-! Nested tokens. -/

def Kind.opens (k : Kind) : Prop :=
  k = .leftBrace ∨ k = .leftBracket

def Kind.closes (k : Kind) : Prop :=
  k = .rightBrace ∨ k = .rightBracket

def Kind.isPlain : Kind → Bool
  | .string _ | .number _ | .truth _ | .null => true
  | _ => false

def Kind.joins : Kind → Bool
  | .word _ | .colon | .comma => true
  | _ => false

theorem advance_of_isPlain {scope : Grammar.Scope} {name : String} {outer : List Frame} (k : Kind)
    (hk : k.isPlain = true) :
    advance (.object scope (some name) :: outer) k = .object scope (some name) :: outer := by
  cases k <;> first | rfl | cases hk

theorem advance_list_of_isPlain {items : Grammar.Scope} {outer : List Frame} (k : Kind) (hk : k.isPlain = true) :
    advance (.list items :: outer) k = .list items :: outer := by
  cases k <;> first | rfl | cases hk

/--
A token in front of which `d` brackets are open and behind which `e` are, apart from some that stay open.
-/
inductive Shifts : Nat → Kind → Nat → Prop where
  | opening {k : Kind} {d : Nat} : k.opens → Shifts d k (d + 1)
  | closing {k : Kind} {d : Nat} : k.closes → Shifts (d + 1) k d
  | plain {k : Kind} {d : Nat} : k.isPlain = true → Shifts d k d
  | joining {k : Kind} {d : Nat} : k.joins = true → Shifts (d + 1) k (d + 1)

inductive Nested : Nat → List Kind → Nat → Prop where
  | nil (d : Nat) : Nested d [] d
  | cons {k : Kind} {ks : List Kind} {d m e : Nat} : Shifts d k m → Nested m ks e → Nested d (k :: ks) e

theorem Nested.append {ks ks' : List Kind} {d e f : Nat} (h : Nested d ks e) (h' : Nested e ks' f) :
    Nested d (ks ++ ks') f := by
  induction h with
  | nil => exact h'
  | cons hk _ ih => exact .cons hk (ih h')

theorem Nested.succ {ks : List Kind} {d e : Nat} (h : Nested d ks e) : Nested (d + 1) ks (e + 1) := by
  induction h with
  | nil => exact .nil _
  | cons hk _ ih =>
    apply Nested.cons _ ih
    cases hk with
    | opening hk => exact .opening hk
    | closing hk => exact .closing hk
    | plain hk => exact .plain hk
    | joining hk => exact .joining hk

/-! Brackets that open on top of others. -/

/--
Whatever opens on top of `base` has the property, and values leave `base` as it is.
-/
structure Upholds (P : Frame → Prop) (base : List Frame) : Prop where
  object : P (.object (objectScope base) none)
  list : P (.list (listScope base))
  inside : ∀ frame frames, P frame →
    P (.object (objectScope (frame :: frames)) none) ∧ P (.list (listScope (frame :: frames)))
  named : ∀ scope name name', P (.object scope name) → P (.object scope name')
  plain : ∀ k : Kind, k.isPlain = true → advance base k = base

section Upholds

variable {P : Frame → Prop} {base : List Frame} (h : Upholds P base)

include h

theorem Upholds.opened {inner : List Frame} (hinner : ∀ frame ∈ inner, P frame) :
    P (.object (objectScope (inner ++ base)) none) ∧ P (.list (listScope (inner ++ base))) := by
  cases inner with
  | nil => exact ⟨h.object, h.list⟩
  | cons frame inner => exact h.inside frame _ (hinner frame List.mem_cons_self)

theorem Upholds.exists_advance {frame : Frame} (hframe : P frame) {k : Kind}
    (hk : k.isPlain = true ∨ k.joins = true) (frames : List Frame) :
    ∃ frame', P frame' ∧ advance (frame :: frames) k = frame' :: frames := by
  obtain ⟨scope, _ | name⟩ | items := frame
  all_goals
    cases k <;> simp only [Kind.isPlain, Kind.joins, Bool.false_eq_true, or_self] at hk
    all_goals
      refine ⟨_, ?_, rfl⟩
      first | exact hframe | exact h.named _ _ _ hframe

theorem Upholds.advance {k : Kind} {d e : Nat} (hk : Shifts d k e) {inner : List Frame} (hd : inner.length = d)
    (hinner : ∀ frame ∈ inner, P frame) :
    ∃ inner', inner'.length = e ∧ (∀ frame ∈ inner', P frame) ∧
      Fixture.advance (inner ++ base) k = inner' ++ base := by
  cases hk with
  | opening hk =>
    have hopened := h.opened hinner
    rcases hk with rfl | rfl
    . exact ⟨_ :: inner, congrArg Nat.succ hd, List.forall_mem_cons.2 ⟨hopened.1, hinner⟩, rfl⟩
    . exact ⟨_ :: inner, congrArg Nat.succ hd, List.forall_mem_cons.2 ⟨hopened.2, hinner⟩, rfl⟩
  | closing hk =>
    obtain ⟨frame, inner, rfl⟩ := List.exists_cons_of_length_eq_add_one hd
    rw [List.forall_mem_cons] at hinner
    refine ⟨inner, Nat.succ.inj hd, hinner.2, ?_⟩
    rcases hk with rfl | rfl
    . rfl
    . rfl
  | plain hk =>
    cases inner with
    | nil => exact ⟨[], hd, hinner, h.plain k hk⟩
    | cons frame inner =>
      rw [List.forall_mem_cons] at hinner
      obtain ⟨frame', hframe', hadvance⟩ := h.exists_advance hinner.1 (.inl hk) (inner ++ base)
      exact ⟨frame' :: inner, hd, List.forall_mem_cons.2 ⟨hframe', hinner.2⟩, hadvance⟩
  | joining hk =>
    obtain ⟨frame, inner, rfl⟩ := List.exists_cons_of_length_eq_add_one hd
    rw [List.forall_mem_cons] at hinner
    obtain ⟨frame', hframe', hadvance⟩ := h.exists_advance hinner.1 (.inr hk) (inner ++ base)
    exact ⟨frame' :: inner, hd, List.forall_mem_cons.2 ⟨hframe', hinner.2⟩, hadvance⟩

theorem Upholds.foldl_advance {ks : List Kind} {d e : Nat} (hks : Nested d ks e) {inner : List Frame}
    (hd : inner.length = d) (hinner : ∀ frame ∈ inner, P frame) :
    ∃ inner', inner'.length = e ∧ (∀ frame ∈ inner', P frame) ∧
      ks.foldl Fixture.advance (inner ++ base) = inner' ++ base := by
  induction hks generalizing inner with
  | nil => exact ⟨inner, hd, hinner, rfl⟩
  | cons hk _ ih =>
    obtain ⟨inner', hd', hinner', hadvance⟩ := h.advance hk hd hinner
    rw [List.foldl_cons, hadvance]
    exact ih hd' hinner'

end Upholds

theorem Nested.foldl_advance_eq {ks : List Kind} (h : Nested 0 ks 0) {base : List Frame}
    (hplain : ∀ k : Kind, k.isPlain = true → advance base k = base) : ks.foldl advance base = base := by
  have hbase : Upholds (fun _ => True) base :=
    ⟨trivial, trivial, fun _ _ _ => ⟨trivial, trivial⟩, fun _ _ _ _ => trivial, hplain⟩
  have hempty : ([] : List Frame).length = 0 := rfl
  obtain ⟨inner, hlength, -, heq⟩ := hbase.foldl_advance h hempty nofun
  cases List.eq_nil_of_length_eq_zero hlength
  exact heq

/-! Readers that take nested tokens. -/

/--
What this reader takes, apart from comments, leads from `d` open brackets to as many as `e` tells of its answer.
-/
def SpansTo (r : Reader α) (d : Nat) (e : α → Nat) : Prop :=
  ∀ ⦃u a v⦄, r.run u = .ok (a, v) → ∃ ks, Nested d ks (e a) ∧ otherKinds u.whole = ks ++ otherKinds v.whole

abbrev Spans (r : Reader α) (d e : Nat) : Prop :=
  SpansTo r d fun _ => e

section Spans

variable {d e m : Nat}

theorem SpansTo.pure {f : α → Nat} {a : α} (ha : f a = d) : SpansTo (pure a) d f := by
  intro u b v h
  cases h
  exact ⟨[], ha ▸ .nil _, rfl⟩

theorem SpansTo.fail {f : α → Nat} (e' : Rejection) : SpansTo (fail e' : Reader α) d f := by
  intro u a v h
  cases h

theorem SpansTo.bind {r : Reader α} {s : α → Reader β} {f : β → Nat} (hr : Spans r d m)
    (hs : ∀ a, SpansTo (s a) m f) : SpansTo (r >>= s) d f := by
  intro u b w h
  obtain ⟨a, v, hrun, h⟩ := run_bind_eq_ok_iff.1 h
  obtain ⟨ks, hks, hu⟩ := hr hrun
  obtain ⟨ks', hks', hv⟩ := hs a h
  refine ⟨ks ++ ks', hks.append hks', ?_⟩
  rw [hu, hv, List.append_assoc]

theorem Spans.succ {r : Reader α} (h : Spans r d e) : Spans r (d + 1) (e + 1) := by
  intro u a v hrun
  obtain ⟨ks, hks, hu⟩ := h hrun
  exact ⟨ks, hks.succ, hu⟩

theorem Spans.of_taken {r : Reader α} (h : ∀ {u a v}, r.run u = .ok (a, v) → ∃ ks, Nested d ks e ∧ Taken u ks v) :
    Spans r d e := by
  intro u a v hrun
  obtain ⟨ks, hks, htaken⟩ := h hrun
  exact ⟨ks, hks, htaken.otherKinds_eq⟩

theorem spans_expect {k : Kind} {wanted : String} (hk : Shifts d k e) : Spans (expect k wanted) d e :=
  .of_taken fun h => ⟨[k], .cons hk (.nil e), .expect h (.nil _)⟩

theorem spans_expectString {owner : String} : Spans (expectString owner) d d :=
  .of_taken fun h => ⟨[_], .cons (.plain rfl) (.nil d), .expectString h (.nil _)⟩

theorem spans_takeComments : Spans takeComments d d := by
  intro u a v h
  cases h
  refine ⟨[], .nil d, ?_⟩
  rw [Unread.whole_taken, Unread.whole, otherKinds_comments]
  rfl

theorem spans_takeMarkers : Spans takeMarkers d d :=
  spans_takeComments.bind fun _ => .pure rfl

theorem spans_dropComments : Spans dropComments d d :=
  spans_takeComments.bind fun _ => .pure rfl

def SpansBehind (k : Kind) (r : Reader α) (d : Nat) (e : α → Nat) : Prop :=
  ∀ ⦃u a v⦄, r.run u = .ok (a, v) → ∃ ks, Nested d (k :: ks) (e a) ∧ otherKinds u.whole = ks ++ otherKinds v.whole

theorem SpansBehind.fail {k : Kind} {f : α → Nat} {e' : Rejection} : SpansBehind k (fail e' : Reader α) d f := by
  intro u a v h
  cases h

theorem SpansTo.behind {r : Reader α} {k : Kind} {f : α → Nat} (h : SpansTo r m f) (hk : Shifts d k m) :
    SpansBehind k r d f := by
  intro u a v hrun
  obtain ⟨ks, hks, hu⟩ := h hrun
  exact ⟨ks, .cons hk hks, hu⟩

theorem SpansTo.next {atEnd : Fault} {s : Token → Reader β} {f : β → Nat}
    (hs : ∀ t, SpansBehind t.kind (s t) d f) : SpansTo (next atEnd >>= s) d f := by
  intro u b w h
  obtain ⟨t, v, hnext, h⟩ := run_bind_eq_ok_iff.1 h
  obtain ⟨ks, hks, hv⟩ := hs t h
  refine ⟨t.kind :: ks, hks, ?_⟩
  rw [(Taken.next hnext (.nil v)).otherKinds_eq, hv]
  rfl

def roundDepth (d e : Nat) : Round α β → Nat
  | .again _ => d
  | .done _ => e

theorem spans_loop {step : α → Reader (Round α β)} {advances : ∀ a, (step a).Advances}
    (hstep : ∀ a, SpansTo (step a) d (roundDepth d e)) (a : α) : Spans (loop step advances a) d e := by
  intro u b v hrun
  refine loop_induction (P := fun _ u _ v => ∃ ks, Nested d ks e ∧ otherKinds u.whole = ks ++ otherKinds v.whole)
    ?_ ?_ hrun
  . intro a u b v h
    exact hstep a h
  . intro a u a' v b w h ⟨ks', hks', hv⟩
    obtain ⟨ks, hks, hu⟩ := hstep a h
    refine ⟨ks ++ ks', hks.append hks', ?_⟩
    rw [hu, hv, List.append_assoc]

end Spans

/-! Objects and lists. -/

theorem spans_members {member : Key → α → Reader α} (hmember : ∀ key a, Spans (member key a) 0 0) (a : α) :
    Spans (members member a) 1 0 := by
  refine spans_loop (fun a => ?_) a
  unfold membersRound
  refine SpansTo.next fun token => ?_
  split
  case h_1 hk =>
    rw [hk]
    exact (SpansTo.pure rfl).behind (.closing (.inl rfl))
  case h_4 => exact .fail
  all_goals
    next name hk =>
    -- the name has been taken inside the brace
    refine SpansTo.behind (m := 1) ?_ (by rw [hk]; first | exact .plain rfl | exact .joining rfl)
    refine (spans_expect (.joining rfl)).bind fun _ => ?_
    refine (hmember _ a).succ.bind fun a => ?_
    refine SpansTo.next fun token => ?_
    split
    case h_1 hk =>
      rw [hk]
      exact (SpansTo.pure rfl).behind (.joining rfl)
    case h_2 hk =>
      rw [hk]
      exact (SpansTo.pure rfl).behind (.closing (.inl rfl))
    case h_3 => exact .fail

theorem spans_object {place : Place} {property : Property → Option (α → Reader α)}
    (hproperty : ∀ {p read}, property p = some read → ∀ a, Spans (read a) 0 0) (a : α) :
    Spans (Reader.object place property a) 1 0 := by
  refine spans_members (fun key a => ?_) a
  split
  . exact .fail _
  . split
    . exact .fail _
    . next read hread => exact hproperty hread a

theorem spans_item {item : α → Reader α} (hitem : ∀ a, Spans (item a) 0 0) (a : α) :
    SpansTo (do
      let a ← item a
      let token ← next
      match token.kind with
      | .comma => return Round.again a
      | .rightBracket => return Round.done a
      | _ => unexpected "',' or ']'" token) 1 (roundDepth (β := α) 1 0) := by
  refine (hitem a).succ.bind fun a => ?_
  refine SpansTo.next fun token => ?_
  split
  case h_1 hk =>
    rw [hk]
    exact (SpansTo.pure rfl).behind (.joining rfl)
  case h_2 hk =>
    rw [hk]
    exact (SpansTo.pure rfl).behind (.closing (.inr rfl))
  case h_3 => exact .fail

theorem spans_foldItems {item : α → Reader α} (hitem : ∀ a, Spans (item a) 0 0) (a : α) :
    Spans (foldItems item a) 1 0 := by
  refine spans_loop (fun a u round v h => ?_) a
  -- what is looked at is the token that is taken then
  obtain ⟨token, w, hfront, h⟩ := run_bind_eq_ok_iff.1 h
  obtain ⟨hwhole, hcomment, ts, hts⟩ := whole_of_front hfront
  rw [← hwhole]
  split at h
  . next hk =>
    obtain ⟨bracket, x, hnext, h⟩ := run_bind_eq_ok_iff.1 h
    cases h
    refine ⟨[bracket.kind], ?_, (Taken.next hnext (.nil _)).otherKinds_eq⟩
    rw [(eq_of_next hts hcomment hnext).1, hk]
    exact .cons (.closing (.inr rfl)) (.nil 0)
  . exact spans_item hitem a h

theorem spans_items {item : Reader α} (hitem : Spans item 0 0) : Spans (items item) 1 0 :=
  spans_foldItems (fun _ => hitem.bind fun _ => .pure rfl) _

theorem spans_bracketed {k : Kind} {wanted : String} {r : Token → Reader α} (hk : k.opens)
    (hr : ∀ bracket, Spans (r bracket) 1 0) : Spans (expect k wanted >>= r) 0 0 :=
  (spans_expect (.opening hk)).bind hr

/-! Values. -/

theorem spans_writingSystemValue : Spans writingSystemValue 0 0 := by
  refine Spans.of_taken fun {u a v} h => ?_
  obtain ⟨system, value⟩ := a
  obtain ⟨k, k', hk, hk', htaken⟩ := taken_writingSystemValue h
  refine ⟨_, ?_, htaken⟩
  have hname {d : Nat} {k : Kind} {name : String} (hk : k = .string name ∨ k = .word name) :
      Shifts (d + 1) k (d + 1) := by
    rcases hk with rfl | rfl
    . exact .plain rfl
    . exact .joining rfl
  refine .cons (.opening (.inl rfl)) (.cons (hname hk) (.cons (.joining rfl) ?_))
  refine .cons (.opening (.inl rfl)) (.cons (hname hk') (.cons (.joining rfl) ?_))
  exact .cons (.plain rfl) (.cons (.closing (.inl rfl)) (.cons (.closing (.inl rfl)) (.nil 0)))

theorem spans_skipWithin (depth : Nat) : Spans (skipWithin depth) 0 0 := by
  induction depth with
  | zero => exact SpansTo.next fun _ => .fail
  | succ depth ih =>
    refine SpansTo.next fun token => ?_
    split
    case h_1 hk =>
      rw [hk]
      exact (spans_members (fun _ _ => ih) ()).behind (.opening (.inl rfl))
    case h_2 hk =>
      rw [hk]
      exact (spans_foldItems (fun _ => ih) ()).behind (.opening (.inr rfl))
    case h_7 => exact .fail
    all_goals
      next hk =>
      rw [hk]
      exact (SpansTo.pure rfl).behind (.plain rfl)

theorem spans_skip : Spans skip 0 0 :=
  fun _ _ _ h => spans_skipWithin _ h

theorem spans_sense : Spans Reader.sense 0 0 := by
  refine spans_bracketed (.inl rfl) fun _ => ?_
  refine (spans_object (fun {p read} hread children => ?_) []).bind fun _ => spans_takeMarkers.bind fun _ => .pure rfl
  cases p <;> cases hread
  . exact spans_takeMarkers.bind fun _ => spans_writingSystemValue.bind fun _ => .pure rfl
  . exact spans_takeMarkers.bind fun _ => spans_writingSystemValue.bind fun _ => .pure rfl
  . exact spans_takeMarkers.bind fun _ => spans_skip.bind fun _ => .pure rfl

theorem spans_senses : Spans Reader.senses 0 0 := by
  refine spans_bracketed (.inr rfl) fun _ => ?_
  refine (spans_items spans_sense).bind fun _ => spans_takeMarkers.bind fun _ => ?_
  split
  . exact .pure rfl
  . exact .fail _

theorem spans_entry : Spans Reader.entry 0 0 := by
  refine spans_bracketed (.inl rfl) fun _ => ?_
  refine (spans_object (fun {p read} hread draft => ?_) ({} : EntryDraft)).bind fun _ =>
    spans_takeMarkers.bind fun _ => ?_
  . cases p <;> cases hread
    . exact spans_takeMarkers.bind fun _ => spans_writingSystemValue.bind fun _ => .pure rfl
    . exact spans_takeMarkers.bind fun _ => spans_senses.bind fun _ => .pure rfl
  . split
    . exact .pure rfl
    . exact .fail _

theorem spans_lexicon : Spans Reader.lexicon 0 0 := by
  refine spans_bracketed (.inr rfl) fun _ => ?_
  exact (spans_items (spans_dropComments.bind fun _ => spans_entry)).bind fun _ =>
    spans_dropComments.bind fun _ => .pure rfl

theorem spans_messageProperty {p : Property} {read : Message → Reader Message} (hread : messageProperty p = some read)
    (m : Message) : Spans (read m) 0 0 := by
  cases p <;> cases hread
  . exact spans_expectString.bind fun _ => .pure rfl
  . exact spans_expectString.bind fun _ => .pure rfl

theorem spans_message : Spans Reader.message 0 0 := by
  refine spans_bracketed (.inl rfl) fun _ => ?_
  exact (spans_object (fun hread m => spans_messageProperty hread m) {}).bind fun _ =>
    spans_dropComments.bind fun _ => .pure rfl

theorem spans_reply_property {p : Property} {read : ReplyDraft → Reader ReplyDraft}
    (hread : Reader.reply.property p = some read) (draft : ReplyDraft) : Spans (read draft) 0 0 := by
  cases p <;> cases hread
  . exact spans_message.bind fun _ => .pure rfl
  . refine SpansTo.bind (m := 0) (SpansTo.bind (m := 0) ?_ fun _ => .pure rfl) fun _ => .pure rfl
    exact spans_messageProperty (p := .status) rfl _
  . refine SpansTo.bind (m := 0) (SpansTo.bind (m := 0) ?_ fun _ => .pure rfl) fun _ => .pure rfl
    exact spans_messageProperty (p := .value) rfl _

theorem spans_reply : Spans Reader.reply 0 0 := by
  refine spans_bracketed (.inl rfl) fun _ => ?_
  refine (spans_object (fun hread draft => spans_reply_property hread draft) {}).bind fun _ =>
    spans_dropComments.bind fun _ => ?_
  split
  . exact .pure rfl
  . exact .pure rfl
  . exact .fail _
  . exact .fail _

theorem spans_replies {wanted : String} {f : List Message → α} :
    Spans (do
      let _ ← expect .leftBracket wanted
      let replies ← items Reader.reply
      return f replies) 0 0 := by
  refine spans_bracketed (.inr rfl) fun _ => (spans_items spans_reply).bind fun _ => ?_
  exact .pure rfl

theorem spans_note_property {p : Property} {read : NoteDraft → Reader NoteDraft}
    (hread : Reader.note.property p = some read) (draft : NoteDraft) : Spans (read draft) 0 0 := by
  cases p <;> cases hread
  all_goals refine spans_takeMarkers.bind fun _ => ?_
  . exact spans_expectString.bind fun _ => .pure rfl
  . exact spans_expectString.bind fun _ => .pure rfl
  . exact spans_message.bind fun _ => .pure rfl
  . exact spans_replies
  . exact spans_replies

theorem spans_note : Spans Reader.note 0 0 := by
  refine spans_bracketed (.inl rfl) fun _ => ?_
  exact (spans_object (fun hread draft => spans_note_property hread draft) {}).bind fun _ =>
    spans_takeMarkers.bind fun _ => .pure rfl

theorem spans_notes : Spans Reader.notes 0 0 := by
  refine spans_bracketed (.inr rfl) fun _ => ?_
  exact (spans_items (spans_dropComments.bind fun _ => spans_note)).bind fun _ =>
    spans_dropComments.bind fun _ => .pure rfl

theorem spans_sectionObject (sections : List Node) : Spans (sectionObject sections) 0 0 := by
  refine spans_bracketed (.inl rfl) fun _ => ?_
  refine (spans_object (fun {p read} hread sections => ?_) sections).bind fun _ =>
    spans_dropComments.bind fun _ => .pure rfl
  cases p <;> cases hread
  . exact spans_dropComments.bind fun _ => spans_lexicon.bind fun _ => .pure rfl
  . exact spans_dropComments.bind fun _ => spans_notes.bind fun _ => .pure rfl

end LexiconAudit.Fixture
