import LexiconAudit.Proofs.Fixture.Steps

/-!
This module contains the places at which an absence comment says something: directly before a property
name or the closing brace of an entry, a sense or a note. Which object a place belongs to is told by the
brackets that are open there and by the property names before them, for any tokens whatsoever.
-/

namespace LexiconAudit.Fixture

open Grammar Reading
open Reader hiding lexicon notes object sense entry note reply message senses fixture
open Text (Position)

variable {α β : Type}

inductive Frame where
  | object (scope : Scope) (name : Option String)
  | list (items : Scope)
  deriving DecidableEq, Repr

def listScope : List Frame → Scope
  | [] => .part
  | .object scope (some name) :: _ =>
    match scope, Property.ofName? name with
    | .part, some .lexicon => .entry
    | .part, some .notes => .note
    | .entry, some .senses => .sense
    | _, _ => .other
  | _ => .other

def objectScope : List Frame → Scope
  | .list items :: _ => items
  | _ => .other

def advance (frames : List Frame) : Kind → List Frame
  | .leftBrace => .object (objectScope frames) none :: frames
  | .leftBracket => .list (listScope frames) :: frames
  | .rightBrace | .rightBracket => frames.tail
  | .comma =>
    match frames with
    | .object scope _ :: outer => .object scope none :: outer
    | _ => frames
  | .string name | .word name =>
    match frames with
    | .object scope none :: outer => .object scope (some name) :: outer
    | _ => frames
  | _ => frames

/--
Whether a comment directly before this token stands before a property name or a closing brace that belongs
to an entry, a sense or a note.
-/
def admits : List Frame → Kind → Bool
  | .object scope _ :: _, .rightBrace => scope.marked
  | .object scope none :: _, .string _ => scope.marked
  | .object scope none :: _, .word _ => scope.marked
  | _, _ => false

def firstOther? (ks : List Kind) : Option Kind :=
  ks.find? (!·.isComment)

/--
Whether all comments are absence comments in their places, where these brackets are open.
-/
def placedIn (frames : List Frame) : List Kind → Bool
  | [] => true
  | .comment body :: ks =>
    (absentField? body).isSome && (firstOther? ks).any (admits frames) && placedIn frames ks
  | k :: ks => placedIn (advance frames k) ks

/--
The only comments are absence comments that stand directly before a property name, or before the closing
brace, that belongs directly to an entry, a sense or a note.
-/
def Placed (ks : List Kind) : Prop :=
  placedIn [] ks = true

instance (ks : List Kind) : Decidable (Placed ks) :=
  inferInstanceAs (Decidable (_ = true))

theorem placedIn_cons {frames : List Frame} {k : Kind} (hk : k.isComment = false) (ks : List Kind) :
    placedIn frames (k :: ks) = placedIn (advance frames k) ks := by
  cases k <;> first | rfl | cases hk

/-! What placement says about the tokens that a step takes. -/

theorem exists_tokens_of_leadingComments {frames : List Frame} {ts : List Token}
    (h : placedIn frames (ts.map Token.kind) = true) :
    ∃ cs, ts = cs ++ (leadingComments ts).2 ∧
      cs.map Token.kind = (leadingComments ts).1.map Kind.comment ∧
      (∀ body ∈ (leadingComments ts).1, (absentField? body).isSome = true ∧
        (firstOther? ((leadingComments ts).2.map Token.kind)).any (admits frames) = true) ∧
      placedIn frames ((leadingComments ts).2.map Token.kind) = true := by
  fun_induction leadingComments ts with
  | case1 body position ts bodies rest heq ih =>
    simp only [List.map_cons, placedIn, Bool.and_eq_true] at h
    obtain ⟨⟨habsent, hadmits⟩, hplaced⟩ := h
    obtain ⟨cs, hts, hcs, hbodies, hrest⟩ := ih hplaced
    rw [heq] at hts hcs hbodies hrest
    simp only at hts hcs hbodies hrest
    -- what the comments of a row stand in front of is one and the same token
    have hfirst : firstOther? (ts.map Token.kind) = firstOther? (rest.map Token.kind) := by
      rw [hts, List.map_append, hcs]
      unfold firstOther?
      rw [List.find?_append, List.find?_eq_none.2]
      . rfl
      . simp [Kind.isComment]
    refine ⟨⟨.comment body, position⟩ :: cs, by simp [← hts], by simp [hcs], ?_, hrest⟩
    intro body' hbody'
    rcases List.mem_cons.1 hbody' with rfl | hbody'
    . exact ⟨habsent, hfirst ▸ hadmits⟩
    . exact hbodies body' hbody'
  | case2 => exact ⟨[], rfl, rfl, by simp, h⟩

theorem isComment_of_leadingComments {ts rest : List Token} {t : Token}
    (h : (leadingComments ts).2 = t :: rest) : t.kind.isComment = false := by
  fun_induction leadingComments ts with
  | case1 _ _ _ _ _ heq ih => exact ih (heq ▸ h)
  | case2 ts hts =>
    cases h
    obtain ⟨kind, position⟩ := t
    cases kind with
    | comment body => exact absurd rfl (hts body position rest)
    | _ => rfl

theorem exists_tokens_of_next {frames : List Frame} {atEnd : Fault} {ts : List Token}
    {comments : List String} {stop : Position} {t : Token} {v : Unread}
    (h : (next atEnd).run ⟨ts, comments, stop⟩ = .ok (t, v))
    (hplaced : placedIn frames (ts.map Token.kind) = true) :
    ∃ cs bodies rest, ts = cs ++ t :: rest ∧ cs.map Token.kind = bodies.map Kind.comment ∧
      v = ⟨rest, comments ++ bodies, stop⟩ ∧
      (∀ body ∈ bodies, (absentField? body).isSome = true ∧ admits frames t.kind = true) ∧
      placedIn (advance frames t.kind) (rest.map Token.kind) = true := by
  obtain ⟨cs, hts, hcs, hbodies, hrest⟩ := exists_tokens_of_leadingComments hplaced
  simp only [next, Unread.settle] at h
  split at h
  . cases h
  . next t' rest heq =>
    cases h
    rw [heq] at hts hbodies hrest
    have ht := isComment_of_leadingComments heq
    rw [List.map_cons, placedIn_cons ht] at hrest
    refine ⟨cs, _, rest, hts, hcs, rfl, ?_, hrest⟩
    intro body hbody
    have := hbodies body hbody
    simpa [firstOther?, ht] using this

theorem exists_tokens_of_next_plain {frames : List Frame} {atEnd : Fault} {ts : List Token}
    {comments : List String} {stop : Position} {t : Token} {v : Unread}
    (h : (next atEnd).run ⟨ts, comments, stop⟩ = .ok (t, v))
    (hplaced : placedIn frames (ts.map Token.kind) = true) (hadmits : admits frames t.kind = false) :
    ∃ rest, ts = t :: rest ∧ v = ⟨rest, comments, stop⟩ ∧
      placedIn (advance frames t.kind) (rest.map Token.kind) = true := by
  obtain ⟨cs, bodies, rest, rfl, hcs, rfl, hbodies, hrest⟩ := exists_tokens_of_next h hplaced
  cases bodies with
  | nil =>
    cases List.map_eq_nil_iff.1 hcs
    exact ⟨rest, rfl, by simp, hrest⟩
  | cons body bodies =>
    have := (hbodies body List.mem_cons_self).2
    rw [hadmits] at this
    cases this

theorem exists_tokens_of_expect {frames : List Frame} {k : Kind} {wanted : String} {ts : List Token}
    {comments : List String} {stop : Position} {t : Token} {v : Unread}
    (h : (expect k wanted).run ⟨ts, comments, stop⟩ = .ok (t, v))
    (hplaced : placedIn frames (ts.map Token.kind) = true) (hadmits : admits frames k = false) :
    ∃ rest, ts = t :: rest ∧ t.kind = k ∧ v = ⟨rest, comments, stop⟩ ∧
      placedIn (advance frames k) (rest.map Token.kind) = true := by
  obtain ⟨t', u, hnext, h⟩ := run_bind_eq_ok_iff.1 h
  split at h
  . next hk =>
    cases h
    subst hk
    obtain ⟨rest, hts, hv, hrest⟩ := exists_tokens_of_next_plain hnext hplaced hadmits
    exact ⟨rest, hts, rfl, hv, hrest⟩
  . cases h

theorem exists_tokens_of_expectString {frames : List Frame} {owner : String} {ts : List Token}
    {comments : List String} {stop : Position} {text : String} {v : Unread}
    (h : (expectString owner).run ⟨ts, comments, stop⟩ = .ok (text, v))
    (hplaced : placedIn frames (ts.map Token.kind) = true) (hadmits : admits frames (.string text) = false) :
    ∃ t rest, ts = t :: rest ∧ t.kind = .string text ∧ v = ⟨rest, comments, stop⟩ ∧
      placedIn (advance frames (.string text)) (rest.map Token.kind) = true := by
  obtain ⟨t, u, hnext, h⟩ := run_bind_eq_ok_iff.1 h
  split at h
  . next text' hk =>
    cases h
    rw [← hk] at hadmits ⊢
    obtain ⟨rest, hts, hv, hrest⟩ := exists_tokens_of_next_plain hnext hplaced hadmits
    exact ⟨t, rest, hts, rfl, hv, hrest⟩
  . cases h

theorem exists_tokens_of_front {frames : List Frame} {ts : List Token} {comments : List String}
    {stop : Position} {t : Token} {v : Unread} (h : front.run ⟨ts, comments, stop⟩ = .ok (t, v))
    (hplaced : placedIn frames (ts.map Token.kind) = true) (hadmits : admits frames t.kind = false) :
    v = ⟨ts, comments, stop⟩ ∧ ∃ rest, ts = t :: rest := by
  obtain ⟨cs, hts, hcs, hbodies, -⟩ := exists_tokens_of_leadingComments hplaced
  simp only [front, Unread.settle] at h
  split at h
  . cases h
  . next t' rest heq =>
    cases h
    rw [heq] at hts hbodies ⊢
    have hnil : (leadingComments ts).1 = [] := by
      apply List.eq_nil_iff_forall_not_mem.2
      intro body hbody
      have := (hbodies body hbody).2
      simp [firstOther?, isComment_of_leadingComments heq, hadmits] at this
    rw [hnil] at hcs ⊢
    cases List.map_eq_nil_iff.1 hcs
    exact ⟨by simp [hts], rest, hts⟩

theorem tokens_eq_nil_of_finish {frames : List Frame} {ts : List Token} {comments : List String}
    {stop : Position} {v : Unread} (h : finish.run ⟨ts, comments, stop⟩ = .ok ((), v))
    (hplaced : placedIn frames (ts.map Token.kind) = true) : ts = [] := by
  obtain ⟨cs, hts, hcs, hbodies, -⟩ := exists_tokens_of_leadingComments hplaced
  simp only [finish, Unread.settle] at h
  split at h
  . next hend =>
    rw [hend] at hts hbodies
    have hnil : (leadingComments ts).1 = [] := by
      apply List.eq_nil_iff_forall_not_mem.2
      intro body hbody
      have := (hbodies body hbody).2
      simp [firstOther?] at this
    rw [hnil] at hcs
    cases List.map_eq_nil_iff.1 hcs
    exact hts
  . cases h

end LexiconAudit.Fixture
