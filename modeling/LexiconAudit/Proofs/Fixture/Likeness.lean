import LexiconAudit.Fixture.Reader
import LexiconAudit.Proofs.Fixture.Gaps
import LexiconAudit.Proofs.Reading

/-!
This module contains what a fixture does not depend on: where its tokens stand, and the comments that do not
say that a field must not be there. Tokens that differ in these only are read alike, step by step, to the
same tree or to the same fault.
-/

namespace LexiconAudit.Fixture

open Reading
open Reader
open Text (Position isBlank)

variable {α : Type} {R : Position → Position → Prop}

/-! Tokens that are alike. -/

/--
A comment that does not say that a field must not be there: it does not begin with `no`, blanks and something
else.
-/
def Ordinary (body : String) : Prop :=
  ∀ blanks c more, blanks ≠ [] → (∀ b ∈ blanks, isBlank b = true) → isBlank c = false →
    body.toList ≠ 'n' :: 'o' :: (blanks ++ c :: more)

theorem Ordinary.absentField?_eq_none {body : String} (h : Ordinary body) : absentField? body = none := by
  unfold absentField?
  split
  . next c cs heq =>
    split
    . next hblank =>
      cases hfield : cs.dropWhile isBlank with
      | nil => rfl
      | cons d more =>
        have hd : isBlank d = false := by
          have := List.head?_dropWhile_not isBlank cs
          rw [hfield] at this
          exact this
        refine absurd ?_ (h (c :: cs.takeWhile isBlank) d more (List.cons_ne_nil _ _) ?_ hd)
        . rw [heq, List.cons_append, ← hfield, List.takeWhile_append_dropWhile]
        . exact List.forall_mem_cons.2 ⟨hblank, fun b hb => List.mem_takeWhile_imp hb⟩
    . rfl
  . rfl

inductive Likewise (R : Position → Position → Prop) : List Token → List Token → Prop where
  | nil : Likewise R [] []
  | cons {kind : Kind} {p q : Position} {ts us : List Token} :
    R p q → Likewise R ts us → Likewise R (⟨kind, p⟩ :: ts) (⟨kind, q⟩ :: us)
  | left {body : String} {p : Position} {ts us : List Token} :
    Ordinary body → Likewise R ts us → Likewise R (⟨.comment body, p⟩ :: ts) us
  | right {body : String} {q : Position} {ts us : List Token} :
    Ordinary body → Likewise R ts us → Likewise R ts (⟨.comment body, q⟩ :: us)

theorem Likewise.refl (hrefl : ∀ p, R p p) (ts : List Token) : Likewise R ts ts := by
  induction ts with
  | nil => exact .nil
  | cons t ts ih => exact .cons (hrefl t.position) ih

theorem Likewise.append {ts us ts' us' : List Token} (h : Likewise R ts us) (h' : Likewise R ts' us') :
    Likewise R (ts ++ ts') (us ++ us') := by
  induction h with
  | nil => exact h'
  | cons hp _ ih => exact .cons hp ih
  | left hbody _ ih => exact .left hbody ih
  | right hbody _ ih => exact .right hbody ih

theorem likewise_of_kinds {ts us : List Token} (h : ts.map Token.kind = us.map Token.kind) :
    Likewise (fun _ _ => True) ts us := by
  induction ts generalizing us with
  | nil =>
    cases List.map_eq_nil_iff.1 h.symm
    exact .nil
  | cons t ts ih =>
    obtain ⟨u, us, rfl, hkind, hkinds⟩ := List.map_eq_cons_iff.1 h.symm
    obtain ⟨kind, p⟩ := t
    obtain ⟨kind', q⟩ := u
    cases hkind
    exact .cons trivial (ih hkinds.symm)

structure SameToken (R : Position → Position → Prop) (t u : Token) : Prop where
  kind : t.kind = u.kind
  position : R t.position u.position

structure SameFault (R : Position → Position → Prop) (e f : Rejection) : Prop where
  fault : e.fault = f.fault
  position : R e.position f.position

/--
States of reading that are alike: the comments put aside stand for the same markers.
-/
structure Alike (R : Position → Position → Prop) (u v : Unread) : Prop where
  tokens : Likewise R u.tokens v.tokens
  comments : markers u.comments = markers v.comments
  stop : R u.stop v.stop

theorem markers_cons_of_ordinary {body : String} (h : Ordinary body) (bodies : List String) :
    markers (body :: bodies) = markers bodies := by
  simp [markers, h.absentField?_eq_none]

theorem leadingComments_of_kind {kind : Kind} (h : ∀ body, kind ≠ .comment body) (p : Position)
    (ts : List Token) : leadingComments (⟨kind, p⟩ :: ts) = ([], ⟨kind, p⟩ :: ts) := by
  cases kind with
  | comment body => exact absurd rfl (h body)
  | _ => rfl

theorem Likewise.leadingComments {ts us : List Token} (h : Likewise R ts us) :
    markers (leadingComments ts).1 = markers (leadingComments us).1 ∧
      ((leadingComments ts).2 = [] ∧ (leadingComments us).2 = [] ∨
        ∃ t u ts' us', (leadingComments ts).2 = t :: ts' ∧ (leadingComments us).2 = u :: us' ∧
          SameToken R t u ∧ Likewise R ts' us') := by
  induction h with
  | nil => exact ⟨rfl, .inl ⟨rfl, rfl⟩⟩
  | @cons kind p q ts us hp h ih =>
    by_cases hkind : ∃ body, kind = .comment body
    . obtain ⟨body, rfl⟩ := hkind
      refine ⟨?_, ih.2⟩
      change markers ([body] ++ _) = markers ([body] ++ _)
      rw [markers_append, markers_append, ih.1]
    . rw [leadingComments_of_kind (not_exists.1 hkind), leadingComments_of_kind (not_exists.1 hkind)]
      exact ⟨rfl, .inr ⟨_, _, ts, us, rfl, rfl, ⟨rfl, hp⟩, h⟩⟩
  | left hbody _ ih => exact ⟨(markers_cons_of_ordinary hbody _).trans ih.1, ih.2⟩
  | right hbody _ ih => exact ⟨ih.1.trans (markers_cons_of_ordinary hbody _).symm, ih.2⟩

theorem Alike.settle {u v : Unread} (h : Alike R u v) :
    markers u.settle.comments = markers v.settle.comments ∧ R u.settle.stop v.settle.stop ∧
      (u.settle.tokens = [] ∧ v.settle.tokens = [] ∨
        ∃ t t' ts ts', u.settle.tokens = t :: ts ∧ v.settle.tokens = t' :: ts' ∧
          SameToken R t t' ∧ Likewise R ts ts') := by
  obtain ⟨hmarkers, htokens⟩ := h.tokens.leadingComments
  refine ⟨?_, h.stop, htokens⟩
  change markers (u.comments ++ _) = markers (v.comments ++ _)
  rw [markers_append, markers_append, h.comments, hmarkers]

/-! Steps. -/

theorem runsAlike_next (atEnd : Fault) :
    RunsAlike (Alike R) (SameFault R) (SameToken R) (next atEnd) (next atEnd) := by
  intro u v h
  obtain ⟨hmarkers, hstop, ⟨hu, hv⟩ | ⟨t, t', ts, ts', hu, hv, hsame, hrest⟩⟩ := h.settle
  . simp only [next, hu, hv]
    exact .error ⟨rfl, h.stop⟩
  . simp only [next, hu, hv]
    exact .ok hsame ⟨hrest, hmarkers, hstop⟩

theorem runsAlike_front : RunsAlike (Alike R) (SameFault R) (SameToken R) front front := by
  intro u v h
  obtain ⟨hmarkers, hstop, ⟨hu, hv⟩ | ⟨t, t', ts, ts', hu, hv, hsame, hrest⟩⟩ := h.settle
  . simp only [front, hu, hv]
    exact .error ⟨rfl, h.stop⟩
  . simp only [front, hu, hv]
    obtain ⟨kind, p⟩ := t
    obtain ⟨kind', q⟩ := t'
    obtain ⟨rfl, hp⟩ := hsame
    refine .ok ⟨rfl, hp⟩ ⟨?_, hmarkers, hstop⟩
    rw [hu, hv]
    exact .cons hp hrest

theorem runsAlike_finish : RunsAlike (Alike R) (SameFault R) Eq finish finish := by
  intro u v h
  obtain ⟨hmarkers, hstop, ⟨hu, hv⟩ | ⟨t, t', ts, ts', hu, hv, hsame, hrest⟩⟩ := h.settle
  . simp only [finish, hu, hv]
    refine .ok rfl ⟨?_, hmarkers, hstop⟩
    rw [hu, hv]
    exact .nil
  . simp only [finish, hu, hv]
    exact .error ⟨rfl, hsame.position⟩

theorem runsAlike_takeMarkers : RunsAlike (Alike R) (SameFault R) Eq takeMarkers takeMarkers := by
  intro u v h
  change EndsAlike _ _ _ (.ok (markers u.comments, { u with comments := [] }))
    (.ok (markers v.comments, { v with comments := [] }))
  exact .ok h.comments ⟨h.tokens, rfl, h.stop⟩

theorem runsAlike_dropComments : RunsAlike (Alike R) (SameFault R) Eq dropComments dropComments := by
  intro u v h
  change EndsAlike _ _ _ (.ok ((), { u with comments := [] })) (.ok ((), { v with comments := [] }))
  exact .ok rfl ⟨h.tokens, rfl, h.stop⟩

section Steps

variable {A : Unread → Unread → Prop}

theorem runsAlike_reject {t u : Token} (h : SameToken R t u) (fault : Fault) :
    RunsAlike A (SameFault R) Eq (reject t fault : Reader α) (reject u fault) :=
  RunsAlike.fail ⟨rfl, h.position⟩

theorem runsAlike_unexpected {t u : Token} (h : SameToken R t u) (wanted : String) :
    RunsAlike A (SameFault R) Eq (unexpected wanted t : Reader α) (unexpected wanted u) :=
  RunsAlike.fail ⟨by rw [h.kind], h.position⟩

structure Steps (R : Position → Position → Prop) (A : Unread → Unread → Prop) : Prop where
  next : ∀ atEnd, RunsAlike A (SameFault R) (SameToken R) (next atEnd) (next atEnd)
  front : RunsAlike A (SameFault R) (SameToken R) front front

theorem steps_alike : Steps R (Alike R) where
  next := runsAlike_next
  front := runsAlike_front

theorem Steps.bounded (h : Steps R A) (n m : Nat) :
    Steps R fun u v => A u v ∧ u.tokens.length ≤ n ∧ v.tokens.length ≤ m where
  next atEnd := (h.next atEnd).bounded n m
  front := h.front.bounded n m

variable (hsteps : Steps R A)

include hsteps

theorem Steps.expect (kind : Kind) (wanted : String) :
    RunsAlike A (SameFault R) (SameToken R) (expect kind wanted) (expect kind wanted) := by
  refine (hsteps.next _).bind fun t u hsame => ?_
  rw [hsame.kind]
  split
  . exact RunsAlike.pure hsame
  . exact RunsAlike.fail ⟨by rw [hsame.kind], hsame.position⟩

theorem Steps.expectString (owner : String) :
    RunsAlike A (SameFault R) Eq (expectString owner) (expectString owner) := by
  refine (hsteps.next _).bind fun ⟨kind, p⟩ ⟨kind', q⟩ hsame => ?_
  cases hsame.kind
  cases kind with
  | string value => exact RunsAlike.pure rfl
  | _ => exact runsAlike_unexpected hsame _

theorem Steps.members {member member' : Key → α → Reader α}
    (hmember : ∀ name t u a, SameToken R t u →
      RunsAlike A (SameFault R) Eq (member ⟨name, t⟩ a) (member' ⟨name, u⟩ a)) (a : α) :
    RunsAlike A (SameFault R) Eq (members member a) (members member' a) := by
  refine RunsAlike.loop (S := Eq) (fun a _ heq => ?_) rfl
  subst heq
  refine (hsteps.next _).bind fun ⟨kind, p⟩ ⟨kind', q⟩ hsame => ?_
  cases hsame.kind
  cases kind
  case rightBrace => exact RunsAlike.pure (.done rfl)
  case string name | word name =>
    refine (hsteps.expect _ _).bind fun _ _ _ => (hmember name _ _ a hsame).bind_eq fun a => ?_
    refine (hsteps.next _).bind fun ⟨kind, p⟩ ⟨kind', q⟩ hsame => ?_
    cases hsame.kind
    cases kind
    case comma => exact RunsAlike.pure (.again rfl)
    case rightBrace => exact RunsAlike.pure (.done rfl)
    all_goals exact RunsAlike.fail ⟨rfl, hsame.position⟩
  all_goals exact RunsAlike.fail ⟨rfl, hsame.position⟩

theorem Steps.foldItems {item item' : α → Reader α}
    (hitem : ∀ a, RunsAlike A (SameFault R) Eq (item a) (item' a)) (a : α) :
    RunsAlike A (SameFault R) Eq (foldItems item a) (foldItems item' a) := by
  refine RunsAlike.loop (S := Eq) (fun a _ heq => ?_) rfl
  subst heq
  refine hsteps.front.bind fun t u hsame => ?_
  rw [hsame.kind]
  split
  . exact (hsteps.next _).bind fun _ _ _ => RunsAlike.pure (.done rfl)
  . refine (hitem a).bind_eq fun a => (hsteps.next _).bind fun ⟨kind, p⟩ ⟨kind', q⟩ hsame => ?_
    cases hsame.kind
    cases kind
    case comma => exact RunsAlike.pure (.again rfl)
    case rightBracket => exact RunsAlike.pure (.done rfl)
    all_goals exact RunsAlike.fail ⟨rfl, hsame.position⟩

end Steps

/-! Values that are dropped. -/

theorem exists_skipWithin_eq (depth : Nat) : ∃ f, skipWithin depth = next >>= f := by
  cases depth with
  | zero => exact ⟨_, rfl⟩
  | succ depth => exact ⟨_, rfl⟩

theorem runsAlike_skipWithin (n m : Nat) :
    RunsAlike (fun u v => Alike R u v ∧ u.tokens.length ≤ n ∧ v.tokens.length ≤ m) (SameFault R) Eq
      (skipWithin n) (skipWithin m) := by
  induction n using Nat.strong_induction_on generalizing m with
  | h n ih =>
  intro u v ⟨h, hn, hm⟩
  have hnext := runsAlike_next .unclosedArray h
  generalize hu : (next .unclosedArray).run u = x at hnext
  generalize hv : (next .unclosedArray).run v = y at hnext
  cases hnext with
  | error hfault =>
    obtain ⟨f, hf⟩ := exists_skipWithin_eq n
    obtain ⟨g, hg⟩ := exists_skipWithin_eq m
    rw [hf, hg, run_bind, run_bind, hu, hv]
    exact .error hfault
  | @ok t t' u' v' hsame hrest =>
    -- the token that was taken leaves room for one level less
    have hu' : u'.tokens.length < u.tokens.length := strict_next _ hu
    have hv' : v'.tokens.length < v.tokens.length := strict_next _ hv
    obtain ⟨n, rfl⟩ := Nat.exists_eq_succ_of_ne_zero (show n ≠ 0 by omega)
    obtain ⟨m, rfl⟩ := Nat.exists_eq_succ_of_ne_zero (show m ≠ 0 by omega)
    have hinner : ∀ r q : Reader Unit, RunsAlike (fun u v => Alike R u v ∧ u.tokens.length ≤ n ∧
        v.tokens.length ≤ m) (SameFault R) Eq r q → EndsAlike (fun u v => Alike R u v ∧
          u.tokens.length ≤ n + 1 ∧ v.tokens.length ≤ m + 1) (SameFault R) Eq (r.run u') (q.run v') := by
      intro r q hrq
      exact (hrq ⟨hrest, by omega, by omega⟩).imp fun _ _ ⟨h, hn, hm⟩ => ⟨h, by omega, by omega⟩
    unfold skipWithin
    rw [run_bind_of_run hu, run_bind_of_run hv]
    obtain ⟨kind, p⟩ := t
    obtain ⟨kind', q⟩ := t'
    cases hsame.kind
    have ih := ih n (Nat.lt_succ_self n) m
    cases kind
    case leftBrace => exact hinner _ _ ((steps_alike.bounded n m).members (fun _ _ _ _ _ => ih) ())
    case leftBracket => exact hinner _ _ ((steps_alike.bounded n m).foldItems (fun _ => ih) ())
    case string | number | truth | null => exact hinner _ _ (RunsAlike.pure rfl)
    all_goals exact .error ⟨rfl, hsame.position⟩

theorem runsAlike_skip : RunsAlike (Alike R) (SameFault R) Eq skip skip := by
  intro u v h
  exact (runsAlike_skipWithin u.tokens.length v.tokens.length ⟨h, Nat.le_refl _, Nat.le_refl _⟩).imp
    fun _ _ h => h.1

/-! The grammar. -/

def Steady (R : Position → Position → Prop) (r : Reader α) : Prop :=
  RunsAlike (Alike R) (SameFault R) Eq r r

theorem steady_items {item : Reader α} (h : Steady R item) : Steady R (items item) := by
  refine steps_alike.foldItems (fun as => ?_) []
  exact h.bind_eq fun a => RunsAlike.pure rfl

theorem steady_object {place : Place} {property : Property → Option (α → Reader α)}
    (h : ∀ {p read}, property p = some read → ∀ a, Steady R (read a)) (a : α) :
    Steady R (Reader.object place property a) := by
  refine steps_alike.members (fun name t u a hsame => ?_) a
  dsimp only
  split
  . exact runsAlike_reject hsame _
  . split
    . exact runsAlike_reject hsame _
    . next hread => exact h hread a

theorem steady_writingSystemValue : Steady R writingSystemValue := by
  unfold writingSystemValue
  refine (steps_alike.expect _ _).bind fun _ _ _ => (steps_alike.next _).bind fun t u hsame => ?_
  obtain ⟨kind, p⟩ := t
  obtain ⟨kind', q⟩ := u
  cases hsame.kind
  cases kind
  case string system | word system =>
    refine (RunsAlike.pure rfl).bind_eq fun system => ?_
    refine (steps_alike.expect _ _).bind fun _ _ _ => (steps_alike.expect _ _).bind fun _ _ _ => ?_
    refine (steps_alike.next _).bind fun t u hsame => ?_
    rw [hsame.kind]
    split
    . refine (steps_alike.expect _ _).bind fun _ _ _ => (steps_alike.expectString _).bind_eq fun value => ?_
      exact (steps_alike.expect _ _).bind fun _ _ _ => (steps_alike.expect _ _).bind fun _ _ _ => RunsAlike.pure rfl
    . exact runsAlike_unexpected hsame _
  all_goals exact fun _ _ _ => .error ⟨rfl, hsame.position⟩

theorem steady_sense : Steady R Reader.sense := by
  refine (steps_alike.expect _ _).bind fun _ _ _ => ?_
  refine (steady_object (fun {p read} hread children => ?_) []).bind_eq fun children => ?_
  . cases p <;> cases hread
    all_goals refine runsAlike_takeMarkers.bind_eq fun marks => ?_
    . exact steady_writingSystemValue.bind_eq fun _ => RunsAlike.pure rfl
    . exact steady_writingSystemValue.bind_eq fun _ => RunsAlike.pure rfl
    . exact runsAlike_skip.bind_eq fun _ => RunsAlike.pure rfl
  . exact runsAlike_takeMarkers.bind_eq fun _ => RunsAlike.pure rfl

theorem steady_senses : Steady R Reader.senses := by
  refine (steps_alike.expect _ _).bind fun t u hsame => (steady_items steady_sense).bind_eq fun senses => ?_
  refine runsAlike_takeMarkers.bind_eq fun marks => ?_
  split
  . exact RunsAlike.pure rfl
  . exact runsAlike_reject hsame _

theorem steady_entry : Steady R Reader.entry := by
  refine (steps_alike.expect _ _).bind fun t u hsame => ?_
  refine (steady_object (fun {p read} hread draft => ?_) _).bind_eq fun draft => ?_
  . cases p <;> cases hread
    all_goals refine runsAlike_takeMarkers.bind_eq fun marks => ?_
    . exact steady_writingSystemValue.bind_eq fun _ => RunsAlike.pure rfl
    . exact steady_senses.bind_eq fun _ => RunsAlike.pure rfl
  . refine runsAlike_takeMarkers.bind_eq fun marks => ?_
    split
    . exact RunsAlike.pure rfl
    . exact runsAlike_reject hsame _

theorem steady_messageProperty {p : Property} {read : Message → Reader Message}
    (hread : messageProperty p = some read) (m : Message) : Steady R (read m) := by
  cases p <;> cases hread
  all_goals exact (steps_alike.expectString _).bind_eq fun _ => RunsAlike.pure rfl

theorem steady_message : Steady R message := by
  refine (steps_alike.expect _ _).bind fun _ _ _ => ?_
  refine (steady_object steady_messageProperty _).bind_eq fun m => ?_
  exact runsAlike_dropComments.bind_eq fun _ => RunsAlike.pure rfl

theorem steady_reply : Steady R Reader.reply := by
  refine (steps_alike.expect _ _).bind fun t u hsame => ?_
  refine (steady_object (fun {p read} hread draft => ?_) _).bind_eq fun draft => ?_
  . cases p <;> cases hread
    . exact steady_message.bind_eq fun _ => RunsAlike.pure rfl
    . exact ((steady_messageProperty (p := .status) rfl _).bind_eq fun _ => RunsAlike.pure rfl).bind_eq
        fun _ => RunsAlike.pure rfl
    . exact ((steady_messageProperty (p := .value) rfl _).bind_eq fun _ => RunsAlike.pure rfl).bind_eq
        fun _ => RunsAlike.pure rfl
  . refine runsAlike_dropComments.bind_eq fun _ => ?_
    split
    . exact RunsAlike.pure rfl
    . exact RunsAlike.pure rfl
    . exact runsAlike_reject hsame _
    . exact runsAlike_reject hsame _

theorem steady_note : Steady R Reader.note := by
  refine (steps_alike.expect _ _).bind fun _ _ _ => ?_
  refine (steady_object (fun {p read} hread draft => ?_) _).bind_eq fun draft => ?_
  . cases p <;> cases hread
    all_goals refine runsAlike_takeMarkers.bind_eq fun marks => ?_
    . exact (steps_alike.expectString _).bind_eq fun _ => RunsAlike.pure rfl
    . exact (steps_alike.expectString _).bind_eq fun _ => RunsAlike.pure rfl
    . exact steady_message.bind_eq fun _ => RunsAlike.pure rfl
    . exact (steps_alike.expect _ _).bind fun _ _ _ =>
        (steady_items steady_reply).bind_eq fun _ => RunsAlike.pure rfl
    . exact (steps_alike.expect _ _).bind fun _ _ _ =>
        (steady_items steady_reply).bind_eq fun _ => RunsAlike.pure rfl
  . exact runsAlike_takeMarkers.bind_eq fun _ => RunsAlike.pure rfl

theorem steady_sectionList {item : Reader Node} (hitem : Steady R item) (name wanted : String) :
    Steady R (do
      let _ ← expect .leftBracket wanted
      let nodes ← items (do dropComments; item)
      dropComments
      return container name nodes : Reader Node) := by
  refine (steps_alike.expect _ _).bind fun _ _ _ => ?_
  refine (steady_items (runsAlike_dropComments.bind_eq fun _ => hitem)).bind_eq fun nodes => ?_
  exact runsAlike_dropComments.bind_eq fun _ => RunsAlike.pure rfl

theorem steady_sectionObject (sections : List Node) : Steady R (sectionObject sections) := by
  refine (steps_alike.expect _ _).bind fun _ _ _ => ?_
  refine (steady_object (fun {p read} hread sections => ?_) sections).bind_eq fun sections => ?_
  . cases p <;> cases hread
    all_goals refine runsAlike_dropComments.bind_eq fun _ => ?_
    . exact (steady_sectionList steady_entry _ _).bind_eq fun _ => RunsAlike.pure rfl
    . exact (steady_sectionList steady_note _ _).bind_eq fun _ => RunsAlike.pure rfl
  . exact runsAlike_dropComments.bind_eq fun _ => RunsAlike.pure rfl

theorem steady_fixture : Steady R Reader.fixture := by
  refine (steps_alike.next _).bind fun t u hsame => ?_
  rw [hsame.kind]
  split
  . refine (steps_alike.foldItems steady_sectionObject []).bind_eq fun sections => ?_
    exact runsAlike_finish.bind_eq fun _ => RunsAlike.pure rfl
  . exact runsAlike_reject hsame _

/-! Fixtures. -/

theorem ofTokens_of_likewise {tokens tokens' : Tokens} (h : Likewise R tokens.list tokens'.list)
    (hstop : R tokens.stop tokens'.stop) :
    (∃ tree, ofTokens tokens = .ok tree ∧ ofTokens tokens' = .ok tree) ∨
      ∃ e f, ofTokens tokens = .error e ∧ ofTokens tokens' = .error f ∧ SameFault R e f := by
  have hends := steady_fixture (R := R) (s := ⟨tokens.list, [], tokens.stop⟩)
    (t := ⟨tokens'.list, [], tokens'.stop⟩) ⟨h, rfl, hstop⟩
  unfold ofTokens
  generalize Reader.fixture.run ⟨tokens.list, [], tokens.stop⟩ = x at hends
  generalize Reader.fixture.run ⟨tokens'.list, [], tokens'.stop⟩ = y at hends
  cases hends with
  | ok heq =>
    subst heq
    exact .inl ⟨_, rfl, rfl⟩
  | error hfault => exact .inr ⟨_, _, rfl, rfl, hfault⟩

def answer (result : Except Rejection Node) : Except Fault Node :=
  result.mapError Rejection.fault

theorem answer_ofTokens_of_likewise {tokens tokens' : Tokens}
    (h : Likewise (fun _ _ => True) tokens.list tokens'.list) :
    answer (ofTokens tokens) = answer (ofTokens tokens') := by
  rcases ofTokens_of_likewise h trivial with ⟨tree, htokens, htokens'⟩ | ⟨e, f, htokens, htokens', hsame⟩
  . rw [htokens, htokens']
  . rw [htokens, htokens']
    exact congrArg Except.error hsame.fault

theorem answer_parse_of_likewise {text text' : String} {tokens tokens' : Tokens}
    (htokens : tokenize text = .ok tokens) (htokens' : tokenize text' = .ok tokens')
    (h : Likewise (fun _ _ => True) tokens.list tokens'.list) : answer (parse text) = answer (parse text') := by
  unfold parse
  rw [htokens, htokens']
  exact answer_ofTokens_of_likewise h

theorem ofTokens_insert_ordinary {body : String} (h : Ordinary body) (before after : List Token)
    (position stop : Position) :
    ofTokens ⟨before ++ ⟨.comment body, position⟩ :: after, stop⟩ = ofTokens ⟨before ++ after, stop⟩ := by
  have hlike : Likewise Eq (before ++ ⟨.comment body, position⟩ :: after) (before ++ after) :=
    (Likewise.refl (fun _ => rfl) before).append (.left h (.refl (fun _ => rfl) after))
  rcases @ofTokens_of_likewise Eq ⟨_, stop⟩ ⟨_, stop⟩ hlike rfl with
    ⟨tree, htokens, htokens'⟩ | ⟨e, f, htokens, htokens', hfault, hposition⟩
  . rw [htokens, htokens']
  . obtain ⟨fault, position⟩ := e
    cases hfault
    cases hposition
    rw [htokens, htokens']

/--
Neither layout nor ordinary comments change what a fixture means. Blanks between tokens leave their kinds as
they are, tokens of the same kinds are read alike wherever they stand, and an ordinary comment in front of any
token, or behind the last, changes neither the tree nor the error. So texts that differ in these only spell
the same tree or have the same fault.
-/
theorem parse_relaid :
    (∀ before blanks after tokens, Between before after → (∀ c ∈ blanks, isBlank c = true) →
      tokenize (String.ofList (before ++ after)) = .ok tokens →
        (∃ tokens', tokenize (String.ofList (before ++ blanks ++ after)) = .ok tokens' ∧
          tokens'.list.map Token.kind = tokens.list.map Token.kind) ∧
        answer (parse (String.ofList (before ++ blanks ++ after))) =
          answer (parse (String.ofList (before ++ after)))) ∧
      (∀ tokens tokens' : Tokens, tokens.list.map Token.kind = tokens'.list.map Token.kind →
        answer (ofTokens tokens) = answer (ofTokens tokens')) ∧
      (∀ body before after position stop, Ordinary body →
        ofTokens ⟨before ++ ⟨.comment body, position⟩ :: after, stop⟩ = ofTokens ⟨before ++ after, stop⟩) ∧
      ∀ text text' tokens tokens', tokenize text = .ok tokens → tokenize text' = .ok tokens' →
        Likewise (fun _ _ => True) tokens.list tokens'.list → answer (parse text) = answer (parse text') := by
  refine ⟨?_, ?_, ?_, ?_⟩
  . intro before blanks after tokens hplace hblanks htokens
    obtain ⟨tokens', htokens', hkinds⟩ := exists_tokenize_of_blanks hplace hblanks htokens
    exact ⟨⟨tokens', htokens', hkinds⟩,
      answer_parse_of_likewise htokens' htokens (likewise_of_kinds hkinds)⟩
  . intro tokens tokens' hkinds
    exact answer_ofTokens_of_likewise (likewise_of_kinds hkinds)
  . intro body before after position stop h
    exact ofTokens_insert_ordinary h before after position stop
  . intro text text' tokens tokens' htokens htokens' h
    exact answer_parse_of_likewise htokens htokens' h

/-! No notes, with a line end in front and a comment behind. -/

def notesText : String :=
  "[\x7bnotes: []\x7d]"

def commentedText : String :=
  "[\x7bnotes: [] // see below\n\x7d]"

def openingTokens : List Token :=
  [⟨.leftBracket, ⟨1, 1⟩⟩, ⟨.leftBrace, ⟨1, 2⟩⟩, ⟨.word "notes", ⟨1, 3⟩⟩, ⟨.colon, ⟨1, 8⟩⟩,
    ⟨.leftBracket, ⟨1, 10⟩⟩, ⟨.rightBracket, ⟨1, 11⟩⟩]

def notesTokens : Tokens :=
  ⟨openingTokens ++ [⟨.rightBrace, ⟨1, 12⟩⟩, ⟨.rightBracket, ⟨1, 13⟩⟩], ⟨1, 14⟩⟩

def commentedTokens : Tokens :=
  ⟨openingTokens ++ ⟨.comment "see below", ⟨1, 13⟩⟩ :: [⟨.rightBrace, ⟨2, 1⟩⟩, ⟨.rightBracket, ⟨2, 2⟩⟩], ⟨2, 3⟩⟩

def notesTree : Node :=
  container Node.rootName [container Node.notesName []]

theorem ordinary_seeBelow : Ordinary "see below" := by
  intro blanks c more _ _ _ h
  cases h

theorem parse_commentedNotes :
    answer (parse (String.ofList (['['] ++ ['\n', ' '] ++ notesText.toList.tail))) = .ok notesTree ∧
      answer (ofTokens ⟨notesTokens.list.map fun token => ⟨token.kind, Position.start⟩, Position.start⟩) =
        .ok notesTree ∧
      ofTokens ⟨openingTokens ++ ⟨.comment "see below", ⟨1, 12⟩⟩ :: [⟨.rightBrace, ⟨1, 12⟩⟩, ⟨.rightBracket, ⟨1, 13⟩⟩],
        ⟨1, 14⟩⟩ = .ok notesTree ∧
      answer (parse commentedText) = .ok notesTree := by
  obtain ⟨hblanks, hkinds, hcomment, htexts⟩ := parse_relaid
  have htext : String.ofList (['['] ++ notesText.toList.tail) = notesText := by with_unfolding_all rfl
  have htokens : tokenize notesText = .ok notesTokens := by with_unfolding_all rfl
  have hcommented : tokenize commentedText = .ok commentedTokens := by with_unfolding_all rfl
  have hparse : parse notesText = .ok notesTree := by with_unfolding_all rfl
  have hread : ofTokens notesTokens = .ok notesTree := by
    unfold parse at hparse
    rw [htokens] at hparse
    exact hparse
  have hplace : Between ['['] notesText.toList.tail :=
    @Between.token [] _ _ _ '[' _ nofun rfl rfl rfl (.gap nofun)
  refine ⟨?_, ?_, ?_, ?_⟩
  . have hblank : ∀ c ∈ ['\n', ' '], isBlank c = true :=
      List.forall_mem_cons.2 ⟨by decide, List.forall_mem_singleton.2 (by decide)⟩
    have hspaced := (hblanks ['['] ['\n', ' '] notesText.toList.tail notesTokens hplace hblank
      (by rw [htext]; exact htokens)).2
    rw [hspaced, htext, hparse]
    rfl
  . rw [hkinds _ notesTokens (by simp), hread]
    rfl
  . exact (hcomment _ _ _ _ _ ordinary_seeBelow).trans hread
  . have hlike : Likewise (fun _ _ => True) commentedTokens.list notesTokens.list :=
      (Likewise.refl (fun _ => trivial) openingTokens).append
        (.left ordinary_seeBelow (.cons trivial (.cons trivial .nil)))
    rw [htexts _ _ _ _ hcommented htokens hlike, hparse]
    rfl

end LexiconAudit.Fixture
