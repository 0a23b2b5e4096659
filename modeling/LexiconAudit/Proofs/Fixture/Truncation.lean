import LexiconAudit.Proofs.Fixture.Closing
import LexiconAudit.Proofs.Fixture.Likeness

/-!
This module contains what becomes of a fixture whose tokens are cut off before the outermost list is closed: a
step of reading answers as it does on all tokens until there are none left, and then the list is unclosed.
-/

namespace LexiconAudit.Fixture

open Reading
open Reader
open Text (Position)

variable {α β : Type} {stop : Position}

/-! Readers that run out of tokens. -/

/--
In the second state the tokens are cut off somewhere, and the text ends at `stop`.
-/
structure Cut (stop : Position) (u v : Unread) : Prop where
  tokens : v.tokens <+: u.tokens
  comments : v.comments = u.comments
  stop : v.stop = stop

/--
If the first run ends with an answer, then the second one ends with the same answer or at the end of the text.
-/
inductive EndsShort (A : Unread → Unread → Prop) (stop : Position) :
    Except Rejection (α × Unread) → Except Rejection (α × Unread) → Prop where
  | answer {a : α} {u v : Unread} : A u v → EndsShort A stop (.ok (a, u)) (.ok (a, v))
  | short {a : α} {u : Unread} : EndsShort A stop (.ok (a, u)) (.error ⟨.unclosedArray, stop⟩)
  | error {e : Rejection} {x : Except Rejection (α × Unread)} : EndsShort A stop (.error e) x

def RunsShort (A : Unread → Unread → Prop) (stop : Position) (r q : Reader α) : Prop :=
  ∀ ⦃u v⦄, A u v → EndsShort A stop (r.run u) (q.run v)

section Runs

variable {A : Unread → Unread → Prop}

theorem EndsShort.imp {A' : Unread → Unread → Prop} {x y : Except Rejection (α × Unread)}
    (h : EndsShort A stop x y) (himp : ∀ u v, A u v → A' u v) : EndsShort A' stop x y := by
  cases h with
  | answer h => exact .answer (himp _ _ h)
  | short => exact .short
  | error => exact .error

theorem EndsShort.of_short (x : Except Rejection (α × Unread)) :
    EndsShort A stop x (.error ⟨.unclosedArray, stop⟩) := by
  cases x with
  | ok => exact .short
  | error => exact .error

theorem RunsShort.pure (a : α) : RunsShort A stop (pure a) (pure a) :=
  fun _ _ h => .answer h

theorem RunsShort.fail (e : Rejection) (q : Reader α) : RunsShort A stop (fail e) q :=
  fun _ _ _ => .error

theorem RunsShort.bind {r q : Reader α} {f g : α → Reader β} (hr : RunsShort A stop r q)
    (hf : ∀ a, RunsShort A stop (f a) (g a)) : RunsShort A stop (r >>= f) (q >>= g) := by
  intro u v h
  have hends := hr h
  rw [run_bind, run_bind]
  generalize r.run u = x at hends
  generalize q.run v = y at hends
  cases hends with
  | answer h => exact hf _ h
  | short => exact .of_short _
  | error => exact .error

theorem RunsShort.loop {step step' : α → Reader (Round α β)} {advances : ∀ a, (step a).Advances}
    {advances' : ∀ a, (step' a).Advances} (hstep : ∀ a, RunsShort A stop (step a) (step' a)) (a : α) :
    RunsShort A stop (loop step advances a) (loop step' advances' a) := by
  intro u v h
  change EndsShort A stop (loop.go step advances a u) _
  fun_induction loop.go step advances a u generalizing v with
  | case1 => exact .error
  | case2 a u b w heq =>
    have hround := hstep a h
    rw [heq] at hround
    rw [run_loop]
    generalize (step' a).run v = y at hround
    cases hround with
    | answer h => exact .answer h
    | short => exact .short
  | case3 a u a' w heq _ ih =>
    have hround := hstep a h
    rw [heq] at hround
    rw [run_loop]
    generalize (step' a).run v = y at hround
    cases hround with
    | answer h => exact ih h
    | short => exact .of_short _

theorem RunsShort.bounded {r q : Reader α} (h : RunsShort A stop r q) (n m : Nat) :
    RunsShort (fun u v => A u v ∧ u.tokens.length ≤ n ∧ v.tokens.length ≤ m) stop r q := by
  intro u v ⟨huv, hn, hm⟩
  have hends := h huv
  generalize hr : r.run u = x at hends
  generalize hq : q.run v = y at hends
  cases hends with
  | answer h => exact .answer ⟨h, Nat.le_trans (r.size_le hr) hn, Nat.le_trans (q.size_le hq) hm⟩
  | short => exact .short
  | error => exact .error

end Runs

/-! Steps. -/

theorem leadingComments_of_prefix {ts us : List Token} (h : ts <+: us) :
    (leadingComments ts).2 = [] ∨ ∃ t ts' us', (leadingComments ts).2 = t :: ts' ∧
      (leadingComments us).2 = t :: us' ∧ ts' <+: us' ∧ (leadingComments ts).1 = (leadingComments us).1 := by
  induction ts generalizing us with
  | nil => exact .inl rfl
  | cons t ts ih =>
    obtain ⟨us, rfl, hrest⟩ := List.cons_prefix_iff.1 h
    cases ht : t.kind.isComment with
    | false =>
      rw [leadingComments_cons ht, leadingComments_cons ht]
      exact .inr ⟨t, ts, us, rfl, rfl, hrest, rfl⟩
    | true =>
      obtain ⟨kind, p⟩ := t
      cases kind <;> cases ht
      rcases ih hrest with hnone | ⟨t, ts', us', hts, hus, hrest', hbodies⟩
      . exact .inl hnone
      . exact .inr ⟨t, ts', us', hts, hus, hrest', congrArg (_ :: ·) hbodies⟩

theorem leadingComments_eq_nil_iff {ts : List Token} :
    (leadingComments ts).2 = [] ↔ ts.all (·.kind.isComment) = true := by
  induction ts with
  | nil => simp [leadingComments]
  | cons t ts ih =>
    cases ht : t.kind.isComment with
    | false => simp [leadingComments_cons ht, ht]
    | true =>
      obtain ⟨kind, p⟩ := t
      cases kind <;> cases ht
      exact ih

theorem Cut.settle {u v : Unread} (h : Cut stop u v) :
    v.settle.tokens = [] ∨ ∃ t ts us, v.settle.tokens = t :: ts ∧ u.settle.tokens = t :: us ∧ ts <+: us ∧
      v.settle.comments = u.settle.comments := by
  rcases leadingComments_of_prefix h.tokens with hnone | ⟨t, ts, us, hts, hus, hrest, hbodies⟩
  . exact .inl hnone
  . refine .inr ⟨t, ts, us, hts, hus, hrest, ?_⟩
    change v.comments ++ _ = u.comments ++ _
    rw [h.comments, hbodies]

theorem Cut.next {u v : Unread} (h : Cut stop u v) (atEnd : Fault) :
    (v.tokens.all (·.kind.isComment) = true ∧ (Reader.next atEnd).run v = .error ⟨atEnd, stop⟩) ∨
      (v.tokens.all (·.kind.isComment) = false ∧ ∃ t u' v', (Reader.next atEnd).run u = .ok (t, u') ∧
        (Reader.next atEnd).run v = .ok (t, v') ∧ Cut stop u' v') := by
  rcases h.settle with hnone | ⟨t, ts, us, hts, hus, hrest, hcomments⟩
  . refine .inl ⟨leadingComments_eq_nil_iff.1 hnone, ?_⟩
    simp only [Reader.next, hnone, h.stop]
  . refine .inr ⟨Bool.eq_false_iff.2 fun hall => ?_, t, { u.settle with tokens := us },
      { v.settle with tokens := ts }, ?_, ?_, hrest, hcomments, h.stop⟩
    . cases hts.symm.trans (leadingComments_eq_nil_iff.2 hall)
    . simp only [Reader.next, hus]
    . simp only [Reader.next, hts]

theorem runsShort_next : RunsShort (Cut stop) stop next next := by
  intro u v h
  rcases h.next .unclosedArray with ⟨-, hv⟩ | ⟨-, t, u', v', hu, hv, hrest⟩
  . rw [hv]
    exact .of_short _
  . rw [hu, hv]
    exact .answer hrest

theorem runsShort_front : RunsShort (Cut stop) stop front front := by
  intro u v h
  rcases h.settle with hnone | ⟨t, ts, us, hts, hus, hrest, hcomments⟩
  . simp only [front, hnone, h.stop]
    exact .of_short _
  . simp only [front, hts, hus]
    refine .answer ⟨?_, hcomments, h.stop⟩
    rw [hts, hus]
    exact (List.prefix_cons_inj t).2 hrest

theorem runsShort_takeMarkers : RunsShort (Cut stop) stop takeMarkers takeMarkers := by
  intro u v h
  change EndsShort _ _ (.ok (markers u.comments, { u with comments := [] }))
    (.ok (markers v.comments, { v with comments := [] }))
  rw [h.comments]
  exact .answer ⟨h.tokens, rfl, h.stop⟩

theorem runsShort_dropComments : RunsShort (Cut stop) stop dropComments dropComments := by
  intro u v h
  change EndsShort _ _ (.ok ((), { u with comments := [] })) (.ok ((), { v with comments := [] }))
  exact .answer ⟨h.tokens, rfl, h.stop⟩

section Steps

variable {A : Unread → Unread → Prop}

/--
States of which the second runs out of tokens, if anything happens, where the next one is taken or looked at.
-/
structure StepsShort (A : Unread → Unread → Prop) (stop : Position) : Prop where
  next : RunsShort A stop next next
  front : RunsShort A stop front front

theorem stepsShort_cut : StepsShort (Cut stop) stop where
  next := runsShort_next
  front := runsShort_front

theorem StepsShort.bounded (h : StepsShort A stop) (n m : Nat) :
    StepsShort (fun u v => A u v ∧ u.tokens.length ≤ n ∧ v.tokens.length ≤ m) stop where
  next := h.next.bounded n m
  front := h.front.bounded n m

variable (hsteps : StepsShort A stop)

include hsteps

theorem StepsShort.expect (kind : Kind) (wanted : String) :
    RunsShort A stop (expect kind wanted) (expect kind wanted) := by
  refine hsteps.next.bind fun t => ?_
  split
  . exact .pure t
  . exact .fail _ _

theorem StepsShort.expectString (owner : String) :
    RunsShort A stop (expectString owner) (expectString owner) := by
  refine hsteps.next.bind fun t => ?_
  split
  . exact .pure _
  . exact .fail _ _

theorem StepsShort.members {member member' : Key → α → Reader α}
    (hmember : ∀ key a, RunsShort A stop (member key a) (member' key a)) (a : α) :
    RunsShort A stop (members member a) (members member' a) := by
  refine RunsShort.loop (fun a => hsteps.next.bind fun t => ?_) a
  obtain ⟨kind, p⟩ := t
  cases kind
  case rightBrace => exact .pure _
  case string name | word name =>
    refine (hsteps.expect _ _).bind fun _ => (hmember _ a).bind fun a => hsteps.next.bind fun t => ?_
    split
    . exact .pure _
    . exact .pure _
    . exact .fail _ _
  all_goals exact .fail _ _

theorem StepsShort.foldItems {item item' : α → Reader α} (hitem : ∀ a, RunsShort A stop (item a) (item' a))
    (a : α) : RunsShort A stop (foldItems item a) (foldItems item' a) := by
  refine RunsShort.loop (fun a => hsteps.front.bind fun t => ?_) a
  split
  . exact hsteps.next.bind fun _ => .pure _
  . refine (hitem a).bind fun a => hsteps.next.bind fun t => ?_
    split
    . exact .pure _
    . exact .pure _
    . exact .fail _ _

end Steps

/-! Values that are dropped. -/

theorem runsShort_skipWithin (n m : Nat) :
    RunsShort (fun u v => Cut stop u v ∧ u.tokens.length ≤ n ∧ v.tokens.length ≤ m) stop (skipWithin n)
      (skipWithin m) := by
  induction n using Nat.strong_induction_on generalizing m with
  | h n ih =>
  intro u v ⟨h, hn, hm⟩
  have hnext := runsShort_next h
  generalize hu : next.run u = x at hnext
  generalize hv : next.run v = y at hnext
  obtain ⟨f, hf⟩ := exists_skipWithin_eq n
  obtain ⟨g, hg⟩ := exists_skipWithin_eq m
  cases hnext with
  | error =>
    rw [hf, run_bind, hu]
    exact .error
  | short =>
    rw [hg, run_bind, hv]
    exact .of_short _
  | @answer t u' v' hrest =>
    -- the token that was taken leaves room for one level less
    have hu' : u'.tokens.length < u.tokens.length := strict_next _ hu
    have hv' : v'.tokens.length < v.tokens.length := strict_next _ hv
    obtain ⟨n, rfl⟩ := Nat.exists_eq_succ_of_ne_zero (show n ≠ 0 by omega)
    obtain ⟨m, rfl⟩ := Nat.exists_eq_succ_of_ne_zero (show m ≠ 0 by omega)
    have hinner : ∀ r q : Reader Unit, RunsShort (fun u v => Cut stop u v ∧ u.tokens.length ≤ n ∧
        v.tokens.length ≤ m) stop r q → EndsShort (fun u v => Cut stop u v ∧ u.tokens.length ≤ n + 1 ∧
          v.tokens.length ≤ m + 1) stop (r.run u') (q.run v') := by
      intro r q hrq
      exact (hrq ⟨hrest, by omega, by omega⟩).imp fun _ _ ⟨h, hn, hm⟩ => ⟨h, by omega, by omega⟩
    unfold skipWithin
    rw [run_bind_of_run hu, run_bind_of_run hv]
    have ih := ih n (Nat.lt_succ_self n) m
    obtain ⟨kind, p⟩ := t
    cases kind
    case leftBrace => exact hinner _ _ ((stepsShort_cut.bounded n m).members (fun _ _ => ih) ())
    case leftBracket => exact hinner _ _ ((stepsShort_cut.bounded n m).foldItems (fun _ => ih) ())
    case string | number | truth | null => exact hinner _ _ (.pure ())
    all_goals exact .error

/-! The grammar. -/

/--
A reader that answers as it does on all tokens until there are none left.
-/
def Short (stop : Position) (r : Reader α) : Prop :=
  RunsShort (Cut stop) stop r r

theorem short_skip : Short stop skip := by
  intro u v h
  exact (runsShort_skipWithin u.tokens.length v.tokens.length ⟨h, Nat.le_refl _, Nat.le_refl _⟩).imp
    fun _ _ h => h.1

theorem short_expect (kind : Kind) (wanted : String) : Short stop (expect kind wanted) :=
  stepsShort_cut.expect kind wanted

theorem short_expectString (owner : String) : Short stop (expectString owner) :=
  stepsShort_cut.expectString owner

theorem short_items {item : Reader α} (h : Short stop item) : Short stop (items item) :=
  stepsShort_cut.foldItems (fun _ => RunsShort.bind h fun _ => .pure _) []

theorem short_object {place : Place} {property : Property → Option (α → Reader α)}
    (h : ∀ {p read}, property p = some read → ∀ a, Short stop (read a)) (a : α) :
    Short stop (Reader.object place property a) := by
  refine stepsShort_cut.members (fun key a => ?_) a
  split
  . exact .fail _ _
  . split
    . exact .fail _ _
    . next hread => exact h hread a

theorem short_writingSystemValue : Short stop writingSystemValue := by
  refine (short_expect _ _).bind fun _ => runsShort_next.bind fun t => ?_
  obtain ⟨kind, p⟩ := t
  cases kind
  case string system | word system =>
    refine (RunsShort.pure system).bind fun _ => (short_expect _ _).bind fun _ => (short_expect _ _).bind fun _ => ?_
    refine runsShort_next.bind fun t => ?_
    split
    . refine (short_expect _ _).bind fun _ => (short_expectString _).bind fun _ => ?_
      exact (short_expect _ _).bind fun _ => (short_expect _ _).bind fun _ => .pure _
    . exact .fail _ _
  all_goals exact fun _ _ _ => .error

theorem short_sense : Short stop Reader.sense := by
  refine (short_expect _ _).bind fun _ => ?_
  refine (short_object (fun {p read} hread children => ?_) []).bind fun _ =>
    runsShort_takeMarkers.bind fun _ => .pure _
  cases p <;> cases hread
  all_goals refine runsShort_takeMarkers.bind fun _ => ?_
  . exact short_writingSystemValue.bind fun _ => .pure _
  . exact short_writingSystemValue.bind fun _ => .pure _
  . exact short_skip.bind fun _ => .pure _

theorem short_senses : Short stop Reader.senses := by
  refine (short_expect _ _).bind fun _ => (short_items short_sense).bind fun _ =>
    runsShort_takeMarkers.bind fun _ => ?_
  split
  . exact .pure _
  . exact .fail _ _

theorem short_entry : Short stop Reader.entry := by
  refine (short_expect _ _).bind fun _ => ?_
  refine (short_object (fun {p read} hread draft => ?_) _).bind fun _ => runsShort_takeMarkers.bind fun _ => ?_
  . cases p <;> cases hread
    all_goals refine runsShort_takeMarkers.bind fun _ => ?_
    . exact short_writingSystemValue.bind fun _ => .pure _
    . exact short_senses.bind fun _ => .pure _
  . split
    . exact .pure _
    . exact .fail _ _

theorem short_messageProperty {p : Property} {read : Message → Reader Message}
    (hread : messageProperty p = some read) (m : Message) : Short stop (read m) := by
  cases p <;> cases hread
  all_goals exact (short_expectString _).bind fun _ => .pure _

theorem short_message : Short stop message := by
  refine (short_expect _ _).bind fun _ => ?_
  exact (short_object short_messageProperty _).bind fun _ => runsShort_dropComments.bind fun _ => .pure _

theorem short_reply : Short stop Reader.reply := by
  refine (short_expect _ _).bind fun _ => ?_
  refine (short_object (fun {p read} hread draft => ?_) _).bind fun _ => runsShort_dropComments.bind fun _ => ?_
  . cases p <;> cases hread
    . exact short_message.bind fun _ => .pure _
    . exact ((short_messageProperty (p := .status) rfl _).bind fun _ => .pure _).bind fun _ => .pure _
    . exact ((short_messageProperty (p := .value) rfl _).bind fun _ => .pure _).bind fun _ => .pure _
  . split
    . exact .pure _
    . exact .pure _
    . exact .fail _ _
    . exact .fail _ _

theorem short_note : Short stop Reader.note := by
  refine (short_expect _ _).bind fun _ => ?_
  refine (short_object (fun {p read} hread draft => ?_) _).bind fun _ =>
    runsShort_takeMarkers.bind fun _ => .pure _
  cases p <;> cases hread
  all_goals refine runsShort_takeMarkers.bind fun _ => ?_
  . exact (short_expectString _).bind fun _ => .pure _
  . exact (short_expectString _).bind fun _ => .pure _
  . exact short_message.bind fun _ => .pure _
  . exact (short_expect _ _).bind fun _ => (short_items short_reply).bind fun _ => .pure _
  . exact (short_expect _ _).bind fun _ => (short_items short_reply).bind fun _ => .pure _

theorem short_sectionList {item : Reader Node} (hitem : Short stop item) (name wanted : String) :
    Short stop (do
      let _ ← expect .leftBracket wanted
      let nodes ← items (do dropComments; item)
      dropComments
      return container name nodes : Reader Node) := by
  refine (short_expect _ _).bind fun _ => ?_
  exact (short_items (runsShort_dropComments.bind fun _ => hitem)).bind fun _ =>
    runsShort_dropComments.bind fun _ => .pure _

theorem short_sectionObject (sections : List Node) : Short stop (sectionObject sections) := by
  refine (short_expect _ _).bind fun _ => ?_
  refine (short_object (fun {p read} hread sections => ?_) sections).bind fun _ =>
    runsShort_dropComments.bind fun _ => .pure _
  cases p <;> cases hread
  all_goals refine runsShort_dropComments.bind fun _ => ?_
  . exact (short_sectionList short_entry _ _).bind fun _ => .pure _
  . exact (short_sectionList short_note _ _).bind fun _ => .pure _

/-! Fixtures. -/

def missingEnd (ts : List Token) : Fault :=
  if ts.all (·.kind.isComment) then .notAnArray else .unclosedArray

theorem ofTokens_of_unclosed {tokens : Tokens} {tree : Node} (h : ofTokens tokens = .ok tree) {before : List Token}
    (hbefore : before <+: tokens.list) (hunclosed : Unclosed (before.map Token.kind)) (stop : Position) :
    ofTokens ⟨before, stop⟩ = .error ⟨missingEnd before, stop⟩ := by
  obtain ⟨⟨_, x⟩, hrun, rfl⟩ := map_eq_ok_iff.1 h
  obtain ⟨t, u, hnext, hrun⟩ := run_bind_eq_ok_iff.1 hrun
  have hcut : Cut stop ⟨tokens.list, [], tokens.stop⟩ ⟨before, [], stop⟩ := ⟨hbefore, rfl, rfl⟩
  have herror (e : Rejection) (he : Reader.fixture.run ⟨before, [], stop⟩ = .error e) :
      ofTokens ⟨before, stop⟩ = .error e := by
    rw [ofTokens, he]
    rfl
  apply herror
  rcases hcut.next .notAnArray with ⟨hall, hv⟩ | ⟨hall, t', u', v, hu, hv, hrest⟩
  . rw [missingEnd, if_pos hall]
    change (next .notAnArray >>= _).run _ = _
    rw [run_bind, hv]
  . cases hu.symm.trans hnext
    refine (run_bind_of_run hv).trans ?_
    split at hrun
    case isFalse => cases hrun
    next ht =>
    obtain ⟨sections, w, hsections, hrun⟩ := run_bind_eq_ok_iff.1 hrun
    have hends := stepsShort_cut.foldItems short_sectionObject [] hrest
    rw [hsections] at hends
    generalize hfold : (foldItems sectionObject []).run v = y at hends
    cases hends with
    | answer =>
      -- the cut tokens would have to close the list
      obtain ⟨inner, hinner, hbefore⟩ := level_sections hv ht hfold
      obtain ⟨inside, after, hlist, hopened, -, hclosed, -⟩ := exists_closing hinner hbefore
      refine absurd hclosed (hunclosed _ ?_ (List.mem_append_left _ hopened))
      change inside ++ [_] <+: Unread.whole ⟨before, [], stop⟩
      exact hlist ▸ ⟨after, by simp⟩
    | short =>
      rw [if_pos ht, run_bind, hfold, missingEnd, hall]
      rfl

end LexiconAudit.Fixture
