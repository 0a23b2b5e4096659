import LexiconAudit.Proofs.Fixture.Grammar
import LexiconAudit.Proofs.Reading

/-!
This module contains how the reader of fixtures runs over tokens that are given: single steps with the
comments in front of them, and whole objects and lists whose members and items are known to be read.
-/

namespace LexiconAudit.Fixture

open Grammar Reading
open Reader hiding lexicon notes object sense entry note reply message senses fixture
open Text (Position)

variable {α β : Type}

/-! Steps over tokens in front of which comments stand. -/

def Kind.isComment : Kind → Bool
  | comment _ => true
  | _ => false

theorem leadingComments_cons {t : Token} (ht : t.kind.isComment = false) (ts : List Token) :
    leadingComments (t :: ts) = ([], t :: ts) := by
  unfold leadingComments
  split
  . next heq =>
    cases heq
    cases ht
  . rfl

theorem leadingComments_append {cs : List Token} {bodies : List String}
    (hcs : cs.map Token.kind = bodies.map Kind.comment) {t : Token} (ht : t.kind.isComment = false)
    (ts : List Token) : leadingComments (cs ++ t :: ts) = (bodies, t :: ts) := by
  induction cs generalizing bodies with
  | nil =>
    cases bodies with
    | nil => exact leadingComments_cons ht ts
    | cons => cases hcs
  | cons c cs ih =>
    obtain ⟨kind, position⟩ := c
    cases bodies with
    | nil => cases hcs
    | cons body bodies =>
      simp only [List.map_cons, List.cons.injEq] at hcs
      rw [List.cons_append, hcs.1, leadingComments, ih hcs.2]

theorem run_next {cs : List Token} {bodies : List String}
    (hcs : cs.map Token.kind = bodies.map Kind.comment) {t : Token} (ht : t.kind.isComment = false)
    {atEnd : Fault} {ts : List Token} {comments : List String} {stop : Position} :
    (next atEnd).run ⟨cs ++ t :: ts, comments, stop⟩ = .ok (t, ⟨ts, comments ++ bodies, stop⟩) := by
  simp [next, Unread.settle, leadingComments_append hcs ht]

theorem run_next_cons {t : Token} (ht : t.kind.isComment = false) {atEnd : Fault} {ts : List Token}
    {comments : List String} {stop : Position} :
    (next atEnd).run ⟨t :: ts, comments, stop⟩ = .ok (t, ⟨ts, comments, stop⟩) := by
  simp [next, Unread.settle, leadingComments_cons ht]

theorem run_front_cons {t : Token} (ht : t.kind.isComment = false) {ts : List Token}
    {comments : List String} {stop : Position} :
    front.run ⟨t :: ts, comments, stop⟩ = .ok (t, ⟨t :: ts, comments, stop⟩) := by
  simp [front, Unread.settle, leadingComments_cons ht]

theorem run_expect {k : Kind} {t : Token} (ht : t.kind = k) (hk : k.isComment = false)
    {wanted : String} {ts : List Token} {comments : List String} {stop : Position} :
    (expect k wanted).run ⟨t :: ts, comments, stop⟩ = .ok (t, ⟨ts, comments, stop⟩) := by
  unfold expect
  rw [run_bind_of_run (run_next_cons (ht ▸ hk)), if_pos ht]
  rfl

theorem run_expectString {t : Token} {text : String} (ht : t.kind = .string text)
    {owner : String} {ts : List Token} {comments : List String} {stop : Position} :
    (expectString owner).run ⟨t :: ts, comments, stop⟩ = .ok (text, ⟨ts, comments, stop⟩) := by
  unfold expectString
  rw [run_bind_of_run (run_next_cons (by rw [ht]; rfl)), ht]
  rfl

@[simp]
theorem run_takeMarkers (ts : List Token) (comments : List String) (stop : Position) :
    takeMarkers.run ⟨ts, comments, stop⟩ = .ok (markers comments, ⟨ts, [], stop⟩) := rfl

@[simp]
theorem run_dropComments (ts : List Token) (comments : List String) (stop : Position) :
    dropComments.run ⟨ts, comments, stop⟩ = .ok ((), ⟨ts, [], stop⟩) := rfl

/-! Members of objects and items of lists. -/

section Members

variable {scope : Scope} {value : String → Phrase β} {member : Key → α → Reader α}

theorem run_members_of_done {a b : α} {u v : Unread}
    (h : (membersRound member a).run u = .ok (.done b, v)) :
    (members member a).run u = .ok (b, v) :=
  run_loop_of_done h

theorem run_members_of_again {a b : α} {u v : Unread}
    (h : (membersRound member a).run u = .ok (.again b, v)) :
    (members member a).run u = (members member b).run v :=
  run_loop_of_again h

theorem run_membersRound_of_close {cs : List Token} {bodies : List String}
    (hcs : cs.map Token.kind = bodies.map Kind.comment) {t : Token} (ht : t.kind = .rightBrace) {a : α}
    {ts : List Token} {stop : Position} :
    (membersRound member a).run ⟨cs ++ t :: ts, [], stop⟩ = .ok (.done a, ⟨ts, bodies, stop⟩) := by
  unfold membersRound
  rw [run_bind_of_run (run_next hcs (by rw [ht]; rfl)), ht]
  rfl

theorem run_membersRound_of_member {cs : List Token} {bodies : List String}
    (hcs : cs.map Token.kind = bodies.map Kind.comment) {t colon : Token} {name : String}
    (ht : t.kind = .string name ∨ t.kind = .word name) (hcolon : colon.kind = .colon) {a a' : α}
    {ts : List Token} {stop : Position} {u v : Unread}
    (hmember : (member ⟨name, t⟩ a).run ⟨ts, bodies, stop⟩ = .ok (a', u)) {behind : Token}
    (hnext : next.run u = .ok (behind, v)) {round : Round α α}
    (hround : behind.kind = .comma ∧ round = .again a' ∨ behind.kind = .rightBrace ∧ round = .done a') :
    (membersRound member a).run ⟨cs ++ t :: colon :: ts, [], stop⟩ = .ok (round, v) := by
  have hcomment : t.kind.isComment = false := by
    rcases ht with ht | ht <;> rw [ht] <;> rfl
  unfold membersRound
  rw [run_bind_of_run (run_next hcs hcomment)]
  rcases ht with ht | ht
  all_goals
    simp only [ht, List.nil_append]
    rw [run_bind_of_run (run_expect hcolon rfl), run_bind_of_run hmember, run_bind_of_run hnext]
    rcases hround with ⟨hbehind, rfl⟩ | ⟨hbehind, rfl⟩ <;> rw [hbehind] <;> rfl

theorem Grammar.Absences.eq_nil {scope : Scope} {bodies : List String} (h : Absences scope bodies)
    (hscope : scope.marked = false) : bodies = [] := by
  cases bodies with
  | nil => rfl
  | cons body bodies =>
    have := (h body List.mem_cons_self).1
    rw [hscope] at this
    cases this

theorem Grammar.Member.exists_tokens {ts : List Token} {b : List String × β}
    (h : Member scope value (ts.map Token.kind) b) :
    ∃ cs t colon vs name, ts = cs ++ t :: colon :: vs ∧ cs.map Token.kind = b.1.map Kind.comment ∧
      (t.kind = .string name ∨ t.kind = .word name) ∧ colon.kind = .colon ∧ Absences scope b.1 ∧
        value name (vs.map Token.kind) b.2 := by
  generalize hks : ts.map Token.kind = ks at h
  obtain ⟨habsent, hname, hvalue⟩ := h
  obtain ⟨cs, ts, rfl, hcs, hrest⟩ := List.map_eq_append_iff.1 hks
  obtain ⟨t, ts, rfl, ht, hrest⟩ := List.map_eq_cons_iff.1 hrest
  obtain ⟨colon, vs, rfl, hcolon, hvs⟩ := List.map_eq_cons_iff.1 hrest
  exact ⟨cs, t, colon, vs, _, rfl, hcs, ht ▸ hname, hcolon, habsent, hvs ▸ hvalue⟩

theorem run_members (update : α → List String × β → α)
    (hmember : ∀ {key : Key} {a : α} {bodies : List String} {b : β} {ts rest : List Token} {stop : Position},
      Absences scope bodies → value key.name (ts.map Token.kind) b →
        (member key a).run ⟨ts ++ rest, bodies, stop⟩ = .ok (update a (bodies, b), ⟨rest, [], stop⟩))
    {ks : List Kind} {bs : List (List String × β)} (hbs : Separated (Member scope value) ks bs)
    {ts cs : List Token} (hts : ts.map Token.kind = ks) {bodies : List String}
    (hcs : cs.map Token.kind = bodies.map Kind.comment) {brace : Token} (hbrace : brace.kind = .rightBrace)
    {a : α} {rest : List Token} {stop : Position} :
    (members member a).run ⟨ts ++ (cs ++ brace :: rest), [], stop⟩ =
      .ok (bs.foldl update a, ⟨rest, bodies, stop⟩) := by
  induction hbs generalizing ts a with
  | none =>
    cases List.map_eq_nil_iff.1 hts
    exact run_members_of_done (run_membersRound_of_close hcs hbrace)
  | last hitem =>
    obtain ⟨cs', t, colon, vs, name, rfl, hcs', hname, hcolon, habsent, hvalue⟩ :=
      Member.exists_tokens (hts ▸ hitem)
    simp only [List.append_assoc, List.cons_append]
    apply run_members_of_done
    apply run_membersRound_of_member hcs' hname hcolon (hmember habsent hvalue)
    . exact run_next hcs (by rw [hbrace]; rfl)
    . exact .inr ⟨hbrace, rfl⟩
  | next hitem _ ih =>
    obtain ⟨ts, ts', rfl, hfirst, hrest⟩ := List.map_eq_append_iff.1 hts
    obtain ⟨comma, ts', rfl, hcomma, hrest⟩ := List.map_eq_cons_iff.1 hrest
    obtain ⟨cs', t, colon, vs, name, rfl, hcs', hname, hcolon, habsent, hvalue⟩ :=
      Member.exists_tokens (hfirst ▸ hitem)
    simp only [List.append_assoc, List.cons_append]
    rw [run_members_of_again]
    . exact ih hrest
    . apply run_membersRound_of_member hcs' hname hcolon (hmember habsent hvalue)
      . exact run_next_cons (by rw [hcomma]; rfl)
      . exact .inl ⟨hcomma, rfl⟩

end Members

section Items

variable {phrase : Phrase β} {item : α → Reader α}

/--
A phrase that cannot be taken for the end of a list or for a comment.
-/
def Opens (phrase : Phrase β) : Prop :=
  ∀ ⦃ks b⦄, phrase ks b → ∃ k ∈ ks.head?, k.isComment = false ∧ k ≠ .rightBracket

theorem run_foldItems_of_done {a b : α} {u v : Unread}
    (h : (itemsRound item a).run u = .ok (.done b, v)) :
    (foldItems item a).run u = .ok (b, v) :=
  run_loop_of_done h

theorem run_foldItems_of_again {a b : α} {u v : Unread}
    (h : (itemsRound item a).run u = .ok (.again b, v)) :
    (foldItems item a).run u = (foldItems item b).run v :=
  run_loop_of_again h

theorem run_itemsRound_of_close {t : Token} (ht : t.kind = .rightBracket) {a : α} {ts : List Token}
    {stop : Position} :
    (itemsRound item a).run ⟨t :: ts, [], stop⟩ = .ok (.done a, ⟨ts, [], stop⟩) := by
  have hcomment : t.kind.isComment = false := by rw [ht]; rfl
  unfold itemsRound
  rw [run_bind_of_run (run_front_cons hcomment), if_pos ht]
  rw [run_bind_of_run (run_next_cons hcomment)]
  rfl

theorem run_itemsRound_of_item {ts : List Token} {k : Kind} (hk : k ∈ (ts.map Token.kind).head?)
    (hcomment : k.isComment = false) (hclose : k ≠ .rightBracket) {a a' : α} {stop : Position}
    {rest : List Token} {behind : Token}
    (hitem : (item a).run ⟨ts ++ behind :: rest, [], stop⟩ = .ok (a', ⟨behind :: rest, [], stop⟩))
    {round : Reading.Round α α}
    (hround : behind.kind = .comma ∧ round = .again a' ∨ behind.kind = .rightBracket ∧ round = .done a') :
    (itemsRound item a).run ⟨ts ++ behind :: rest, [], stop⟩ = .ok (round, ⟨rest, [], stop⟩) := by
  cases ts with
  | nil => cases hk
  | cons t ts =>
    cases hk
    have hbehind : behind.kind.isComment = false := by
      rcases hround with ⟨h, -⟩ | ⟨h, -⟩ <;> rw [h] <;> rfl
    rw [List.cons_append] at hitem ⊢
    unfold itemsRound
    rw [run_bind_of_run (run_front_cons hcomment), if_neg hclose]
    rw [run_bind_of_run hitem, run_bind_of_run (run_next_cons hbehind)]
    rcases hround with ⟨h, rfl⟩ | ⟨h, rfl⟩ <;> rw [h] <;> rfl

theorem run_foldItems (update : α → β → α) (hopens : Opens phrase)
    (hitem : ∀ {a : α} {b : β} {ts rest : List Token} {stop : Position}, phrase (ts.map Token.kind) b →
      (item a).run ⟨ts ++ rest, [], stop⟩ = .ok (update a b, ⟨rest, [], stop⟩))
    {ks : List Kind} {bs : List β} (hbs : Separated phrase ks bs) {ts : List Token}
    (hts : ts.map Token.kind = ks) {bracket : Token} (hbracket : bracket.kind = .rightBracket) {a : α}
    {rest : List Token} {stop : Position} :
    (foldItems item a).run ⟨ts ++ bracket :: rest, [], stop⟩ =
      .ok (bs.foldl update a, ⟨rest, [], stop⟩) := by
  induction hbs generalizing ts a with
  | none =>
    cases List.map_eq_nil_iff.1 hts
    exact run_foldItems_of_done (run_itemsRound_of_close hbracket)
  | last hb =>
    subst hts
    obtain ⟨k, hk, hcomment, hclose⟩ := hopens hb
    apply run_foldItems_of_done
    exact run_itemsRound_of_item hk hcomment hclose (hitem hb) (.inr ⟨hbracket, rfl⟩)
  | next hb _ ih =>
    obtain ⟨ts, ts', rfl, rfl, hrest⟩ := List.map_eq_append_iff.1 hts
    obtain ⟨comma, ts', rfl, hcomma, hrest⟩ := List.map_eq_cons_iff.1 hrest
    obtain ⟨k, hk, hcomment, hclose⟩ := hopens hb
    rw [List.append_assoc, List.cons_append, run_foldItems_of_again]
    . exact ih hrest
    . exact run_itemsRound_of_item hk hcomment hclose (hitem hb) (.inl ⟨hcomma, rfl⟩)

end Items

/-! Objects and lists with their brackets. -/

/--
A reader accepts a phrase if it takes exactly the tokens of the phrase, whatever follows them.
-/
def Accepts (phrase : Phrase α) (r : Reader α) : Prop :=
  ∀ ⦃ts a⦄, phrase (ts.map Token.kind) a →
    ∀ rest stop, r.run ⟨ts ++ rest, [], stop⟩ = .ok (a, ⟨rest, [], stop⟩)

theorem Accepts.dropComments {phrase : Phrase α} {r : Reader α} (h : Accepts phrase r) :
    Accepts phrase (do dropComments; r) := by
  intro ts a hphrase rest stop
  rw [run_bind_of_run (run_dropComments _ _ _), h hphrase]

theorem Opens.object {scope : Scope} {value : String → Phrase β} : Opens (Object scope value) := by
  intro ks b h
  cases h
  exact ⟨.leftBrace, rfl, rfl, nofun⟩

theorem Opens.listed {phrase : Phrase β} : Opens (Listed phrase) := by
  intro ks b h
  cases h
  exact ⟨.leftBracket, rfl, rfl, nofun⟩

theorem Grammar.Listed.exists_tokens {phrase : Phrase β} {ts : List Token} {bs : List β}
    (h : Listed phrase (ts.map Token.kind) bs) :
    ∃ opening inner closing, ts = opening :: (inner ++ [closing]) ∧ opening.kind = .leftBracket ∧
      closing.kind = .rightBracket ∧ Separated phrase (inner.map Token.kind) bs := by
  generalize hks : ts.map Token.kind = ks at h
  obtain ⟨hbs⟩ := h
  obtain ⟨opening, ts, rfl, hopening, hrest⟩ := List.map_eq_cons_iff.1 hks
  obtain ⟨inner, ts, rfl, hinner, hrest⟩ := List.map_eq_append_iff.1 hrest
  obtain ⟨closing, ts, rfl, hclosing, hrest⟩ := List.map_eq_cons_iff.1 hrest
  cases List.map_eq_nil_iff.1 hrest
  exact ⟨opening, inner, closing, rfl, hopening, hclosing, hinner ▸ hbs⟩

theorem Grammar.Object.exists_tokens {scope : Scope} {value : String → Phrase β} {ts : List Token}
    {bs : List (List String × β)} {bodies : List String}
    (h : Object scope value (ts.map Token.kind) (bs, bodies)) :
    ∃ opening inner cs closing, ts = opening :: (inner ++ (cs ++ [closing])) ∧
      opening.kind = .leftBrace ∧ closing.kind = .rightBrace ∧
      cs.map Token.kind = bodies.map Kind.comment ∧ Absences scope bodies ∧
        Separated (Member scope value) (inner.map Token.kind) bs := by
  generalize hks : ts.map Token.kind = ks at h
  obtain ⟨hbs, habsent⟩ := h
  obtain ⟨opening, ts, rfl, hopening, hrest⟩ := List.map_eq_cons_iff.1 hks
  obtain ⟨ts, ts', rfl, hbody, hclose⟩ := List.map_eq_append_iff.1 hrest
  obtain ⟨closing, ts', rfl, hclosing, hend⟩ := List.map_eq_cons_iff.1 hclose
  cases List.map_eq_nil_iff.1 hend
  obtain ⟨inner, cs, rfl, hinner, hcs⟩ := List.map_eq_append_iff.1 hbody
  exact ⟨opening, inner, cs, closing, by simp, hopening, hclosing, hcs, habsent, hinner ▸ hbs⟩

theorem run_items {phrase : Phrase β} {item : Reader β} (hopens : Opens phrase) (hitem : Accepts phrase item)
    {inner : List Token} {bs : List β} (hbs : Separated phrase (inner.map Token.kind) bs) {closing : Token}
    (hclosing : closing.kind = .rightBracket) {rest : List Token} {stop : Position} :
    (items item).run ⟨inner ++ closing :: rest, [], stop⟩ = .ok (bs, ⟨rest, [], stop⟩) := by
  unfold items
  rw [run_foldItems (fun as b => as ++ [b]) hopens _ hbs rfl hclosing]
  . simp [← List.flatMap_def]
  . intro as b ts rest stop hb
    rw [run_bind_of_run (hitem hb rest stop)]
    rfl

theorem run_object (update : α → List String × β → α) {scope : Scope} {place : Place}
    {property : Property → Option (α → Reader α)} {phrase : Property → Phrase β}
    (hproperty : ∀ {p : Property} {a : α} {bodies : List String} {b : β} {ts rest : List Token}
      {stop : Position}, Absences scope bodies → phrase p (ts.map Token.kind) b → ∃ read, property p = some read ∧
        (read a).run ⟨ts ++ rest, bodies, stop⟩ = .ok (update a (bodies, b), ⟨rest, [], stop⟩))
    {inner : List Token} {bs : List (List String × β)}
    (hbs : Separated (Member scope (Known phrase)) (inner.map Token.kind) bs)
    {cs : List Token} {bodies : List String} (hcs : cs.map Token.kind = bodies.map Kind.comment)
    {closing : Token} (hclosing : closing.kind = .rightBrace) {a : α} {rest : List Token} {stop : Position} :
    (Reader.object place property a).run ⟨inner ++ (cs ++ closing :: rest), [], stop⟩ =
      .ok (bs.foldl update a, ⟨rest, bodies, stop⟩) := by
  unfold Reader.object
  apply run_members update _ hbs rfl hcs hclosing
  intro key a bodies b ts rest stop habsent hvalue
  obtain ⟨p, hp, hvalue⟩ := hvalue
  obtain ⟨read, hread, hrun⟩ := hproperty habsent hvalue
  simp only [hp, hread]
  exact hrun

theorem run_braced (update : α → List String × β → α) {scope : Scope} {place : Place}
    {property : Property → Option (α → Reader α)} {phrase : Property → Phrase β}
    (hproperty : ∀ {p : Property} {a : α} {bodies : List String} {b : β} {ts rest : List Token}
      {stop : Position}, Absences scope bodies → phrase p (ts.map Token.kind) b → ∃ read, property p = some read ∧
        (read a).run ⟨ts ++ rest, bodies, stop⟩ = .ok (update a (bodies, b), ⟨rest, [], stop⟩))
    {ts : List Token} {bs : List (List String × β)} {bodies : List String}
    (h : Object scope (Known phrase) (ts.map Token.kind) (bs, bodies)) {γ : Type} {wanted : String} {a : α}
    {f : Token → α → Reader γ} {rest : List Token} {stop : Position} {answer : Except Rejection (γ × Unread)}
    (hf : ∀ brace, (f brace (bs.foldl update a)).run ⟨rest, bodies, stop⟩ = answer) :
    (do
      let brace ← expect .leftBrace wanted
      let a ← Reader.object place property a
      f brace a : Reader γ).run ⟨ts ++ rest, [], stop⟩ = answer := by
  obtain ⟨opening, inner, cs, closing, rfl, hopening, hclosing, hcs, -, hinner⟩ := Object.exists_tokens h
  simp only [List.cons_append, List.append_assoc, List.nil_append]
  rw [run_bind_of_run (run_expect hopening rfl)]
  rw [run_bind_of_run (run_object update hproperty hinner hcs hclosing)]
  exact hf opening

theorem run_bracketed {phrase : Phrase β} {item : Reader β} (hopens : Opens phrase)
    (hitem : Accepts phrase item) {ts : List Token} {bs : List β} (h : Listed phrase (ts.map Token.kind) bs)
    {γ : Type} {wanted : String} {f : Token → List β → Reader γ} {rest : List Token} {stop : Position}
    {answer : Except Rejection (γ × Unread)} (hf : ∀ bracket, (f bracket bs).run ⟨rest, [], stop⟩ = answer) :
    (do
      let bracket ← expect .leftBracket wanted
      let bs ← items item
      f bracket bs : Reader γ).run ⟨ts ++ rest, [], stop⟩ = answer := by
  obtain ⟨opening, inner, closing, rfl, hopening, hclosing, hinner⟩ := Listed.exists_tokens h
  simp only [List.cons_append, List.append_assoc, List.nil_append]
  rw [run_bind_of_run (run_expect hopening rfl), run_bind_of_run (run_items hopens hitem hinner hclosing)]
  exact hf opening

end LexiconAudit.Fixture
