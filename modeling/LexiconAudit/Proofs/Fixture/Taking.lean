import LexiconAudit.Proofs.Fixture.Placement

/-!
This module contains what the reader of fixtures takes off tokens whose comments stand in their places,
provided that it accepts them: the tokens of the members of an object or of the items of a list, if what
reads one member or one item takes the tokens of one.
-/

namespace LexiconAudit.Fixture

open Grammar Reading
open Reader hiding lexicon notes object sense entry note reply message senses fixture
open Text (Position)

variable {α β : Type}

/--
Where these brackets are open, the tokens taken off `ts` satisfy `P`, and no comment is left over.
-/
def Takes (frames : List Frame) (ts : List Token) (stop : Position) (v : Unread) (P : List Kind → Prop) :
    Prop :=
  ∃ taken rest, ts = taken ++ rest ∧ v = ⟨rest, [], stop⟩ ∧ P (taken.map Token.kind) ∧
    placedIn frames (rest.map Token.kind) = true

def Derives (frames : List Frame) (r : Reader α) (phrase : Phrase α) : Prop :=
  ∀ ⦃ts stop a v⦄, r.run ⟨ts, [], stop⟩ = .ok (a, v) → placedIn frames (ts.map Token.kind) = true →
    Takes frames ts stop v (phrase · a)

section Members

variable {scope : Scope} {outer : List Frame} {member : Key → α → Reader α}
  (value : String → Phrase β) (update : α → List String × β → α)

theorem Absences.of_admits {bodies : List String} {name : Option String} {k : Kind}
    (h : ∀ body ∈ bodies,
      (absentField? body).isSome = true ∧ admits (.object scope name :: outer) k = true) :
    Absences scope bodies := by
  intro body hbody
  obtain ⟨habsent, hadmits⟩ := h body hbody
  refine ⟨?_, habsent⟩
  unfold admits at hadmits
  split at hadmits <;> simp_all

def Closes (scope : Scope) (outer : List Frame) (ts : List Token) (stop : Position) (v : Unread)
    (bodies : List String) : Prop :=
  ∃ cs closing rest, ts = cs ++ closing :: rest ∧ cs.map Token.kind = bodies.map Kind.comment ∧
    closing.kind = .rightBrace ∧ Absences scope bodies ∧ v = ⟨rest, bodies, stop⟩ ∧
      placedIn outer (rest.map Token.kind) = true

theorem closes_of_next {name : Option String} {atEnd : Fault} {ts : List Token} {stop : Position} {t : Token}
    {v : Unread} (h : (next atEnd).run ⟨ts, [], stop⟩ = .ok (t, v))
    (hplaced : placedIn (.object scope name :: outer) (ts.map Token.kind) = true)
    (ht : t.kind = .rightBrace) : ∃ bodies, Closes scope outer ts stop v bodies := by
  obtain ⟨cs, bodies, rest, hts, hcs, rfl, hbodies, hrest⟩ := exists_tokens_of_next h hplaced
  rw [ht] at hrest
  exact ⟨bodies, cs, t, rest, hts, hcs, ht, Absences.of_admits hbodies, rfl, hrest⟩

theorem takes_membersRound
    (hmember : ∀ {name : String} {t : Token} {a a' : α} {bodies : List String} {ts : List Token}
      {stop : Position} {v : Unread}, Absences scope bodies →
        (member ⟨name, t⟩ a).run ⟨ts, bodies, stop⟩ = .ok (a', v) →
          placedIn (.object scope (some name) :: outer) (ts.map Token.kind) = true →
            Takes (.object scope (some name) :: outer) ts stop v
              fun ks => ∃ b, value name ks b ∧ a' = update a (bodies, b))
    {a : α} {ts : List Token} {stop : Position} {round : Reading.Round α α} {v : Unread}
    (h : (membersRound member a).run ⟨ts, [], stop⟩ = .ok (round, v))
    (hplaced : placedIn (.object scope none :: outer) (ts.map Token.kind) = true) :
    (round = .done a ∧ ∃ bodies, Closes scope outer ts stop v bodies) ∨
      ∃ taken rest b, ts = taken ++ rest ∧ Member scope value (taken.map Token.kind) b ∧
        ((round = .done (update a b) ∧ ∃ bodies, Closes scope outer rest stop v bodies) ∨
          (round = .again (update a b) ∧ ∃ comma rest', rest = comma :: rest' ∧ comma.kind = .comma ∧
            v = ⟨rest', [], stop⟩ ∧
              placedIn (.object scope none :: outer) (rest'.map Token.kind) = true)) := by
  obtain ⟨t, u, hnext, h⟩ := run_bind_eq_ok_iff.1 h
  split at h
  case h_1 ht =>
    cases h
    exact .inl ⟨rfl, closes_of_next hnext hplaced ht⟩
  case h_4 => cases h
  all_goals
    next name ht =>
    have hname : t.kind = .string name ∨ t.kind = .word name := by simp [ht]
    obtain ⟨cs, bodies, rest, rfl, hcs, rfl, hbodies, hrest⟩ := exists_tokens_of_next hnext hplaced
    have habsent := Absences.of_admits hbodies
    have hframes : advance (.object scope none :: outer) t.kind = .object scope (some name) :: outer := by
      rw [ht]
      rfl
    rw [hframes] at hrest
    obtain ⟨colon, u, hexpect, h⟩ := run_bind_eq_ok_iff.1 h
    obtain ⟨rest, rfl, hcolon, rfl, hrest⟩ := exists_tokens_of_expect hexpect hrest rfl
    obtain ⟨a', u, hrun, h⟩ := run_bind_eq_ok_iff.1 h
    obtain ⟨vs, rest, rfl, rfl, ⟨b, hvalue, rfl⟩, hrest⟩ := hmember habsent hrun hrest
    obtain ⟨behind, u, hnext', h⟩ := run_bind_eq_ok_iff.1 h
    refine .inr ⟨cs ++ t :: colon :: vs, rest, (bodies, b), by simp, ?_, ?_⟩
    . simp only [List.map_append, List.map_cons, hcs, hcolon]
      exact .mk habsent hname hvalue
    . split at h
      . next hbehind =>
        cases h
        obtain ⟨rest, rfl, rfl, hrest⟩ :=
          exists_tokens_of_next_plain hnext' hrest (by rw [hbehind]; rfl)
        exact .inr ⟨rfl, behind, rest, rfl, hbehind, rfl, by rwa [hbehind] at hrest⟩
      . next hbehind =>
        cases h
        exact .inl ⟨rfl, closes_of_next hnext' hrest hbehind⟩
      . cases h

theorem takes_members
    (hmember : ∀ {name : String} {t : Token} {a a' : α} {bodies : List String} {ts : List Token}
      {stop : Position} {v : Unread}, Absences scope bodies →
        (member ⟨name, t⟩ a).run ⟨ts, bodies, stop⟩ = .ok (a', v) →
          placedIn (.object scope (some name) :: outer) (ts.map Token.kind) = true →
            Takes (.object scope (some name) :: outer) ts stop v
              fun ks => ∃ b, value name ks b ∧ a' = update a (bodies, b))
    {a a' : α} {ts : List Token} {stop : Position} {v : Unread}
    (h : (members member a).run ⟨ts, [], stop⟩ = .ok (a', v))
    (hplaced : placedIn (.object scope none :: outer) (ts.map Token.kind) = true) :
    ∃ taken rest bs bodies, ts = taken ++ rest ∧ v = ⟨rest, bodies, stop⟩ ∧
      Object scope value (.leftBrace :: taken.map Token.kind) (bs, bodies) ∧
        a' = bs.foldl update a ∧ placedIn outer (rest.map Token.kind) = true := by
  have key : ∃ inner rest bs bodies, ts = inner ++ rest ∧
      Separated (Member scope value) (inner.map Token.kind) bs ∧
        a' = bs.foldl update a ∧ Closes scope outer rest stop v bodies := by
    refine loop_induction (P := fun a u a' v => ∀ ts, u = ⟨ts, [], stop⟩ →
      placedIn (.object scope none :: outer) (ts.map Token.kind) = true →
        ∃ inner rest bs bodies, ts = inner ++ rest ∧
          Separated (Member scope value) (inner.map Token.kind) bs ∧
            a' = bs.foldl update a ∧ Closes scope outer rest stop v bodies) ?_ ?_ h ts rfl hplaced
    . intro a u a' v hround ts hu hplaced
      subst hu
      rcases takes_membersRound value update hmember hround hplaced with
        ⟨hdone, bodies, hcloses⟩ | ⟨taken, rest, b, rfl, hb, ⟨hdone, bodies, hcloses⟩ | ⟨hagain, -⟩⟩
      . cases hdone
        exact ⟨[], ts, [], bodies, rfl, .none, rfl, hcloses⟩
      . cases hdone
        exact ⟨taken, rest, [b], bodies, rfl, .last hb, rfl, hcloses⟩
      . cases hagain
    . intro a u a₁ v a' w hround ih ts hu hplaced
      subst hu
      rcases takes_membersRound value update hmember hround hplaced with
        ⟨hdone, -⟩ | ⟨taken, rest, b, rfl, hb, ⟨hdone, -⟩ | ⟨hagain, comma, rest, rfl, hcomma, rfl, hrest⟩⟩
      . cases hdone
      . cases hdone
      . cases hagain
        -- the member of this round comes before those of the rounds that follow
        obtain ⟨inner, rest, bs, bodies, rfl, hbs, ha', hcloses⟩ := ih _ rfl hrest
        refine ⟨taken ++ comma :: inner, rest, b :: bs, bodies, by simp, ?_, ha', hcloses⟩
        rw [List.map_append, List.map_cons, hcomma]
        exact .next hb hbs
  obtain ⟨inner, rest, bs, bodies, rfl, hbs, ha', hcloses⟩ := key
  obtain ⟨cs, closing, rest, rfl, hcs, hclosing, habsent, rfl, hrest⟩ := hcloses
  refine ⟨inner ++ (cs ++ [closing]), rest, bs, bodies, by simp, rfl, ?_, ha', hrest⟩
  simp only [List.map_append, List.map_cons, List.map_nil, hcs, hclosing]
  rw [← List.append_assoc]
  exact .mk hbs habsent

end Members

section Items

variable {items : Scope} {outer : List Frame} {item : α → Reader α} (phrase : Phrase β) (update : α → β → α)

theorem takes_itemsRound
    (hitem : ∀ {a a' : α} {ts : List Token} {stop : Position} {v : Unread},
      (item a).run ⟨ts, [], stop⟩ = .ok (a', v) → placedIn (.list items :: outer) (ts.map Token.kind) = true →
        Takes (.list items :: outer) ts stop v fun ks => ∃ b, phrase ks b ∧ a' = update a b)
    {a : α} {ts : List Token} {stop : Position} {round : Reading.Round α α} {v : Unread}
    (h : (itemsRound item a).run ⟨ts, [], stop⟩ = .ok (round, v))
    (hplaced : placedIn (.list items :: outer) (ts.map Token.kind) = true) :
    ∃ taken behind rest, ts = taken ++ behind :: rest ∧ v = ⟨rest, [], stop⟩ ∧
      ((round = .done a ∧ taken = [] ∧ behind.kind = .rightBracket ∧
          placedIn outer (rest.map Token.kind) = true) ∨
        ∃ b, phrase (taken.map Token.kind) b ∧
          ((round = .done (update a b) ∧ behind.kind = .rightBracket ∧
              placedIn outer (rest.map Token.kind) = true) ∨
            (round = .again (update a b) ∧ behind.kind = .comma ∧
              placedIn (.list items :: outer) (rest.map Token.kind) = true))) := by
  obtain ⟨t, u, hfront, h⟩ := run_bind_eq_ok_iff.1 h
  obtain ⟨rfl, rest, rfl⟩ := exists_tokens_of_front hfront hplaced rfl
  split at h
  -- the bracket was only looked at, so it is still there to be taken
  . next ht =>
    obtain ⟨t', u, hnext, h⟩ := run_bind_eq_ok_iff.1 h
    obtain ⟨rest, hts, rfl, hrest⟩ := exists_tokens_of_next_plain hnext hplaced rfl
    cases hts
    cases h
    rw [ht] at hrest
    exact ⟨[], t, rest, rfl, rfl, .inl ⟨rfl, rfl, ht, hrest⟩⟩
  . obtain ⟨a', u, hrun, h⟩ := run_bind_eq_ok_iff.1 h
    obtain ⟨taken, rest, hts, rfl, ⟨b, hb, rfl⟩, hrest⟩ := hitem hrun hplaced
    obtain ⟨behind, u, hnext, h⟩ := run_bind_eq_ok_iff.1 h
    obtain ⟨rest, rfl, rfl, hrest⟩ := exists_tokens_of_next_plain hnext hrest rfl
    split at h
    . next hbehind =>
      cases h
      rw [hbehind] at hrest
      exact ⟨taken, behind, rest, hts, rfl, .inr ⟨b, hb, .inr ⟨rfl, hbehind, hrest⟩⟩⟩
    . next hbehind =>
      cases h
      rw [hbehind] at hrest
      exact ⟨taken, behind, rest, hts, rfl, .inr ⟨b, hb, .inl ⟨rfl, hbehind, hrest⟩⟩⟩
    . cases h

theorem takes_foldItems
    (hitem : ∀ {a a' : α} {ts : List Token} {stop : Position} {v : Unread},
      (item a).run ⟨ts, [], stop⟩ = .ok (a', v) → placedIn (.list items :: outer) (ts.map Token.kind) = true →
        Takes (.list items :: outer) ts stop v fun ks => ∃ b, phrase ks b ∧ a' = update a b)
    {a a' : α} {ts : List Token} {stop : Position} {v : Unread}
    (h : (foldItems item a).run ⟨ts, [], stop⟩ = .ok (a', v))
    (hplaced : placedIn (.list items :: outer) (ts.map Token.kind) = true) :
    Takes outer ts stop v fun ks =>
      ∃ bs, Listed phrase (.leftBracket :: ks) bs ∧ a' = bs.foldl update a := by
  have key : ∃ inner closing rest bs, ts = inner ++ closing :: rest ∧ closing.kind = .rightBracket ∧
      Separated phrase (inner.map Token.kind) bs ∧ a' = bs.foldl update a ∧ v = ⟨rest, [], stop⟩ ∧
        placedIn outer (rest.map Token.kind) = true := by
    refine loop_induction (P := fun a u a' v => ∀ ts, u = ⟨ts, [], stop⟩ →
      placedIn (.list items :: outer) (ts.map Token.kind) = true →
        ∃ inner closing rest bs, ts = inner ++ closing :: rest ∧ closing.kind = .rightBracket ∧
          Separated phrase (inner.map Token.kind) bs ∧ a' = bs.foldl update a ∧ v = ⟨rest, [], stop⟩ ∧
            placedIn outer (rest.map Token.kind) = true) ?_ ?_ h ts rfl hplaced
    . intro a u a' v hround ts hu hplaced
      subst hu
      obtain ⟨taken, behind, rest, rfl, rfl, hcases⟩ := takes_itemsRound phrase update hitem hround hplaced
      rcases hcases with
        ⟨hdone, rfl, hbehind, hrest⟩ | ⟨b, hb, ⟨hdone, hbehind, hrest⟩ | ⟨hagain, -⟩⟩
      . cases hdone
        exact ⟨[], behind, rest, [], rfl, hbehind, .none, rfl, rfl, hrest⟩
      . cases hdone
        exact ⟨taken, behind, rest, [b], rfl, hbehind, .last hb, rfl, rfl, hrest⟩
      . cases hagain
    . intro a u a₁ v a' w hround ih ts hu hplaced
      subst hu
      obtain ⟨taken, behind, rest, rfl, rfl, hcases⟩ := takes_itemsRound phrase update hitem hround hplaced
      rcases hcases with ⟨hdone, -⟩ | ⟨b, hb, ⟨hdone, -⟩ | ⟨hagain, hbehind, hrest⟩⟩
      . cases hdone
      . cases hdone
      . cases hagain
        obtain ⟨inner, closing, rest, bs, rfl, hclosing, hbs, ha', hv, hrest⟩ := ih _ rfl hrest
        refine ⟨taken ++ behind :: inner, closing, rest, b :: bs, by simp, hclosing, ?_, ha', hv, hrest⟩
        rw [List.map_append, List.map_cons, hbehind]
        exact .next hb hbs
  obtain ⟨inner, closing, rest, bs, rfl, hclosing, hbs, ha', hv, hrest⟩ := key
  refine ⟨inner ++ [closing], rest, by simp, hv, ⟨bs, ?_, ha'⟩, hrest⟩
  rw [List.map_append, List.map_singleton, hclosing]
  exact .mk hbs

end Items

/-! Objects and lists with their brackets. -/

theorem Grammar.Object.eq_nil {scope : Scope} {value : String → Phrase β} {ks : List Kind}
    {members : List (List String × β)} {bodies : List String}
    (h : Object scope value ks (members, bodies)) (hscope : scope.marked = false) : bodies = [] := by
  cases h with
  | mk _ habsent => exact habsent.eq_nil hscope

theorem takes_object {scope : Scope} {outer : List Frame} {place : Place}
    {property : Property → Option (α → Reader α)} (phrase : Property → Phrase β)
    (update : α → List String × β → α)
    (hproperty : ∀ {p : Property} {name : String} {read : α → Reader α} {a a' : α} {bodies : List String}
      {ts : List Token} {stop : Position} {v : Unread}, Property.ofName? name = some p →
        property p = some read → Absences scope bodies → (read a).run ⟨ts, bodies, stop⟩ = .ok (a', v) →
          placedIn (.object scope (some name) :: outer) (ts.map Token.kind) = true →
            Takes (.object scope (some name) :: outer) ts stop v
              fun ks => ∃ b, phrase p ks b ∧ a' = update a (bodies, b))
    {a a' : α} {ts : List Token} {stop : Position} {v : Unread}
    (h : (Reader.object place property a).run ⟨ts, [], stop⟩ = .ok (a', v))
    (hplaced : placedIn (.object scope none :: outer) (ts.map Token.kind) = true) :
    ∃ taken rest bs bodies, ts = taken ++ rest ∧ v = ⟨rest, bodies, stop⟩ ∧
      Object scope (Known phrase) (.leftBrace :: taken.map Token.kind) (bs, bodies) ∧
        a' = bs.foldl update a ∧ placedIn outer (rest.map Token.kind) = true := by
  refine takes_members (Known phrase) update ?_ h hplaced
  intro name t a a' bodies ts stop v habsent hrun hplaced
  split at hrun
  . cases hrun
  . next p hp =>
    split at hrun
    . cases hrun
    . next read hread =>
      obtain ⟨taken, rest, hts, hv, ⟨b, hb, ha'⟩, hrest⟩ := hproperty hp hread habsent hrun hplaced
      exact ⟨taken, rest, hts, hv, ⟨b, ⟨p, hp, hb⟩, ha'⟩, hrest⟩

theorem admits_leftBrace (frames : List Frame) : admits frames .leftBrace = false := by
  unfold admits
  split <;> simp_all

theorem admits_leftBracket (frames : List Frame) : admits frames .leftBracket = false := by
  unfold admits
  split <;> simp_all

theorem takes_braced {γ : Type} {frames : List Frame} {place : Place}
    {property : Property → Option (α → Reader α)} (phrase : Property → Phrase β)
    (update : α → List String × β → α) {wanted : String} {a : α} {f : Token → α → Reader γ}
    {ts : List Token} {stop : Position} {c : γ} {v : Unread}
    (h : (expect .leftBrace wanted >>= fun t => Reader.object place property a >>= f t).run ⟨ts, [], stop⟩ =
      .ok (c, v))
    (hplaced : placedIn frames (ts.map Token.kind) = true)
    (hproperty : ∀ {p : Property} {name : String} {read : α → Reader α} {a a' : α} {bodies : List String}
      {ts : List Token} {stop : Position} {v : Unread}, Property.ofName? name = some p →
        property p = some read → Absences (objectScope frames) bodies →
          (read a).run ⟨ts, bodies, stop⟩ = .ok (a', v) →
            placedIn (.object (objectScope frames) (some name) :: frames) (ts.map Token.kind) = true →
              Takes (.object (objectScope frames) (some name) :: frames) ts stop v
                fun ks => ∃ b, phrase p ks b ∧ a' = update a (bodies, b)) :
    ∃ t taken rest bs bodies, ts = taken ++ rest ∧
      Object (objectScope frames) (Known phrase) (taken.map Token.kind) (bs, bodies) ∧
        (f t (bs.foldl update a)).run ⟨rest, bodies, stop⟩ = .ok (c, v) ∧
          placedIn frames (rest.map Token.kind) = true := by
  obtain ⟨t, u, hexpect, h⟩ := run_bind_eq_ok_iff.1 h
  obtain ⟨rest, rfl, ht, rfl, hrest⟩ := exists_tokens_of_expect hexpect hplaced (admits_leftBrace frames)
  obtain ⟨a', u, hobject, h⟩ := run_bind_eq_ok_iff.1 h
  obtain ⟨taken, rest, bs, bodies, rfl, rfl, hbs, rfl, hrest⟩ :=
    takes_object phrase update hproperty hobject hrest
  exact ⟨t, t :: taken, rest, bs, bodies, rfl, by rwa [List.map_cons, ht], h, hrest⟩

theorem takes_bracketed {γ : Type} {frames : List Frame} {phrase : Phrase β} {item : Reader β}
    (hitem : Derives (.list (listScope frames) :: frames) item phrase) {wanted : String}
    {f : Token → List β → Reader γ} {ts : List Token} {stop : Position} {c : γ} {v : Unread}
    (h : (expect .leftBracket wanted >>= fun t => items item >>= f t).run ⟨ts, [], stop⟩ = .ok (c, v))
    (hplaced : placedIn frames (ts.map Token.kind) = true) :
    ∃ t taken rest bs, ts = taken ++ rest ∧ Listed phrase (taken.map Token.kind) bs ∧
      (f t bs).run ⟨rest, [], stop⟩ = .ok (c, v) ∧ placedIn frames (rest.map Token.kind) = true := by
  obtain ⟨t, u, hexpect, h⟩ := run_bind_eq_ok_iff.1 h
  obtain ⟨rest, rfl, ht, rfl, hrest⟩ := exists_tokens_of_expect hexpect hplaced (admits_leftBracket frames)
  obtain ⟨as, u, hitems, h⟩ := run_bind_eq_ok_iff.1 h
  have htakes := takes_foldItems phrase (fun as b => as ++ [b]) (by
    intro as as' ts stop v hrun hplaced
    obtain ⟨b, u, hb, hrun⟩ := run_bind_eq_ok_iff.1 hrun
    cases hrun
    obtain ⟨taken, rest, hts, hu, hphrase, hrest⟩ := hitem hb hplaced
    exact ⟨taken, rest, hts, hu, ⟨b, hphrase, rfl⟩, hrest⟩) hitems hrest
  obtain ⟨taken, rest, rfl, rfl, ⟨bs, hbs, rfl⟩, hrest⟩ := htakes
  refine ⟨t, t :: taken, rest, bs, rfl, by rwa [List.map_cons, ht], ?_, hrest⟩
  simpa [← List.flatMap_def] using h

end LexiconAudit.Fixture
