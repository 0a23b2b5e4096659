import LexiconAudit.Proofs.Fixture.Balance
import LexiconAudit.Proofs.Fixture.Derivation

/-!
This module contains that parts of speech leave no trace: the property may be put anywhere between the properties
of a sense, with a value of any shape, and the tokens still spell the same tree.
-/

namespace LexiconAudit.Fixture

open Grammar Reading
open Reader hiding lexicon notes object sense entry note reply message senses fixture

variable {α : Type} {property : List Kind} {base : List Frame}

/-! Places for a property. -/

/--
What is put in front of a token to add this property to the sense that is open there: the property and the comma
that parts it from the next one or from the last one.
-/
inductive Inserts (property : List Kind) : List Frame → Option Kind → List Kind → Prop where
  | front {outer : List Frame} {k : Kind} :
    Inserts property (.object .sense none :: outer) (some k) (property ++ [.comma])
  | last {outer : List Frame} : Inserts property (.object .sense none :: outer) (some .rightBrace) property
  | behind {name : String} {outer : List Frame} {k : Kind} : k = .comma ∨ k = .rightBrace →
    Inserts property (.object .sense (some name) :: outer) (some k) (.comma :: property)

def AtSense (frames : List Frame) : Prop :=
  ∃ name outer, frames = .object .sense name :: outer

theorem not_atSense_list {items : Scope} : ¬AtSense (.list items :: base) := by
  rintro ⟨_, _, heq⟩
  cases heq

theorem not_atSense_object {scope : Scope} {name : Option String} (hscope : scope ≠ .sense) :
    ¬AtSense (.object scope name :: base) := by
  rintro ⟨_, _, heq⟩
  cases heq
  exact hscope rfl

theorem Inserts.atSense {frames : List Frame} {k? : Option Kind} {inserted : List Kind}
    (h : Inserts property frames k? inserted) : AtSense frames := by
  cases h with
  | front => exact ⟨_, _, rfl⟩
  | last => exact ⟨_, _, rfl⟩
  | behind => exact ⟨_, _, rfl⟩

theorem Inserts.ne_nil {frames : List Frame} {after inserted : List Kind}
    (h : Inserts property frames after.head? inserted) : after ≠ [] := by
  rintro rfl
  cases h

/--
What this phrase derives stays derivable if the property is put into a sense inside.
-/
def Grows (property : List Kind) (base : List Frame) (phrase : Phrase α) : Prop :=
  ∀ ⦃before after inserted a⦄, phrase (before ++ after) a → CommentFree (before ++ after) →
    Inserts property (before.foldl advance base) after.head? inserted → phrase (before ++ inserted ++ after) a

/-! Values without senses. -/

def Grammar.Scope.isSenseless : Scope → Bool
  | note | other => true
  | part | entry | sense => false

def Frame.isSenseless : Frame → Bool
  | object scope _ => scope.isSenseless
  | list items => items.isSenseless

theorem isSenseless_scopes {frame : Frame} (h : frame.isSenseless = true) (frames : List Frame) :
    (objectScope (frame :: frames)).isSenseless = true ∧ (listScope (frame :: frames)).isSenseless = true := by
  cases frame with
  | list items => exact ⟨h, rfl⟩
  | object scope name =>
    refine ⟨rfl, ?_⟩
    cases name with
    | none => rfl
    | some name =>
      cases scope with
      | part | entry | sense => cases h
      | note | other => rfl

theorem upholds_isSenseless (hobject : (objectScope base).isSenseless = true)
    (hlist : (listScope base).isSenseless = true) (hplain : ∀ k : Kind, k.isPlain = true → advance base k = base) :
    Upholds (·.isSenseless = true) base where
  object := hobject
  list := hlist
  inside _ frames h := isSenseless_scopes h frames
  named _ _ _ h := h
  plain := hplain

theorem upholds_isSenseless_property {scope : Scope} {name : String}
    (hlist : listScope (.object scope (some name) :: base) = .other) :
    Upholds (·.isSenseless = true) (.object scope (some name) :: base) := by
  refine upholds_isSenseless rfl ?_ advance_of_isPlain
  rw [hlist]
  rfl

theorem Shifts.begins {k : Kind} {e : Nat} (h : Shifts 0 k e) : k ≠ .comma ∧ k ≠ .rightBrace := by
  constructor
  all_goals
    rintro rfl
    cases h with
    | opening hk => rcases hk with hk | hk <;> cases hk
    | plain hk => cases hk

theorem not_inserts_of_isSenseless (hbase : Upholds (·.isSenseless = true) base)
    (hnamed : ∀ outer, base ≠ .object .sense none :: outer) {before after inserted : List Kind}
    (h : Nested 0 (before ++ after) 0) : ¬Inserts property (before.foldl advance base) after.head? inserted := by
  intro hplace
  obtain ⟨m, hbefore, hafter⟩ := h.exists_between
  have hempty : ([] : List Frame).length = 0 := rfl
  obtain ⟨inner, hlength, hinner, hframes⟩ := hbase.foldl_advance hbefore hempty nofun
  rw [List.nil_append] at hframes
  rw [hframes] at hplace
  cases inner with
  | cons frame inner =>
    have hframe := hinner frame List.mem_cons_self
    obtain ⟨name, outer, heq⟩ := hplace.atSense
    cases heq
    cases hframe
  | nil =>
    -- the next token begins a value, so that it is neither a comma nor a closing bracket
    cases hlength
    cases hafter with
    | nil => cases hplace
    | @cons k ks _ _ _ hk _ =>
      cases hplace with
      | front => exact hnamed _ rfl
      | last => exact hnamed _ rfl
      | behind h =>
        rcases h with rfl | rfl
        . exact absurd rfl hk.begins.1
        . exact absurd rfl hk.begins.2

theorem grows_of_isSenseless {phrase : Phrase α} (hphrase : Balanced phrase)
    (hbase : Upholds (·.isSenseless = true) base) (hnamed : ∀ outer, base ≠ .object .sense none :: outer) :
    Grows property base phrase := by
  intro before after inserted a h hfree hplace
  exact absurd hplace (not_inserts_of_isSenseless hbase hnamed (hphrase h hfree))

/-! Lists, and objects that are no senses. -/

theorem place_cases {before after ks ks' : List Kind} {k : Kind} (h : before ++ after = ks ++ k :: ks') :
    (∃ inside, before ++ inside = ks ∧ after = inside ++ k :: ks') ∨
      ∃ inside, before = ks ++ k :: inside ∧ inside ++ after = ks' := by
  rcases List.append_eq_append_iff.1 h with ⟨inside, rfl, rfl⟩ | ⟨inside, rfl, htail⟩
  . exact .inl ⟨inside, rfl, rfl⟩
  . rcases List.cons_eq_append_iff.1 htail with ⟨rfl, rfl⟩ | ⟨inside, rfl, rfl⟩
    . exact .inl ⟨[], by simp, rfl⟩
    . exact .inr ⟨inside, rfl, rfl⟩

theorem exists_inside {before after ks : List Kind} {k : Kind} (h : before ++ after = ks ++ [k])
    (hafter : after ≠ []) : ∃ inside, after = inside ++ [k] ∧ before ++ inside = ks := by
  rcases place_cases h with ⟨inside, rfl, rfl⟩ | ⟨inside, -, hinside⟩
  . exact ⟨inside, rfl, rfl⟩
  . exact absurd (List.append_eq_nil_iff.1 hinside).2 hafter

section Separated

variable {start : List Frame} {item : Phrase α} {closing : Kind}

theorem Grows.separated (hitem : Grows property start item) (hstart : ¬AtSense start)
    (hend : ∀ {ks a}, item ks a → CommentFree ks →
      ¬AtSense (ks.foldl advance start) ∧ advance (ks.foldl advance start) .comma = start)
    {before after inserted : List Kind} {as : List α} (h : Separated item (before ++ after) as)
    (hfree : CommentFree (before ++ after))
    (hplace : Inserts property (before.foldl advance start) (after ++ [closing]).head? inserted) :
    Separated item (before ++ inserted ++ after) as := by
  generalize hks : before ++ after = ks at h hfree
  induction h generalizing before after with
  | none =>
    obtain ⟨rfl, rfl⟩ := List.append_eq_nil_iff.1 hks
    exact absurd hplace.atSense hstart
  | last h =>
    subst hks
    by_cases hafter : after = []
    . subst hafter
      rw [List.append_nil] at h hfree
      exact absurd hplace.atSense (hend h hfree).1
    . rw [List.head?_append_of_ne_nil _ hafter] at hplace
      exact .last (hitem h hfree hplace)
  | @next ks ks' a as h h' ih =>
    obtain ⟨hfree, hfree'⟩ := commentFree_append.1 hfree
    have hbehind := hend h hfree
    rcases place_cases hks with ⟨inside, rfl, rfl⟩ | ⟨inside, rfl, rfl⟩
    . by_cases hinside : inside = []
      . subst hinside
        rw [List.append_nil] at hbehind
        exact absurd hplace.atSense hbehind.1
      . rw [List.append_assoc, List.head?_append_of_ne_nil _ hinside] at hplace
        have hgrown := Separated.next (hitem h hfree hplace) h'
        simpa using hgrown
    . rw [List.foldl_append, List.foldl_cons, hbehind.2] at hplace
      have hgrown := Separated.next h (ih hplace rfl (commentFree_cons.1 hfree').2)
      simpa using hgrown

end Separated

theorem Grows.listed {items : Scope} {item : Phrase α} (hscope : listScope base = items)
    (hitem : Grows property (.list items :: base) item) (hbalanced : Balanced item) (hbase : ¬AtSense base) :
    Grows property base (Listed item) := by
  subst hscope
  intro before after inserted as h hfree hplace
  generalize hks : before ++ after = ks at h
  obtain ⟨h⟩ := h
  cases before with
  | nil => exact absurd hplace.atSense hbase
  | cons bracket before =>
    obtain ⟨rfl, htail⟩ := List.cons.inj hks
    obtain ⟨inside, rfl, rfl⟩ := exists_inside htail hplace.ne_nil
    rw [List.cons_append, ← List.append_assoc] at hfree
    have hinside := (commentFree_append.1 (commentFree_cons.1 hfree).2).1
    have hgrown := Listed.mk (hitem.separated ?_ ?_ h hinside hplace)
    . simpa using hgrown
    . exact not_atSense_list
    . intro ks a h hfree
      rw [(hbalanced h hfree).foldl_advance_eq advance_list_of_isPlain]
      exact ⟨not_atSense_list, rfl⟩

section Object

variable {scope : Scope} {value : String → Phrase α}

theorem member_cases (base : List Frame) {before after : List Kind} {m : List String × α}
    (h : Member scope value (before ++ after) m) (hfree : CommentFree (before ++ after)) :
    (before = [] ∧ ∃ name, after.head? = some (.string name) ∨ after.head? = some (.word name)) ∨
      (∃ name, before.foldl advance (.object scope none :: base) = .object scope (some name) :: base ∧
        after.head? = some .colon) ∨
      ∃ k name inside a, before = k :: .colon :: inside ∧ (k = .string name ∨ k = .word name) ∧ m = ([], a) ∧
        before.foldl advance (.object scope none :: base) =
          inside.foldl advance (.object scope (some name) :: base) ∧
        value name (inside ++ after) a ∧ CommentFree (inside ++ after) := by
  generalize hks : before ++ after = ks at h hfree
  obtain @⟨bodies, k, name, ks, a, -, hk, h⟩ := h
  obtain ⟨hbodies, hmember⟩ := commentFree_append.1 hfree
  cases hbodies.eq_nil
  match before with
  | [] =>
    cases hks
    rcases hk with rfl | rfl
    . exact .inl ⟨rfl, name, .inl rfl⟩
    . exact .inl ⟨rfl, name, .inr rfl⟩
  | [_] =>
    cases hks
    rcases hk with rfl | rfl
    . exact .inr (.inl ⟨name, rfl, rfl⟩)
    . exact .inr (.inl ⟨name, rfl, rfl⟩)
  | _ :: _ :: inside =>
    cases hks
    have hinside := (commentFree_cons.1 (commentFree_cons.1 hmember).2).2
    refine .inr (.inr ⟨k, name, inside, a, rfl, hk, rfl, ?_, h, hinside⟩)
    rcases hk with rfl | rfl
    . rfl
    . rfl

theorem exists_foldl_advance_of_member (base : List Frame) (hbalanced : ∀ name, Balanced (value name))
    {ks : List Kind} {m : List String × α} (h : Member scope value ks m) (hfree : CommentFree ks) :
    ∃ name, ks.foldl advance (.object scope none :: base) = .object scope (some name) :: base := by
  rw [← List.append_nil ks] at h hfree
  rcases member_cases base h hfree with
    ⟨-, _, h | h⟩ | ⟨name, -, h⟩ | ⟨_, name, inside, a, -, -, -, hframes, hvalue, hinside⟩
  . cases h
  . cases h
  . cases h
  . rw [List.append_nil] at hvalue hinside
    exact ⟨name, hframes.trans ((hbalanced name hvalue hinside).foldl_advance_eq advance_of_isPlain)⟩

theorem grows_member (hscope : scope ≠ .sense)
    (hvalue : ∀ name, Grows property (.object scope (some name) :: base) (value name)) :
    Grows property (.object scope none :: base) (Member scope value) := by
  intro before after inserted m h hfree hplace
  rcases member_cases base h hfree with
    ⟨rfl, -⟩ | ⟨name, hframes, -⟩ | ⟨k, name, inside, a, rfl, hk, rfl, hframes, h, hinside⟩
  . exact absurd hplace.atSense (not_atSense_object hscope)
  . rw [hframes] at hplace
    exact absurd hplace.atSense (not_atSense_object hscope)
  . rw [hframes] at hplace
    have habsent : Absences scope [] := nofun
    exact Member.mk habsent hk (hvalue name h hinside hplace)

theorem object_inside {before after : List Kind} {members : List (List String × α)} {bodies : List String}
    (h : Object scope value (before ++ after) (members, bodies)) (hfree : CommentFree (before ++ after))
    (hbefore : before ≠ []) (hafter : after ≠ []) :
    ∃ before' after', before = .leftBrace :: before' ∧ after = after' ++ [.rightBrace] ∧ bodies = [] ∧
      Separated (Member scope value) (before' ++ after') members ∧ CommentFree (before' ++ after') := by
  generalize hks : before ++ after = ks at h hfree
  obtain @⟨ks, _, _, h, -⟩ := h
  obtain ⟨hinside, -⟩ := commentFree_append.1 (commentFree_cons.1 hfree).2
  cases (commentFree_append.1 hinside).2.eq_nil
  rw [List.map_nil, List.append_nil] at hks hinside
  rcases List.append_eq_cons_iff.1 hks with ⟨rfl, -⟩ | ⟨before', rfl, htail⟩
  . exact absurd rfl hbefore
  . obtain ⟨after', rfl, rfl⟩ := exists_inside htail.symm hafter
    exact ⟨before', after', rfl, rfl, rfl, h, hinside⟩

theorem object_of_separated {ks : List Kind} {members : List (List String × α)}
    (h : Separated (Member scope value) ks members) :
    Object scope value (.leftBrace :: (ks ++ [.rightBrace])) (members, []) := by
  have habsent : Absences scope [] := nofun
  simpa using Object.mk h habsent

theorem Grows.object (hscope : objectScope base ≠ .sense) (hbase : ¬AtSense base)
    (hvalue : ∀ name, Grows property (.object (objectScope base) (some name) :: base) (value name))
    (hbalanced : ∀ name, Balanced (value name)) : Grows property base (Object (objectScope base) value) := by
  intro before after inserted x h hfree hplace
  obtain ⟨members, bodies⟩ := x
  have hbefore : before ≠ [] := by
    rintro rfl
    exact hbase hplace.atSense
  obtain ⟨before, after, rfl, rfl, rfl, h, hinside⟩ := object_inside h hfree hbefore hplace.ne_nil
  have hgrown := (grows_member hscope hvalue).separated (not_atSense_object hscope) ?_ h hinside hplace
  . simpa using object_of_separated hgrown
  . intro ks m h hfree
    obtain ⟨name, hframes⟩ := exists_foldl_advance_of_member base hbalanced h hfree
    rw [hframes]
    exact ⟨not_atSense_object hscope, rfl⟩

end Object

/-! Senses. -/

theorem eq_nil_of_inserts {before after inserted : List Kind} {m : List String × List Node}
    (h : Member .sense (Known SenseProperty) (before ++ after) m) (hfree : CommentFree (before ++ after))
    (hplace : Inserts property (before.foldl advance (.object .sense none :: base)) after.head? inserted) :
    before = [] ∧ inserted = property ++ [.comma] := by
  rcases member_cases base h hfree with
    ⟨rfl, name, hfirst⟩ | ⟨name, hframes, hfirst⟩ | ⟨k, name, inside, nodes, -, -, -, hframes, hvalue, hinside⟩
  . rcases hfirst with hfirst | hfirst
    all_goals
      rw [hfirst] at hplace
      cases hplace
      exact ⟨rfl, rfl⟩
  . rw [hframes, hfirst] at hplace
    cases hplace with
    | behind h => rcases h with h | h <;> cases h
  . rw [hframes] at hplace
    have hlist : listScope (.object .sense (some name) :: base) = .other := rfl
    have hbase := upholds_isSenseless_property hlist
    exact absurd hplace (not_inserts_of_isSenseless hbase nofun (balanced_senseProperty name hvalue hinside))

theorem exists_separated_of_inserts (hproperty : Member .sense (Known SenseProperty) property ([], []))
    {before after inserted : List Kind} {members : List (List String × List Node)}
    (h : Separated (Member .sense (Known SenseProperty)) (before ++ after) members)
    (hfree : CommentFree (before ++ after))
    (hplace : Inserts property (before.foldl advance (.object .sense none :: base))
      (after ++ [Kind.rightBrace]).head? inserted) :
    ∃ ms ms', members = ms ++ ms' ∧
      Separated (Member .sense (Known SenseProperty)) (before ++ inserted ++ after) (ms ++ ([], []) :: ms') := by
  -- the place is in front of the first member, right behind it or among the others
  generalize hks : before ++ after = ks at h hfree
  induction h generalizing before after with
  | none =>
    obtain ⟨rfl, rfl⟩ := List.append_eq_nil_iff.1 hks
    refine ⟨[], [], rfl, ?_⟩
    cases hplace with
    | front => simpa using Separated.next hproperty .none
    | last => simpa using Separated.last hproperty
  | @last ks m h =>
    subst hks
    by_cases hafter : after = []
    . subst hafter
      rw [List.append_nil] at h hfree
      obtain ⟨name, hframes⟩ := exists_foldl_advance_of_member base balanced_senseProperty h hfree
      rw [hframes] at hplace
      cases hplace
      exact ⟨[m], [], rfl, by simpa using Separated.next h (.last hproperty)⟩
    . rw [List.head?_append_of_ne_nil _ hafter] at hplace
      obtain ⟨rfl, rfl⟩ := eq_nil_of_inserts h hfree hplace
      exact ⟨[], [m], rfl, by simpa using Separated.next hproperty (.last h)⟩
  | @next ks ks' m ms h h' ih =>
    obtain ⟨hfree, hfree'⟩ := commentFree_append.1 hfree
    obtain ⟨name, hframes⟩ := exists_foldl_advance_of_member base balanced_senseProperty h hfree
    rcases place_cases hks with ⟨inside, rfl, rfl⟩ | ⟨inside, rfl, rfl⟩
    . by_cases hinside : inside = []
      . subst hinside
        rw [List.append_nil] at h hframes
        rw [hframes] at hplace
        cases hplace
        exact ⟨[m], ms, rfl, by simpa using Separated.next h (.next hproperty h')⟩
      . rw [List.append_assoc, List.head?_append_of_ne_nil _ hinside] at hplace
        obtain ⟨rfl, rfl⟩ := eq_nil_of_inserts h hfree hplace
        exact ⟨[], m :: ms, rfl, by simpa using Separated.next hproperty (.next h h')⟩
    . rw [List.foldl_append, hframes] at hplace
      obtain ⟨ms, ms', rfl, hgrown⟩ := ih hplace rfl (commentFree_cons.1 hfree').2
      exact ⟨m :: ms, ms', rfl, by simpa using Separated.next h hgrown⟩

theorem childrenOf_append_cons (ms ms' : List (List String × List Node)) (bodies : List String) :
    childrenOf (ms ++ ([], []) :: ms') bodies = childrenOf (ms ++ ms') bodies := by
  simp [childrenOf, markers]

theorem grows_sense (hproperty : Member .sense (Known SenseProperty) property ([], [])) :
    Grows property (.list .sense :: base) Sense := by
  intro before after inserted node h hfree hplace
  obtain @⟨_, members, bodies, h⟩ := h
  have hbefore : before ≠ [] := by
    rintro rfl
    exact not_atSense_list hplace.atSense
  obtain ⟨before, after, rfl, rfl, rfl, h, hinside⟩ := object_inside h hfree hbefore hplace.ne_nil
  obtain ⟨ms, ms', rfl, hgrown⟩ := exists_separated_of_inserts hproperty h hinside hplace
  rw [← childrenOf_append_cons]
  simpa using Sense.mk (object_of_separated hgrown)

/-! Entries, notes and the whole fixture. -/

section Document

variable (hproperty : Member .sense (Known SenseProperty) property ([], []))

include hproperty

theorem grows_entryProperty (name : String) :
    Grows property (.object .entry (some name) :: base) (Known EntryProperty name) := by
  rintro before after inserted part ⟨p, hname, h⟩ hfree hplace
  refine ⟨p, hname, ?_⟩
  cases h with
  | lexeme h =>
    have hlist : listScope (.object .entry (some name) :: base) = .other := by simp [listScope, hname]
    have hbase := upholds_isSenseless_property hlist
    have hnamed (outer : List Frame) : .object .entry (some name) :: base ≠ .object .sense none :: outer := by
      rintro ⟨⟩
    exact .lexeme (grows_of_isSenseless balanced_writingSystemValue hbase hnamed h hfree hplace)
  | senses h =>
    have hlist : listScope (.object .entry (some name) :: base) = .sense := by simp [listScope, hname]
    have hsenses := Grows.listed hlist (grows_sense hproperty) balanced_sense (not_atSense_object (by decide))
    exact .senses (hsenses h hfree hplace)

theorem grows_entry : Grows property (.list .entry :: base) Entry := by
  intro before after inserted node h hfree hplace
  obtain ⟨h, hlexeme⟩ := h
  have hobject : Grows property (.list .entry :: base) (Object .entry (Known EntryProperty)) :=
    Grows.object nofun not_atSense_list (grows_entryProperty hproperty) balanced_entryProperty
  exact .mk (hobject h hfree hplace) hlexeme

theorem grows_sectionProperty (name : String) :
    Grows property (.object .part (some name) :: base) (Known SectionProperty name) := by
  rintro before after inserted node ⟨p, hname, h⟩ hfree hplace
  refine ⟨p, hname, ?_⟩
  cases h with
  | lexicon h =>
    have hlist : listScope (.object .part (some name) :: base) = .entry := by simp [listScope, hname]
    have hentries := Grows.listed hlist (grows_entry hproperty) balanced_entry (not_atSense_object (by decide))
    exact .lexicon (hentries h hfree hplace)
  | notes h =>
    have hlist : listScope (.object .part (some name) :: base) = .note := by simp [listScope, hname]
    have hnote : Grows property (.list .note :: .object .part (some name) :: base) Note := by
      apply grows_of_isSenseless balanced_note (upholds_isSenseless rfl rfl advance_list_of_isPlain)
      rintro _ ⟨⟩
    have hnotes := Grows.listed hlist hnote balanced_note (not_atSense_object (by decide))
    exact .notes (hnotes h hfree hplace)

theorem grows_part : Grows property (.list .part :: base) Grammar.Part := by
  intro before after inserted nodes h hfree hplace
  obtain ⟨h⟩ := h
  have hobject : Grows property (.list .part :: base) (Object .part (Known SectionProperty)) :=
    Grows.object nofun not_atSense_list (grows_sectionProperty hproperty) balanced_sectionProperty
  exact .mk (hobject h hfree hplace)

theorem grows_document : Grows property [] Document := by
  intro before after inserted tree h hfree hplace
  obtain ⟨h⟩ := h
  have hbase : ¬AtSense [] := nofun
  exact .mk (Grows.listed rfl (grows_part hproperty) balanced_part hbase h hfree hplace)

end Document

/-! Parts of speech. -/

theorem CommentFree.placedIn {ks : List Kind} (h : CommentFree ks) (frames : List Frame) :
    placedIn frames ks = true := by
  induction ks generalizing frames with
  | nil => rfl
  | cons k ks ih =>
    rw [commentFree_cons] at h
    rw [placedIn_cons h.1]
    exact ih h.2 _

/--
Put into a sense of a text without comments that the reader accepts, in front of any of its properties or behind the
last one, a part of speech of any shape changes nothing: the reader accepts the text and answers the same tree.
-/
theorem ofTokens_insert_partOfSpeech {tokens tokens' : Tokens} {tree : Node} {k : Kind}
    {value before after inserted : List Kind} (h : ofTokens tokens = .ok tree)
    (hkinds : tokens.list.map Token.kind = before ++ after) (hfree : CommentFree (before ++ after))
    (hk : k = .string "partOfSpeech" ∨ k = .word "partOfSpeech") (hvalue : Value value ())
    (hplace : Inserts (k :: .colon :: value) (before.foldl advance []) after.head? inserted)
    (hkinds' : tokens'.list.map Token.kind = before ++ inserted ++ after) : ofTokens tokens' = .ok tree := by
  have hname : Property.ofName? "partOfSpeech" = some .partOfSpeech := rfl
  have habsent : Absences .sense [] := nofun
  have hproperty : Member .sense (Known SenseProperty) (k :: .colon :: value) ([], []) :=
    Member.mk habsent hk ⟨_, hname, .partOfSpeech hvalue⟩
  have hplaced : Placed (tokens.list.map Token.kind) := by
    rw [hkinds]
    exact hfree.placedIn []
  have hdocument := derives_of_ofTokens h hplaced
  rw [hkinds] at hdocument
  apply ofTokens_of_derives
  rw [hkinds']
  exact grows_document hproperty hdocument hfree hplace

/-! A sense with a gloss and a comma behind it, and a part of speech whose value is nested. -/

def upToGloss : List Kind :=
  [.leftBracket, .leftBrace, .word "lexicon", .colon, .leftBracket,
    .leftBrace, .word "lexeme", .colon, .leftBrace, .word "en", .colon, .leftBrace, .word "value", .colon,
    .string "sun", .rightBrace, .rightBrace, .comma, .string "senses", .colon, .leftBracket,
    .leftBrace, .word "gloss", .colon, .leftBrace, .word "en", .colon, .leftBrace, .word "value", .colon,
    .string "star", .rightBrace, .rightBrace]

def behindGloss : List Kind :=
  [.comma, .rightBrace, .rightBracket, .rightBrace, .rightBracket, .rightBrace, .rightBracket]

def nestedValue : List Kind :=
  [.leftBrace, .word "tags", .colon, .leftBracket, .number "1", .comma,
    .leftBrace, .string "lexeme", .colon, .null, .comma, .rightBrace, .comma, .rightBracket, .comma, .rightBrace]

def glossedTree : Node :=
  container Node.rootName [container Node.lexiconName [container Node.entryName
    [lexemeForm "en" "sun", container Node.sensesName [container Node.senseName [Reader.gloss "en" "star"]]]]]

def atStart (ks : List Kind) : Tokens where
  list := ks.map (⟨·, Text.Position.start⟩)
  stop := Text.Position.start

theorem kinds_atStart (ks : List Kind) : (atStart ks).list.map Token.kind = ks := by
  simp [atStart, Function.comp_def]

theorem value_nestedValue : Value nestedValue () := by
  have habsent : Absences .other [] := nofun
  have hlexeme : Member .other (fun _ => Value) [.string "lexeme", .colon, .null] ([], ()) :=
    Member.mk habsent (.inl rfl) Value.null
  have hobject := Value.object (object_of_separated (.next hlexeme .none))
  have hlist := Value.list (.mk (.next (.number "1") (.next hobject .none)))
  have htags : Member .other (fun _ => Value) (.word "tags" :: .colon :: _) ([], ()) :=
    Member.mk habsent (.inr rfl) hlist
  exact Value.object (object_of_separated (.next htags .none))

theorem ofTokens_insert_partOfSpeech_behindGloss :
    ofTokens (atStart (upToGloss ++ behindGloss)) = .ok glossedTree ∧ CommentFree (upToGloss ++ behindGloss) ∧
      Value nestedValue () ∧
      Inserts (.word "partOfSpeech" :: .colon :: nestedValue) (upToGloss.foldl advance []) behindGloss.head?
        (.comma :: .word "partOfSpeech" :: .colon :: nestedValue) ∧
      ofTokens (atStart (upToGloss ++ .comma :: .word "partOfSpeech" :: .colon :: nestedValue ++ behindGloss)) =
        .ok glossedTree := by
  have htree : ofTokens (atStart (upToGloss ++ behindGloss)) = .ok glossedTree := by with_unfolding_all rfl
  have hfree : CommentFree (upToGloss ++ behindGloss) := by
    unfold CommentFree
    decide
  have hframes : upToGloss.foldl advance [] = .object .sense (some "gloss") ::
      [.list .sense, .object .entry (some "senses"), .list .entry, .object .part (some "lexicon"), .list .part] := by
    decide
  have hplace : Inserts (.word "partOfSpeech" :: .colon :: nestedValue) (upToGloss.foldl advance [])
      behindGloss.head? (.comma :: .word "partOfSpeech" :: .colon :: nestedValue) := by
    rw [hframes]
    exact .behind (.inl rfl)
  exact ⟨htree, hfree, value_nestedValue, hplace, ofTokens_insert_partOfSpeech htree (kinds_atStart _) hfree
    (.inr rfl) value_nestedValue hplace (kinds_atStart _)⟩

end LexiconAudit.Fixture
