import LexiconAudit.Proofs.Fixture.Acceptance
import LexiconAudit.Proofs.Fixture.Taking

/-!
This module contains the other half of the correctness of the reader of fixtures: whatever it accepts has a
derivation, and what it answers is the value of that derivation. Together with the first half this makes
the reader and the grammar one relation on tokens whose comments stand in their places.
-/

namespace LexiconAudit.Fixture

open Grammar Reading
open Reader hiding lexicon notes object sense entry note reply message senses fixture
open Text (Position)

variable {α β : Type}

/-! Values. -/

theorem derives_writingSystemValue (scope : Scope) (name : String) (outer : List Frame) :
    Derives (.object scope (some name) :: outer) writingSystemValue WritingSystemValue := by
  intro ts stop a v h hplaced
  obtain ⟨brace, u, hrun, h⟩ := run_bind_eq_ok_iff.1 h
  obtain ⟨rest, rfl, hbrace, rfl, hrest⟩ := exists_tokens_of_expect hrun hplaced rfl
  obtain ⟨system, u, hrun, h⟩ := run_bind_eq_ok_iff.1 h
  split at h
  case h_3 => cases (run_bind_eq_ok_iff.1 h).choose_spec.choose_spec.1
  all_goals
    next text hsystem =>
    have hk : system.kind = .string text ∨ system.kind = .word text := by simp [hsystem]
    obtain ⟨rest, rfl, rfl, hrest⟩ := exists_tokens_of_next_plain hrun hrest (by rw [hsystem]; rfl)
    rw [hsystem] at hrest
    obtain ⟨_, _, hpure, h⟩ := run_bind_eq_ok_iff.1 h
    cases hpure
    obtain ⟨colon, u, hrun, h⟩ := run_bind_eq_ok_iff.1 h
    obtain ⟨rest, rfl, hcolon, rfl, hrest⟩ := exists_tokens_of_expect hrun hrest rfl
    obtain ⟨brace', u, hrun, h⟩ := run_bind_eq_ok_iff.1 h
    obtain ⟨rest, rfl, hbrace', rfl, hrest⟩ := exists_tokens_of_expect hrun hrest rfl
    obtain ⟨key, u, hrun, h⟩ := run_bind_eq_ok_iff.1 h
    split at h
    case isFalse => cases h
    next hkey =>
    obtain ⟨rest, rfl, rfl, hrest⟩ :=
      exists_tokens_of_next_plain hrun hrest (by rcases hkey with h | h <;> rw [h] <;> rfl)
    have hname : ∀ frames, advance (.object .other none :: frames) key.kind =
        .object .other (some "value") :: frames := by
      intro frames
      rcases hkey with h | h <;> rw [h] <;> rfl
    replace hrest : placedIn (.object .other (some "value") :: .object .other (some text) ::
        .object scope (some name) :: outer) (rest.map Token.kind) = true := by
      rw [← hname]
      exact hrest
    obtain ⟨colon', u, hrun, h⟩ := run_bind_eq_ok_iff.1 h
    obtain ⟨rest, rfl, hcolon', rfl, hrest⟩ := exists_tokens_of_expect hrun hrest rfl
    obtain ⟨value, u, hrun, h⟩ := run_bind_eq_ok_iff.1 h
    obtain ⟨string, rest, rfl, hstring, rfl, hrest⟩ := exists_tokens_of_expectString hrun hrest rfl
    obtain ⟨close, u, hrun, h⟩ := run_bind_eq_ok_iff.1 h
    obtain ⟨rest, rfl, hclose, rfl, hrest⟩ := exists_tokens_of_expect hrun hrest rfl
    obtain ⟨close', u, hrun, h⟩ := run_bind_eq_ok_iff.1 h
    obtain ⟨rest, rfl, hclose', rfl, hrest⟩ := exists_tokens_of_expect hrun hrest rfl
    cases h
    refine ⟨[brace, system, colon, brace', key, colon', string, close, close'], rest, rfl, rfl, ?_, hrest⟩
    simp only [List.map_cons, List.map_nil, hbrace, hcolon, hbrace', hcolon', hstring, hclose, hclose']
    exact .mk hk hkey

inductive Plain : List Frame → Prop where
  | member {scope : Scope} {name : String} {outer : List Frame} :
    scope = .sense ∨ scope = .other → Plain (.object scope (some name) :: outer)
  | item {outer : List Frame} : Plain (.list .other :: outer)

theorem Plain.objectScope_eq {frames : List Frame} (h : Plain frames) : objectScope frames = .other := by
  cases h <;> rfl

theorem Plain.listScope_eq {frames : List Frame} (h : Plain frames) : listScope frames = .other := by
  cases h with
  | member hscope => rcases hscope with rfl | rfl <;> rfl
  | item => rfl

theorem Plain.admits_eq {frames : List Frame} (h : Plain frames) {k : Kind} (hk : k ≠ .rightBrace) :
    admits frames k = false := by
  cases h <;> cases k <;> first | rfl | exact absurd rfl hk

theorem Plain.advance_string {frames : List Frame} (h : Plain frames) (text : String) :
    advance frames (.string text) = frames := by
  cases h <;> rfl

section Skipping

variable {depth : Nat}
  (hskip : ∀ {frames : List Frame}, Plain frames → Derives frames (skipWithin depth) Value)

include hskip

theorem takes_skippedMembers {outer : List Frame} {ts : List Token} {stop : Position} {u : Unit} {v : Unread}
    (h : (members (fun _ _ => skipWithin depth) ()).run ⟨ts, [], stop⟩ = .ok (u, v))
    (hplaced : placedIn (.object .other none :: outer) (ts.map Token.kind) = true) :
    Takes outer ts stop v fun ks => Value (.leftBrace :: ks) () := by
  have hmembers := takes_members (fun _ => Value) (fun _ _ => ()) (by
    intro name _ _ a' bodies ts stop v habsent hrun hplaced
    cases habsent.eq_nil rfl
    obtain ⟨taken, rest, hts, hv, hvalue, hrest⟩ := hskip (.member (.inr rfl)) hrun hplaced
    exact ⟨taken, rest, hts, hv, ⟨a', hvalue, rfl⟩, hrest⟩) h hplaced
  obtain ⟨taken, rest, bs, bodies, hts, hv, hbs, -, hrest⟩ := hmembers
  cases hbs.eq_nil rfl
  exact ⟨taken, rest, hts, hv, .object hbs, hrest⟩

theorem takes_skippedItems {outer : List Frame} {ts : List Token} {stop : Position} {u : Unit} {v : Unread}
    (h : (foldItems (fun _ => skipWithin depth) ()).run ⟨ts, [], stop⟩ = .ok (u, v))
    (hplaced : placedIn (.list .other :: outer) (ts.map Token.kind) = true) :
    Takes outer ts stop v fun ks => Value (.leftBracket :: ks) () := by
  have hitems := takes_foldItems Value (fun _ _ => ()) (by
    intro _ a' ts stop v hrun hplaced
    obtain ⟨taken, rest, hts, hv, hvalue, hrest⟩ := hskip .item hrun hplaced
    exact ⟨taken, rest, hts, hv, ⟨a', hvalue, rfl⟩, hrest⟩) h hplaced
  obtain ⟨taken, rest, hts, hv, ⟨bs, hbs, -⟩, hrest⟩ := hitems
  exact ⟨taken, rest, hts, hv, .list hbs, hrest⟩

end Skipping

theorem derives_skipWithin (depth : Nat) {frames : List Frame} (hframes : Plain frames) :
    Derives frames (skipWithin depth) Value := by
  induction depth generalizing frames with
  | zero =>
    intro ts stop u v h
    obtain ⟨_, _, -, h⟩ := run_bind_eq_ok_iff.1 h
    cases h
  | succ depth ih =>
    intro ts stop u v h hplaced
    unfold skipWithin at h
    obtain ⟨t, u, hnext, h⟩ := run_bind_eq_ok_iff.1 h
    have hplain (hk : t.kind ≠ .rightBrace) :=
      exists_tokens_of_next_plain hnext hplaced (hframes.admits_eq hk)
    have hleaf (hvalue : Value [t.kind] ()) (hk : t.kind ≠ .rightBrace)
        (hsame : advance frames t.kind = frames) : Takes frames ts stop u (Value · ()) := by
      obtain ⟨rest, rfl, rfl, hrest⟩ := hplain hk
      rw [hsame] at hrest
      exact ⟨[t], rest, rfl, rfl, hvalue, hrest⟩
    split at h
    . next ht =>
      obtain ⟨rest, rfl, rfl, hrest⟩ := hplain (by simp [ht])
      rw [ht] at hrest
      simp only [advance, hframes.objectScope_eq] at hrest
      obtain ⟨taken, rest, rfl, rfl, hvalue, hrest⟩ := takes_skippedMembers ih h hrest
      exact ⟨t :: taken, rest, rfl, rfl, by rwa [List.map_cons, ht], hrest⟩
    . next ht =>
      obtain ⟨rest, rfl, rfl, hrest⟩ := hplain (by simp [ht])
      rw [ht] at hrest
      simp only [advance, hframes.listScope_eq] at hrest
      obtain ⟨taken, rest, rfl, rfl, hvalue, hrest⟩ := takes_skippedItems ih h hrest
      exact ⟨t :: taken, rest, rfl, rfl, by rwa [List.map_cons, ht], hrest⟩
    . next text ht =>
      cases h
      apply hleaf <;> rw [ht]
      . exact .string text
      . nofun
      . exact hframes.advance_string text
    . next text ht =>
      cases h
      apply hleaf <;> rw [ht]
      . exact .number text
      . nofun
      . rfl
    . next value ht =>
      cases h
      apply hleaf <;> rw [ht]
      . exact .truth value
      . nofun
      . rfl
    . next ht =>
      cases h
      apply hleaf <;> rw [ht]
      . exact .null
      . nofun
      . rfl
    . cases h

theorem derives_skip {frames : List Frame} (hframes : Plain frames) : Derives frames skip Value :=
  fun _ _ _ _ h hplaced => derives_skipWithin _ hframes h hplaced

/-! Entries. -/

theorem takes_sense_property {outer : List Frame} {p : Property} {name : String}
    {read : List Node → Reader (List Node)} {children children' : List Node} {bodies : List String}
    {ts : List Token} {stop : Position} {v : Unread} (hread : Reader.sense.property p = some read)
    (h : (read children).run ⟨ts, bodies, stop⟩ = .ok (children', v))
    (hplaced : placedIn (.object .sense (some name) :: outer) (ts.map Token.kind) = true) :
    Takes (.object .sense (some name) :: outer) ts stop v
      fun ks => ∃ nodes, SenseProperty p ks nodes ∧ children' = addNodes children (bodies, nodes) := by
  cases p <;> cases hread
  all_goals
    obtain ⟨_, _, htake, h⟩ := run_bind_eq_ok_iff.1 h
    cases htake
    obtain ⟨_, _, hvalue, h⟩ := run_bind_eq_ok_iff.1 h
    cases h
  . obtain ⟨taken, rest, hts, hv, hphrase, hrest⟩ := derives_writingSystemValue _ _ _ hvalue hplaced
    exact ⟨taken, rest, hts, hv, ⟨_, .definition hphrase, by simp [addNodes]⟩, hrest⟩
  . obtain ⟨taken, rest, hts, hv, hphrase, hrest⟩ := derives_writingSystemValue _ _ _ hvalue hplaced
    exact ⟨taken, rest, hts, hv, ⟨_, .gloss hphrase, by simp [addNodes]⟩, hrest⟩
  . obtain ⟨taken, rest, hts, hv, hphrase, hrest⟩ := derives_skip (.member (.inl rfl)) hvalue hplaced
    exact ⟨taken, rest, hts, hv, ⟨_, .partOfSpeech hphrase, by simp [addNodes]⟩, hrest⟩

theorem derives_sense {outer : List Frame} : Derives (.list .sense :: outer) Reader.sense Sense := by
  intro ts stop node v h hplaced
  obtain ⟨_, taken, rest, bs, bodies, rfl, hbs, h, hrest⟩ :=
    takes_braced SenseProperty addNodes h hplaced fun _ hread _ h => takes_sense_property hread h
  obtain ⟨_, _, htake, h⟩ := run_bind_eq_ok_iff.1 h
  cases htake
  cases h
  rw [foldl_addNodes]
  exact ⟨taken, rest, rfl, rfl, .mk hbs, hrest⟩

theorem takes_senses {name : String} {outer : List Frame} (hname : Property.ofName? name = some .senses)
    {ts : List Token} {stop : Position} {node : Node} {v : Unread}
    (h : Reader.senses.run ⟨ts, [], stop⟩ = .ok (node, v))
    (hplaced : placedIn (.object .entry (some name) :: outer) (ts.map Token.kind) = true) :
    Takes (.object .entry (some name) :: outer) ts stop v
      fun ks => ∃ nodes, Listed Sense ks nodes ∧ node = container Node.sensesName nodes := by
  have hscope : listScope (.object .entry (some name) :: outer) = .sense := by simp [listScope, hname]
  obtain ⟨_, taken, rest, nodes, rfl, hnodes, h, hrest⟩ :=
    takes_bracketed (hscope ▸ derives_sense) h hplaced
  obtain ⟨_, _, htake, h⟩ := run_bind_eq_ok_iff.1 h
  cases htake
  have hmark : markLast (markers []) nodes = some nodes := markLast_nil nodes
  simp only [hmark] at h
  cases h
  exact ⟨taken, rest, rfl, rfl, ⟨nodes, hnodes, rfl⟩, hrest⟩

theorem takes_entry_property {outer : List Frame} {p : Property} {name : String}
    {read : EntryDraft → Reader EntryDraft} {draft draft' : EntryDraft} {bodies : List String}
    {ts : List Token} {stop : Position} {v : Unread} (hname : Property.ofName? name = some p)
    (hread : Reader.entry.property p = some read)
    (h : (read draft).run ⟨ts, bodies, stop⟩ = .ok (draft', v))
    (hplaced : placedIn (.object .entry (some name) :: outer) (ts.map Token.kind) = true) :
    Takes (.object .entry (some name) :: outer) ts stop v
      fun ks => ∃ part, EntryProperty p ks part ∧ draft' = addPart draft (bodies, part) := by
  cases p <;> cases hread
  all_goals
    obtain ⟨_, _, htake, h⟩ := run_bind_eq_ok_iff.1 h
    cases htake
    obtain ⟨_, _, hvalue, h⟩ := run_bind_eq_ok_iff.1 h
    cases h
  . obtain ⟨taken, rest, hts, hv, hphrase, hrest⟩ := derives_writingSystemValue _ _ _ hvalue hplaced
    refine ⟨taken, rest, hts, hv, ⟨_, .lexeme hphrase, ?_⟩, hrest⟩
    simp [addPart]
  . obtain ⟨taken, rest, hts, hv, ⟨nodes, hphrase, rfl⟩, hrest⟩ := takes_senses hname hvalue hplaced
    refine ⟨taken, rest, hts, hv, ⟨_, .senses hphrase, ?_⟩, hrest⟩
    simp [addPart]

theorem derives_entry {outer : List Frame} : Derives (.list .entry :: outer) Reader.entry Entry := by
  intro ts stop node v h hplaced
  obtain ⟨_, taken, rest, bs, bodies, rfl, hbs, h, hrest⟩ :=
    takes_braced EntryProperty addPart h hplaced fun hname hread _ h => takes_entry_property hname hread h
  obtain ⟨_, _, htake, h⟩ := run_bind_eq_ok_iff.1 h
  cases htake
  rw [foldl_addPart] at h
  split at h
  . next hlexeme =>
    cases h
    exact ⟨taken, rest, rfl, rfl, .mk hbs (by simpa using hlexeme), hrest⟩
  . cases h

/-! Notes. -/

theorem takes_messageProperty {name : String} {outer : List Frame} {p : Property}
    {read : Message → Reader Message} {m m' : Message} {bodies : List String} {ts : List Token}
    {stop : Position} {v : Unread} (hread : messageProperty p = some read) (hbodies : Absences .other bodies)
    (h : (read m).run ⟨ts, bodies, stop⟩ = .ok (m', v))
    (hplaced : placedIn (.object .other (some name) :: outer) (ts.map Token.kind) = true) :
    Takes (.object .other (some name) :: outer) ts stop v
      fun ks => ∃ part, MessageProperty p ks part ∧ m' = addField m (bodies, part) := by
  cases hbodies.eq_nil rfl
  cases p <;> cases hread
  all_goals
    obtain ⟨text, _, hstring, h⟩ := run_bind_eq_ok_iff.1 h
    cases h
    obtain ⟨t, rest, rfl, ht, rfl, hrest⟩ := exists_tokens_of_expectString hstring hplaced rfl
  . exact ⟨[t], rest, rfl, rfl, ⟨_, by simpa [ht] using .status text, by simp [addField]⟩, hrest⟩
  . exact ⟨[t], rest, rfl, rfl, ⟨_, by simpa [ht] using .value text, by simp [addField]⟩, hrest⟩

theorem derives_message {frames : List Frame} (hframes : objectScope frames = .other) :
    Derives frames Reader.message MessageObject := by
  intro ts stop m v h hplaced
  obtain ⟨_, taken, rest, bs, bodies, rfl, hbs, h, hrest⟩ :=
    takes_braced MessageProperty addField h hplaced fun _ hread habsent h hplaced => by
      rw [hframes] at habsent hplaced ⊢
      exact takes_messageProperty hread habsent h hplaced
  rw [hframes] at hbs
  cases hbs.eq_nil rfl
  obtain ⟨_, _, hdrop, h⟩ := run_bind_eq_ok_iff.1 h
  cases hdrop
  cases h
  rw [foldl_addField]
  exact ⟨taken, rest, rfl, rfl, by simpa using MessageObject.mk hbs, hrest⟩

def ReplyProperty (p : Property) (ks : List Kind) : Message ⊕ Message → Prop
  | .inl m => NamedMessage p ks m
  | .inr part => MessageProperty p ks part

def addReplyMember (draft : ReplyDraft) : List String × (Message ⊕ Message) → ReplyDraft
  | (bodies, .inl m) => nameMessage draft (bodies, m)
  | (bodies, .inr part) => addBareField draft (bodies, part)

theorem takes_reply_property {name : String} {outer : List Frame} {p : Property}
    {read : ReplyDraft → Reader ReplyDraft} {draft draft' : ReplyDraft} {bodies : List String}
    {ts : List Token} {stop : Position} {v : Unread} (hread : Reader.reply.property p = some read)
    (hbodies : Absences .other bodies) (h : (read draft).run ⟨ts, bodies, stop⟩ = .ok (draft', v))
    (hplaced : placedIn (.object .other (some name) :: outer) (ts.map Token.kind) = true) :
    Takes (.object .other (some name) :: outer) ts stop v
      fun ks => ∃ b, ReplyProperty p ks b ∧ draft' = addReplyMember draft (bodies, b) := by
  by_cases hp : p = .message
  . subst hp
    cases hread
    cases hbodies.eq_nil rfl
    obtain ⟨m, _, hmessage, h⟩ := run_bind_eq_ok_iff.1 h
    cases h
    obtain ⟨taken, rest, hts, hv, hphrase, hrest⟩ := derives_message rfl hmessage hplaced
    exact ⟨taken, rest, hts, hv, ⟨.inl m, .mk hphrase, rfl⟩, hrest⟩
  -- whatever else a reply allows is a property of a message
  . have hmap : ∃ read', messageProperty p = some read' := by
      cases p <;> first | exact absurd rfl hp | exact ⟨_, rfl⟩ | cases hread
    obtain ⟨read', hread'⟩ := hmap
    obtain ⟨read'', hread'', hrun⟩ := exists_reply_property hread'
    cases hread.symm.trans hread''
    obtain ⟨m, hm, rfl⟩ := hrun.1 h
    obtain ⟨taken, rest, hts, hv, ⟨part, hphrase, rfl⟩, hrest⟩ :=
      takes_messageProperty hread' hbodies hm hplaced
    exact ⟨taken, rest, hts, hv, ⟨.inr part, hphrase, rfl⟩, hrest⟩

theorem exists_bare_of_named_eq_none {bs : List (List String × (Message ⊕ Message))} {draft : ReplyDraft}
    (h : (bs.foldl addReplyMember draft).named = none) :
    draft.named = none ∧ ∃ parts : List (List String × Message), bs = parts.map (Prod.map id .inr) := by
  induction bs generalizing draft with
  | nil => exact ⟨h, [], rfl⟩
  | cons b bs ih =>
    obtain ⟨hnamed, parts, rfl⟩ := ih h
    obtain ⟨bodies, m | part⟩ := b
    . cases hnamed
    . exact ⟨hnamed, (bodies, part) :: parts, rfl⟩

theorem exists_named_of_bare_eq_none {bs : List (List String × (Message ⊕ Message))} {draft : ReplyDraft}
    (h : (bs.foldl addReplyMember draft).bare = none) :
    draft.bare = none ∧ ∃ named : List (List String × Message), bs = named.map (Prod.map id .inl) := by
  induction bs generalizing draft with
  | nil => exact ⟨h, [], rfl⟩
  | cons b bs ih =>
    obtain ⟨hbare, named, rfl⟩ := ih h
    obtain ⟨bodies, m | part⟩ := b
    . exact ⟨hbare, (bodies, m) :: named, rfl⟩
    . cases hbare

theorem Grammar.Object.of_map {γ : Type} {scope : Scope} {value : String → Phrase β}
    {value' : String → Phrase γ} (f : γ → β)
    (hvalue : ∀ {name ks c}, value name ks (f c) → value' name ks c) {ks : List Kind}
    {members : List (List String × γ)} {bodies : List String}
    (h : Object scope value ks (members.map (Prod.map id f), bodies)) :
    Object scope value' ks (members, bodies) := by
  generalize hbs : members.map (Prod.map id f) = bs at h
  obtain ⟨h, habsent⟩ := h
  refine .mk ?_ habsent
  clear habsent
  have hmember : ∀ {ks member}, Member scope value ks (Prod.map id f member) →
      Member scope value' ks member := by
    intro ks member h
    generalize hb : Prod.map id f member = b at h
    obtain ⟨habsent, hname, h⟩ := h
    cases hb
    exact .mk habsent hname (hvalue h)
  induction h generalizing members with
  | none =>
    cases List.map_eq_nil_iff.1 hbs
    exact .none
  | last h =>
    obtain ⟨member, rest, rfl, rfl, hrest⟩ := List.map_eq_cons_iff.1 hbs
    cases List.map_eq_nil_iff.1 hrest
    exact .last (hmember h)
  | next h _ ih =>
    obtain ⟨member, rest, rfl, rfl, hrest⟩ := List.map_eq_cons_iff.1 hbs
    exact .next (hmember h) (ih hrest)

theorem derives_reply {outer : List Frame} : Derives (.list .other :: outer) Reader.reply Reply := by
  intro ts stop m v h hplaced
  obtain ⟨_, taken, rest, bs, bodies, rfl, hbs, h, hrest⟩ :=
    takes_braced ReplyProperty addReplyMember h hplaced fun _ hread habsent h =>
      takes_reply_property hread habsent h
  cases hbs.eq_nil rfl
  obtain ⟨_, _, hdrop, h⟩ := run_bind_eq_ok_iff.1 h
  cases hdrop
  -- only the draft as a whole tells whether its members were named or bare
  split at h
  . next m' hnamed hbare =>
    cases h
    obtain ⟨-, named, rfl⟩ := exists_named_of_bare_eq_none hbare
    have hfold : (named.foldl nameMessage {}).named = some m := by
      rw [← hnamed, List.foldl_map]
      rfl
    rw [foldl_nameMessage] at hfold
    have hobject : Object .other (Known NamedMessage) _ (named, []) :=
      hbs.of_map Sum.inl fun ⟨p, hp, h⟩ => ⟨p, hp, h⟩
    exact ⟨taken, rest, rfl, rfl, .named hobject (by simpa using hfold), hrest⟩
  . next m' hnamed hbare =>
    cases h
    obtain ⟨-, parts, rfl⟩ := exists_bare_of_named_eq_none hnamed
    have hparts : parts ≠ [] := by
      rintro rfl
      cases hbare
    have hfold : (parts.foldl addBareField {}).bare = some m := by
      rw [← hbare, List.foldl_map]
      rfl
    rw [foldl_addBareField hparts, foldl_addField] at hfold
    have hobject : Object .other (Known MessageProperty) _ (parts, []) :=
      hbs.of_map Sum.inr fun ⟨p, hp, h⟩ => ⟨p, hp, h⟩
    have hm : m = messageOf (parts.map Prod.snd) := by simpa using hfold.symm
    exact ⟨taken, rest, rfl, rfl, hm ▸ .bare hobject hparts, hrest⟩
  . cases h
  . cases h

theorem takes_note_property {outer : List Frame} {p : Property} {name : String}
    {read : NoteDraft → Reader NoteDraft} {draft draft' : NoteDraft} {bodies : List String}
    {ts : List Token} {stop : Position} {v : Unread} (hread : Reader.note.property p = some read)
    (h : (read draft).run ⟨ts, bodies, stop⟩ = .ok (draft', v))
    (hplaced : placedIn (.object .note (some name) :: outer) (ts.map Token.kind) = true) :
    Takes (.object .note (some name) :: outer) ts stop v
      fun ks => ∃ part, NoteProperty p ks part ∧ draft' = addNotePart draft (bodies, part) := by
  cases p <;> cases hread
  all_goals
    obtain ⟨_, _, htake, h⟩ := run_bind_eq_ok_iff.1 h
    cases htake
  case noteClass =>
    obtain ⟨text, _, hstring, h⟩ := run_bind_eq_ok_iff.1 h
    cases h
    obtain ⟨t, rest, rfl, ht, rfl, hrest⟩ := exists_tokens_of_expectString hstring hplaced rfl
    refine ⟨[t], rest, rfl, rfl, ⟨_, by simpa [ht] using .noteClass text, ?_⟩, hrest⟩
    simp [addNotePart]
  case ref =>
    obtain ⟨target, _, hstring, h⟩ := run_bind_eq_ok_iff.1 h
    cases h
    obtain ⟨t, rest, rfl, ht, rfl, hrest⟩ := exists_tokens_of_expectString hstring hplaced rfl
    refine ⟨[t], rest, rfl, rfl, ⟨_, by simpa [ht] using .ref target, ?_⟩, hrest⟩
    simp [addNotePart]
  case message =>
    obtain ⟨m, _, hmessage, h⟩ := run_bind_eq_ok_iff.1 h
    cases h
    obtain ⟨taken, rest, hts, hv, hphrase, hrest⟩ := derives_message rfl hmessage hplaced
    refine ⟨taken, rest, hts, hv, ⟨_, .message hphrase, ?_⟩, hrest⟩
    simp [addNotePart]
  case messages =>
    have hscope : listScope (.object .note (some name) :: outer) = .other := rfl
    obtain ⟨_, taken, rest, ms, rfl, hms, h, hrest⟩ := takes_bracketed (hscope ▸ derives_reply) h hplaced
    cases h
    refine ⟨taken, rest, rfl, rfl, ⟨_, .messages hms, ?_⟩, hrest⟩
    simp [addNotePart]
  case replies =>
    have hscope : listScope (.object .note (some name) :: outer) = .other := rfl
    obtain ⟨_, taken, rest, ms, rfl, hms, h, hrest⟩ := takes_bracketed (hscope ▸ derives_reply) h hplaced
    cases h
    refine ⟨taken, rest, rfl, rfl, ⟨_, .replies hms, ?_⟩, hrest⟩
    simp [addNotePart]

theorem derives_note {outer : List Frame} : Derives (.list .note :: outer) Reader.note Note := by
  intro ts stop node v h hplaced
  obtain ⟨_, taken, rest, bs, bodies, rfl, hbs, h, hrest⟩ :=
    takes_braced NoteProperty addNotePart h hplaced fun _ hread _ h => takes_note_property hread h
  obtain ⟨_, _, htake, h⟩ := run_bind_eq_ok_iff.1 h
  cases htake
  cases h
  refine ⟨taken, rest, rfl, rfl, ?_, hrest⟩
  have hnote := Note.mk hbs
  rw [foldl_addNotePart]
  simpa [noteOf, Node.addChildren, markers_append] using hnote

/-! Sections. -/

theorem derives_dropComments {frames : List Frame} {phrase : Phrase α} {r : Reader α}
    (h : Derives frames r phrase) : Derives frames (do dropComments; r) phrase := by
  intro ts stop a v hrun
  obtain ⟨_, _, hdrop, hrun⟩ := run_bind_eq_ok_iff.1 hrun
  cases hdrop
  exact h hrun

theorem takes_section_list {frames : List Frame} {phrase : Phrase Node} {item : Reader Node}
    (hitem : Derives (.list (listScope frames) :: frames) item phrase) {name wanted : String}
    {ts : List Token} {stop : Position} {node : Node} {v : Unread}
    (h : (do
      let _ ← expect .leftBracket wanted
      let nodes ← items (do dropComments; item)
      dropComments
      return container name nodes : Reader Node).run ⟨ts, [], stop⟩ = .ok (node, v))
    (hplaced : placedIn frames (ts.map Token.kind) = true) :
    Takes frames ts stop v fun ks => ∃ nodes, Listed phrase ks nodes ∧ node = container name nodes := by
  obtain ⟨_, taken, rest, nodes, rfl, hnodes, h, hrest⟩ :=
    takes_bracketed (derives_dropComments hitem) h hplaced
  obtain ⟨_, _, hdrop, h⟩ := run_bind_eq_ok_iff.1 h
  cases hdrop
  cases h
  exact ⟨taken, rest, rfl, rfl, ⟨nodes, hnodes, rfl⟩, hrest⟩

theorem takes_section_property {outer : List Frame} {p : Property} {name : String}
    {read : List Node → Reader (List Node)} {sections sections' : List Node} {bodies : List String}
    {ts : List Token} {stop : Position} {v : Unread} (hname : Property.ofName? name = some p)
    (hread : Reader.sectionObject.property p = some read)
    (h : (read sections).run ⟨ts, bodies, stop⟩ = .ok (sections', v))
    (hplaced : placedIn (.object .part (some name) :: outer) (ts.map Token.kind) = true) :
    Takes (.object .part (some name) :: outer) ts stop v
      fun ks => ∃ node, SectionProperty p ks node ∧ sections' = sections ++ [node] := by
  cases p <;> cases hread
  all_goals
    obtain ⟨_, _, hdrop, h⟩ := run_bind_eq_ok_iff.1 h
    cases hdrop
    obtain ⟨node, _, hnode, h⟩ := run_bind_eq_ok_iff.1 h
    cases h
  . have hscope : listScope (.object .part (some name) :: outer) = .entry := by simp [listScope, hname]
    obtain ⟨taken, rest, hts, hv, ⟨entries, hentries, rfl⟩, hrest⟩ :=
      takes_section_list (hscope ▸ derives_entry) hnode hplaced
    exact ⟨taken, rest, hts, hv, ⟨_, .lexicon hentries, rfl⟩, hrest⟩
  . have hscope : listScope (.object .part (some name) :: outer) = .note := by simp [listScope, hname]
    obtain ⟨taken, rest, hts, hv, ⟨notes, hnotes, rfl⟩, hrest⟩ :=
      takes_section_list (hscope ▸ derives_note) hnode hplaced
    exact ⟨taken, rest, hts, hv, ⟨_, .notes hnotes, rfl⟩, hrest⟩

theorem takes_sectionObject {outer : List Frame} {sections sections' : List Node} {ts : List Token}
    {stop : Position} {v : Unread} (h : (sectionObject sections).run ⟨ts, [], stop⟩ = .ok (sections', v))
    (hplaced : placedIn (.list .part :: outer) (ts.map Token.kind) = true) :
    Takes (.list .part :: outer) ts stop v
      fun ks => ∃ nodes, Part ks nodes ∧ sections' = sections ++ nodes := by
  obtain ⟨_, taken, rest, bs, bodies, rfl, hbs, h, hrest⟩ :=
    takes_braced SectionProperty (fun sections member => sections ++ [member.2]) h hplaced
      fun hname hread _ h => takes_section_property hname hread h
  cases hbs.eq_nil rfl
  obtain ⟨_, _, hdrop, h⟩ := run_bind_eq_ok_iff.1 h
  cases hdrop
  cases h
  rw [foldl_append_snd]
  exact ⟨taken, rest, rfl, rfl, ⟨_, .mk hbs, rfl⟩, hrest⟩

theorem derives_of_ofTokens {tokens : Tokens} {tree : Node} (h : ofTokens tokens = .ok tree)
    (hplaced : Placed (tokens.list.map Token.kind)) :
    Document (tokens.list.map Token.kind) tree := by
  obtain ⟨ts, stop⟩ := tokens
  unfold ofTokens at h
  cases hrun : Reader.fixture.run ⟨ts, [], stop⟩ with
  | error r =>
    rw [hrun] at h
    cases h
  | ok result =>
    rw [hrun] at h
    obtain ⟨node, v⟩ := result
    cases h
    obtain ⟨t, u, hnext, hrun⟩ := run_bind_eq_ok_iff.1 hrun
    split at hrun
    case isFalse => cases hrun
    next ht =>
    obtain ⟨rest, rfl, rfl, hrest⟩ := exists_tokens_of_next_plain hnext hplaced rfl
    rw [ht] at hrest
    obtain ⟨sections, u, hfold, hrun⟩ := run_bind_eq_ok_iff.1 hrun
    obtain ⟨taken, rest, rfl, rfl, ⟨parts, hparts, rfl⟩, hrest⟩ :=
      takes_foldItems Part (fun sections nodes => sections ++ nodes) takes_sectionObject hfold hrest
    obtain ⟨_, u, hfinish, hrun⟩ := run_bind_eq_ok_iff.1 hrun
    cases hrun
    cases tokens_eq_nil_of_finish hfinish hrest
    rw [List.foldl_append_eq_append]
    simpa [ht] using Document.mk hparts

/--
On tokens whose comments stand in their places the reader accepts exactly what the grammar derives, and
answers the derived tree.
-/
theorem ofTokens_eq_ok_iff_derives (tokens : Tokens) (tree : Node)
    (hplaced : Placed (tokens.list.map Token.kind)) :
    ofTokens tokens = .ok tree ↔ Document (tokens.list.map Token.kind) tree :=
  ⟨fun h => derives_of_ofTokens h hplaced, ofTokens_of_derives⟩

/-! One entry, with a comment in front of its closing brace. -/

def markedEntry : Tokens where
  list := [.leftBracket, .leftBrace, .word "lexicon", .colon, .leftBracket,
    .leftBrace, .word "lexeme", .colon, .leftBrace, .word "en", .colon, .leftBrace, .word "value", .colon,
    .string "sun", .rightBrace, .rightBrace, .comma, .comment "no senses", .rightBrace,
    .rightBracket, .rightBrace, .rightBracket].map (⟨·, ⟨1, 1⟩⟩)
  stop := ⟨1, 1⟩

def markedTree : Node :=
  container Node.rootName [container Node.lexiconName
    [container Node.entryName [lexemeForm "en" "sun", Node.absent Node.sensesName]]]

theorem derives_markedEntry :
    Placed (markedEntry.list.map Token.kind) ∧ Document (markedEntry.list.map Token.kind) markedTree :=
  ⟨by decide, (ofTokens_eq_ok_iff_derives markedEntry markedTree (by decide)).1 (by with_unfolding_all rfl)⟩

end LexiconAudit.Fixture
