import LexiconAudit.Proofs.Fixture.Steps

/-!
This module contains one half of the correctness of the reader of fixtures: it accepts whatever the grammar
derives, takes exactly those tokens and answers the value that the derivation stands for.
-/

namespace LexiconAudit.Fixture

open Grammar Reading
open Reader hiding lexicon notes object sense entry note reply message senses fixture
open Text (Position)

variable {α : Type}

/-! Values. -/

theorem accepts_writingSystemValue : Accepts WritingSystemValue writingSystemValue := by
  intro ts a h rest stop
  generalize hks : ts.map Token.kind = ks at h
  obtain ⟨hk, hk'⟩ := h
  simp only [List.map_eq_cons_iff, List.map_eq_nil_iff] at hks
  obtain ⟨brace, _, rfl, hbrace, system, _, rfl, rfl, colon, _, rfl, hcolon, brace', _, rfl, hbrace',
    key, _, rfl, rfl, colon', _, rfl, hcolon', text, _, rfl, htext, close, _, rfl, hclose,
    close', _, rfl, hclose', rfl⟩ := hks
  have hsystem : system.kind.isComment = false := by rcases hk with hk | hk <;> rw [hk] <;> rfl
  have hkey : key.kind.isComment = false := by rcases hk' with hk' | hk' <;> rw [hk'] <;> rfl
  unfold writingSystemValue
  simp only [List.cons_append, List.nil_append]
  rw [run_bind_of_run (run_expect hbrace rfl), run_bind_of_run (run_next_cons hsystem)]
  rcases hk with hk | hk
  all_goals
    simp only [hk]
    rw [run_bind_of_run (run_pure _ _), run_bind_of_run (run_expect hcolon rfl)]
    rw [run_bind_of_run (run_expect hbrace' rfl), run_bind_of_run (run_next_cons hkey), if_pos hk']
    rw [run_bind_of_run (run_expect hcolon' rfl), run_bind_of_run (run_expectString htext)]
    rw [run_bind_of_run (run_expect hclose rfl), run_bind_of_run (run_expect hclose' rfl)]
    rfl

/-! Parts of speech nest to any depth, so their reader is followed level by level. -/

theorem Grammar.Separated.imp {item item' : Phrase α} {ks : List Kind} {as : List α}
    (h : Separated item ks as)
    (himp : ∀ {ks' a}, ks'.length ≤ ks.length → item ks' a → item' ks' a) : Separated item' ks as := by
  induction h with
  | none => exact .none
  | last h => exact .last (himp (Nat.le_refl _) h)
  | next h _ ih =>
    refine .next (himp ?_ h) (ih fun hle => himp ?_)
    . simp only [List.length_append]
      omega
    . simp only [List.length_append, List.length_cons]
      omega

theorem Grammar.Member.imp {scope : Scope} {value value' : String → Phrase α} {ks : List Kind}
    {b : List String × α} (h : Member scope value ks b)
    (himp : ∀ {name ks' a}, ks'.length ≤ ks.length → value name ks' a → value' name ks' a) :
    Member scope value' ks b := by
  obtain ⟨habsent, hname, hvalue⟩ := h
  refine .mk habsent hname (himp ?_ hvalue)
  simp
  omega

theorem Opens.value : Opens Value := by
  intro ks b h
  cases h with
  | list h => exact Opens.listed h
  | object h => exact Opens.object h
  | _ => exact ⟨_, rfl, rfl, nofun⟩

theorem run_skipWithin (depth : Nat) {ts : List Token} (hts : ts.length ≤ depth)
    (h : Value (ts.map Token.kind) ()) (rest : List Token) (stop : Position) :
    (skipWithin depth).run ⟨ts ++ rest, [], stop⟩ = .ok ((), ⟨rest, [], stop⟩) := by
  induction depth generalizing ts rest stop with
  | zero =>
    cases List.eq_nil_of_length_eq_zero (Nat.le_zero.1 hts)
    obtain ⟨k, hk, -⟩ := Opens.value h
    cases hk
  | succ depth ih =>
    generalize hks : ts.map Token.kind = ks at h
    unfold skipWithin
    cases h with
    | @list _ us h =>
      obtain ⟨opening, inner, closing, rfl, hopening, hclosing, hinner⟩ := Listed.exists_tokens (hks ▸ h)
      simp only [List.length_cons, List.length_append, List.length_nil] at hts
      simp only [List.cons_append, List.append_assoc, List.nil_append]
      rw [run_bind_of_run (run_next_cons (by rw [hopening]; rfl)), hopening]
      -- an item is shorter than its list, so that one level less is enough for it
      have hshort : Separated (fun ks u => Value ks u ∧ ks.length ≤ depth) (inner.map Token.kind) us := by
        apply hinner.imp
        intro ks _ hle hvalue
        simp only [List.length_map] at hle
        exact ⟨hvalue, by omega⟩
      apply run_foldItems (fun _ _ => ()) (fun _ _ h => Opens.value h.1) _ hshort rfl hclosing
      intro _ _ ts rest stop hvalue
      exact ih (by simpa using hvalue.2) hvalue.1 rest stop
    | @object _ members _ h =>
      obtain ⟨opening, inner, cs, closing, rfl, hopening, hclosing, hcs, habsent, hinner⟩ :=
        Object.exists_tokens (hks ▸ h)
      cases habsent.eq_nil rfl
      simp only [List.length_cons, List.length_append, List.length_nil] at hts
      simp only [List.cons_append, List.append_assoc, List.nil_append]
      rw [run_bind_of_run (run_next_cons (by rw [hopening]; rfl)), hopening]
      have hshort : Separated (Member .other fun _ ks u => Value ks u ∧ ks.length ≤ depth)
          (inner.map Token.kind) members := by
        apply hinner.imp
        intro ks _ hle hmember
        refine hmember.imp fun hle' hvalue => ⟨hvalue, ?_⟩
        simp only [List.length_map] at hle
        omega
      apply run_members (fun _ _ => ()) _ hshort rfl hcs hclosing
      intro _ _ bodies _ ts rest stop habsent hvalue
      cases habsent.eq_nil rfl
      exact ih (by simpa using hvalue.2) hvalue.1 rest stop
    | _ =>
      obtain ⟨t, ts, rfl, ht, hrest⟩ := List.map_eq_cons_iff.1 hks
      cases List.map_eq_nil_iff.1 hrest
      rw [List.cons_append, run_bind_of_run (run_next_cons (by rw [ht]; rfl)), ht]
      rfl

theorem accepts_skip : Accepts Value skip := by
  intro ts _ h rest stop
  exact run_skipWithin _ (by simp) h rest stop

/-! Entries. -/

def addNodes (children : List Node) (member : List String × List Node) : List Node :=
  children ++ (markers member.1 ++ member.2)

theorem foldl_addNodes (members : List (List String × List Node)) (children : List Node) :
    members.foldl addNodes children =
      children ++ members.flatMap fun (before, nodes) => markers before ++ nodes := by
  unfold addNodes
  simp [← List.flatMap_def]

theorem run_sense_property {p : Property} {children : List Node} {bodies : List String} {nodes : List Node}
    {ts rest : List Token} {stop : Position} (h : SenseProperty p (ts.map Token.kind) nodes) :
    ∃ read, Reader.sense.property p = some read ∧
      (read children).run ⟨ts ++ rest, bodies, stop⟩ =
        .ok (addNodes children (bodies, nodes), ⟨rest, [], stop⟩) := by
  generalize hks : ts.map Token.kind = ks at h
  cases h with
  | definition h =>
    refine ⟨_, rfl, ?_⟩
    rw [run_bind_of_run (run_takeMarkers _ _ _)]
    rw [run_bind_of_run (accepts_writingSystemValue (hks ▸ h) rest stop)]
    simp [addNodes]
  | gloss h =>
    refine ⟨_, rfl, ?_⟩
    rw [run_bind_of_run (run_takeMarkers _ _ _)]
    rw [run_bind_of_run (accepts_writingSystemValue (hks ▸ h) rest stop)]
    simp [addNodes]
  | partOfSpeech h =>
    refine ⟨_, rfl, ?_⟩
    rw [run_bind_of_run (run_takeMarkers _ _ _), run_bind_of_run (accepts_skip (hks ▸ h) rest stop)]
    simp [addNodes]

theorem accepts_sense : Accepts Sense Reader.sense := by
  intro ts a h rest stop
  generalize hks : ts.map Token.kind = ks at h
  obtain ⟨h⟩ := h
  unfold Reader.sense
  apply run_braced addNodes (fun _ h => run_sense_property h) (hks ▸ h)
  intro brace
  rw [run_bind_of_run (run_takeMarkers _ _ _), foldl_addNodes]
  rfl

theorem markLast_nil (nodes : List Node) : markLast [] nodes = some nodes := by
  induction nodes with
  | nil => rfl
  | cons node nodes ih =>
    cases nodes with
    | nil =>
      cases node
      simp [markLast, Node.addChildren]
    | cons => simp [markLast, ih]

theorem Opens.sense : Opens Sense := by
  intro ks _ h
  obtain ⟨h⟩ := h
  exact Opens.object h

theorem run_senses {ts : List Token} {nodes : List Node} (h : Listed Sense (ts.map Token.kind) nodes)
    (rest : List Token) (stop : Position) :
    Reader.senses.run ⟨ts ++ rest, [], stop⟩ = .ok (container Node.sensesName nodes, ⟨rest, [], stop⟩) := by
  unfold Reader.senses
  apply run_bracketed Opens.sense accepts_sense h
  intro bracket
  rw [run_bind_of_run (run_takeMarkers _ _ _)]
  have hmark : markLast (markers []) nodes = some nodes := markLast_nil nodes
  simp [hmark]

def addPart (draft : EntryDraft) (member : List String × EntryPart) : EntryDraft where
  children := draft.children ++ (markers member.1 ++ [member.2.node])
  hasLexeme := draft.hasLexeme || member.2.isLexeme

theorem foldl_addPart (members : List (List String × EntryPart)) (draft : EntryDraft) :
    members.foldl addPart draft = {
      children := draft.children ++
        (members.map fun (before, part) => (before, [part.node])).flatMap fun (before, nodes) =>
          markers before ++ nodes
      hasLexeme := draft.hasLexeme || members.any (·.2.isLexeme) } := by
  induction members generalizing draft with
  | nil => simp
  | cons member members ih => simp [ih, addPart, Bool.or_assoc]

theorem run_entry_property {p : Property} {draft : EntryDraft} {bodies : List String} {part : EntryPart}
    {ts rest : List Token} {stop : Position} (h : EntryProperty p (ts.map Token.kind) part) :
    ∃ read, Reader.entry.property p = some read ∧
      (read draft).run ⟨ts ++ rest, bodies, stop⟩ = .ok (addPart draft (bodies, part), ⟨rest, [], stop⟩) := by
  generalize hks : ts.map Token.kind = ks at h
  cases h with
  | lexeme h =>
    refine ⟨_, rfl, ?_⟩
    rw [run_bind_of_run (run_takeMarkers _ _ _)]
    rw [run_bind_of_run (accepts_writingSystemValue (hks ▸ h) rest stop)]
    simp [addPart]
  | senses h =>
    refine ⟨_, rfl, ?_⟩
    rw [run_bind_of_run (run_takeMarkers _ _ _), run_bind_of_run (run_senses (hks ▸ h) rest stop)]
    simp [addPart]

theorem accepts_entry : Accepts Entry Reader.entry := by
  intro ts a h rest stop
  generalize hks : ts.map Token.kind = ks at h
  obtain ⟨h, hlexeme⟩ := h
  unfold Reader.entry
  apply run_braced addPart (fun _ h => run_entry_property h) (hks ▸ h)
  intro brace
  rw [run_bind_of_run (run_takeMarkers _ _ _), foldl_addPart, hlexeme]
  rfl

theorem Opens.entry : Opens Entry := by
  intro ks _ h
  obtain ⟨h, -⟩ := h
  exact Opens.object h

/-! Notes. -/

def addField (m : Message) (member : List String × Message) : Message where
  status := member.2.status.or m.status
  value := member.2.value.or m.value

theorem getLast?_cons_or (a : α) (as : List α) (b : Option α) :
    ((a :: as).getLast?).or b = as.getLast?.or (some a) := by
  cases as <;> simp [List.getLast?_cons]

theorem foldl_addField (members : List (List String × Message)) (m : Message) :
    members.foldl addField m = {
      status := (messageOf (members.map Prod.snd)).status.or m.status
      value := (messageOf (members.map Prod.snd)).value.or m.value } := by
  induction members generalizing m with
  | nil => simp [messageOf]
  | cons member members ih =>
    obtain ⟨bodies, status, value⟩ := member
    rw [List.foldl_cons, ih]
    cases status <;> cases value <;> simp [messageOf, addField, getLast?_cons_or]

theorem run_messageProperty {p : Property} {m : Message} {bodies : List String} {part : Message}
    {ts rest : List Token} {stop : Position} (h : MessageProperty p (ts.map Token.kind) part)
    (hbodies : Absences .other bodies) :
    ∃ read, messageProperty p = some read ∧
      (read m).run ⟨ts ++ rest, bodies, stop⟩ = .ok (addField m (bodies, part), ⟨rest, [], stop⟩) := by
  cases hbodies.eq_nil rfl
  generalize hks : ts.map Token.kind = ks at h
  cases h with
  | status text =>
    obtain ⟨t, ts, rfl, ht, hrest⟩ := List.map_eq_cons_iff.1 hks
    cases List.map_eq_nil_iff.1 hrest
    refine ⟨_, rfl, ?_⟩
    rw [List.cons_append, run_bind_of_run (run_expectString ht)]
    simp [addField]
  | value text =>
    obtain ⟨t, ts, rfl, ht, hrest⟩ := List.map_eq_cons_iff.1 hks
    cases List.map_eq_nil_iff.1 hrest
    refine ⟨_, rfl, ?_⟩
    rw [List.cons_append, run_bind_of_run (run_expectString ht)]
    simp [addField]

theorem accepts_message : Accepts MessageObject Reader.message := by
  intro ts a h rest stop
  generalize hks : ts.map Token.kind = ks at h
  obtain ⟨h⟩ := h
  unfold Reader.message
  apply run_braced addField (fun habsent h => run_messageProperty h habsent) (hks ▸ h)
  intro brace
  rw [run_bind_of_run (run_dropComments _ _ _), foldl_addField]
  simp

def nameMessage (draft : ReplyDraft) (member : List String × Message) : ReplyDraft :=
  { draft with named := some member.2 }

theorem foldl_nameMessage (members : List (List String × Message)) (draft : ReplyDraft) :
    members.foldl nameMessage draft =
      { draft with named := (members.map Prod.snd).getLast?.or draft.named } := by
  induction members generalizing draft with
  | nil => simp
  | cons member members ih =>
    rw [List.foldl_cons, ih, List.map_cons, getLast?_cons_or]
    rfl

def addBareField (draft : ReplyDraft) (member : List String × Message) : ReplyDraft :=
  { draft with bare := some (addField (draft.bare.getD {}) member) }

theorem foldl_addBareField {members : List (List String × Message)} (hmembers : members ≠ [])
    (draft : ReplyDraft) :
    members.foldl addBareField draft =
      { draft with bare := some (members.foldl addField (draft.bare.getD {})) } := by
  induction members generalizing draft with
  | nil => exact absurd rfl hmembers
  | cons member members ih =>
    cases members with
    | nil => rfl
    | cons => rw [List.foldl_cons, ih nofun]; rfl

theorem run_reply_property_of_named {p : Property} {draft : ReplyDraft} {bodies : List String} {m : Message}
    {ts rest : List Token} {stop : Position} (h : NamedMessage p (ts.map Token.kind) m)
    (hbodies : Absences .other bodies) :
    ∃ read, Reader.reply.property p = some read ∧
      (read draft).run ⟨ts ++ rest, bodies, stop⟩ =
        .ok (nameMessage draft (bodies, m), ⟨rest, [], stop⟩) := by
  cases hbodies.eq_nil rfl
  generalize hks : ts.map Token.kind = ks at h
  obtain ⟨h⟩ := h
  refine ⟨_, rfl, ?_⟩
  rw [run_bind_of_run (accepts_message (hks ▸ h) rest stop)]
  rfl

theorem exists_reply_property {p : Property} {read : Message → Reader Message}
    (h : messageProperty p = some read) :
    ∃ read', Reader.reply.property p = some read' ∧ ∀ {draft d u v},
      (read' draft).run u = .ok (d, v) ↔
        ∃ m, (read (draft.bare.getD {})).run u = .ok (m, v) ∧ d = { draft with bare := some m } := by
  cases p <;> cases h
  all_goals
    refine ⟨_, rfl, ?_⟩
    intro draft d u v
    constructor
    . intro hrun
      obtain ⟨bare, v, hbare, hrun⟩ := run_bind_eq_ok_iff.1 hrun
      obtain ⟨m, v, hm, hbare⟩ := run_bind_eq_ok_iff.1 hbare
      cases hbare
      cases hrun
      exact ⟨m, hm, rfl⟩
    . intro ⟨m, hm, hd⟩
      rw [run_bind_of_run (run_bind_of_run hm), hd]
      rfl

theorem run_reply_property_of_bare {p : Property} {draft : ReplyDraft} {bodies : List String} {part : Message}
    {ts rest : List Token} {stop : Position} (h : MessageProperty p (ts.map Token.kind) part)
    (hbodies : Absences .other bodies) :
    ∃ read, Reader.reply.property p = some read ∧
      (read draft).run ⟨ts ++ rest, bodies, stop⟩ =
        .ok (addBareField draft (bodies, part), ⟨rest, [], stop⟩) := by
  obtain ⟨read, hread, hrun⟩ := run_messageProperty (m := draft.bare.getD {}) h hbodies
  obtain ⟨read', hread', hrun'⟩ := exists_reply_property hread
  exact ⟨read', hread', hrun'.2 ⟨_, hrun, rfl⟩⟩

theorem accepts_reply : Accepts Reply Reader.reply := by
  intro ts m h rest stop
  generalize hks : ts.map Token.kind = ks at h
  unfold Reader.reply
  cases h with
  | named h hlast =>
    apply run_braced nameMessage (fun habsent h => run_reply_property_of_named h habsent) (hks ▸ h)
    intro brace
    rw [run_bind_of_run (run_dropComments _ _ _), foldl_nameMessage, hlast]
    rfl
  | bare h hmembers =>
    apply run_braced addBareField (fun habsent h => run_reply_property_of_bare h habsent) (hks ▸ h)
    intro brace
    rw [run_bind_of_run (run_dropComments _ _ _), foldl_addBareField hmembers, foldl_addField]
    simp

theorem Opens.reply : Opens Reply := by
  intro ks _ h
  cases h with
  | named h => exact Opens.object h
  | bare h => exact Opens.object h

def addNotePart (draft : NoteDraft) (member : List String × NotePart) : NoteDraft where
  node :=
    match member.2.attribute? with
    | some (name, value) => draft.node.setAttribute name value
    | none => draft.node
  messages := draft.messages ++ member.2.messageList
  replies := draft.replies ++ member.2.replyList
  markers := draft.markers ++ Fixture.markers member.1

theorem foldl_addNotePart (members : List (List String × NotePart)) (draft : NoteDraft) :
    members.foldl addNotePart draft = {
      node := { draft.node with
        attributes := ((members.map Prod.snd).filterMap NotePart.attribute?).foldl
          (fun attributes (name, value) => Keyed.set name value attributes) draft.node.attributes }
      messages := draft.messages ++ (members.map Prod.snd).flatMap NotePart.messageList
      replies := draft.replies ++ (members.map Prod.snd).flatMap NotePart.replyList
      markers := draft.markers ++ markers (members.flatMap Prod.fst) } := by
  induction members generalizing draft with
  | nil =>
    obtain ⟨node⟩ := draft
    cases node
    simp [markers]
  | cons member members ih =>
    obtain ⟨bodies, part⟩ := member
    rw [List.foldl_cons, ih]
    cases part <;> simp [addNotePart, Node.setAttribute, markers_append, List.filterMap_cons]

theorem run_note_property {p : Property} {draft : NoteDraft} {bodies : List String} {part : NotePart}
    {ts rest : List Token} {stop : Position} (h : NoteProperty p (ts.map Token.kind) part) :
    ∃ read, Reader.note.property p = some read ∧
      (read draft).run ⟨ts ++ rest, bodies, stop⟩ =
        .ok (addNotePart draft (bodies, part), ⟨rest, [], stop⟩) := by
  generalize hks : ts.map Token.kind = ks at h
  cases h with
  | noteClass text | ref text =>
    obtain ⟨t, ts, rfl, ht, hrest⟩ := List.map_eq_cons_iff.1 hks
    cases List.map_eq_nil_iff.1 hrest
    refine ⟨_, rfl, ?_⟩
    unfold Reader.note.marked
    rw [run_bind_of_run (run_takeMarkers _ _ _), List.cons_append, run_bind_of_run (run_expectString ht)]
    simp [addNotePart]
  | message h =>
    refine ⟨_, rfl, ?_⟩
    unfold Reader.note.marked
    rw [run_bind_of_run (run_takeMarkers _ _ _), run_bind_of_run (accepts_message (hks ▸ h) rest stop)]
    simp [addNotePart]
  | messages h | replies h =>
    refine ⟨_, rfl, ?_⟩
    unfold Reader.note.marked
    rw [run_bind_of_run (run_takeMarkers _ _ _)]
    apply run_bracketed Opens.reply accepts_reply (hks ▸ h)
    intro bracket
    simp [addNotePart]

theorem accepts_note : Accepts Note Reader.note := by
  intro ts a h rest stop
  generalize hks : ts.map Token.kind = ks at h
  obtain ⟨h⟩ := h
  unfold Reader.note
  apply run_braced addNotePart (fun _ h => run_note_property h) (hks ▸ h)
  intro brace
  rw [run_bind_of_run (run_takeMarkers _ _ _), foldl_addNotePart]
  simp [noteOf, Node.addChildren, markers_append]

theorem Opens.note : Opens Note := by
  intro ks _ h
  obtain ⟨h⟩ := h
  exact Opens.object h

/-! Sections. -/

theorem run_section_list {phrase : Phrase Node} {item : Reader Node} (hopens : Opens phrase)
    (hitem : Accepts phrase item) {ts : List Token} {nodes : List Node}
    (h : Listed phrase (ts.map Token.kind) nodes) (name wanted : String) (rest : List Token)
    (stop : Position) :
    (do
      let _ ← expect .leftBracket wanted
      let nodes ← items (do dropComments; item)
      dropComments
      return container name nodes : Reader Node).run ⟨ts ++ rest, [], stop⟩ =
      .ok (container name nodes, ⟨rest, [], stop⟩) := by
  apply run_bracketed hopens hitem.dropComments h
  intro bracket
  rw [run_bind_of_run (run_dropComments _ _ _)]
  rfl

theorem run_section_property {p : Property} {sections : List Node} {bodies : List String} {node : Node}
    {ts rest : List Token} {stop : Position} (h : SectionProperty p (ts.map Token.kind) node) :
    ∃ read, Reader.sectionObject.property p = some read ∧
      (read sections).run ⟨ts ++ rest, bodies, stop⟩ = .ok (sections ++ [node], ⟨rest, [], stop⟩) := by
  generalize hks : ts.map Token.kind = ks at h
  cases h with
  | lexicon h =>
    refine ⟨_, rfl, ?_⟩
    unfold Reader.lexicon
    rw [run_bind_of_run (run_dropComments _ _ _)]
    rw [run_bind_of_run (run_section_list Opens.entry accepts_entry (hks ▸ h) _ _ rest stop)]
    rfl
  | notes h =>
    refine ⟨_, rfl, ?_⟩
    unfold Reader.notes
    rw [run_bind_of_run (run_dropComments _ _ _)]
    rw [run_bind_of_run (run_section_list Opens.note accepts_note (hks ▸ h) _ _ rest stop)]
    rfl

theorem foldl_append_snd (members : List (List String × Node)) (sections : List Node) :
    members.foldl (fun sections member => sections ++ [member.2]) sections =
      sections ++ members.map Prod.snd := by
  induction members generalizing sections with
  | nil => simp
  | cons member members ih => simp [ih]

theorem run_sectionObject {ts : List Token} {nodes : List Node} (h : Part (ts.map Token.kind) nodes)
    (sections : List Node) (rest : List Token) (stop : Position) :
    (sectionObject sections).run ⟨ts ++ rest, [], stop⟩ = .ok (sections ++ nodes, ⟨rest, [], stop⟩) := by
  generalize hks : ts.map Token.kind = ks at h
  obtain ⟨h⟩ := h
  unfold sectionObject
  apply run_braced (fun sections member => sections ++ [member.2])
    (fun _ h => run_section_property h) (hks ▸ h)
  intro brace
  rw [run_bind_of_run (run_dropComments _ _ _), foldl_append_snd]
  rfl

theorem Opens.part : Opens Part := by
  intro ks _ h
  obtain ⟨h⟩ := h
  exact Opens.object h

theorem ofTokens_of_derives {tokens : Tokens} {tree : Node}
    (h : Document (tokens.list.map Token.kind) tree) : ofTokens tokens = .ok tree := by
  obtain ⟨ts, stop⟩ := tokens
  generalize hks : ts.map Token.kind = ks at h
  obtain ⟨h⟩ := h
  obtain ⟨opening, inner, closing, rfl, hopening, hclosing, hinner⟩ := Listed.exists_tokens (hks ▸ h)
  have hrun : (foldItems sectionObject []).run ⟨inner ++ closing :: [], [], stop⟩ =
      .ok (_, ⟨[], [], stop⟩) :=
    run_foldItems (fun sections nodes => sections ++ nodes) Opens.part
      (fun hpart => run_sectionObject hpart _ _ _) hinner rfl hclosing
  unfold ofTokens Reader.fixture
  rw [run_bind_of_run (run_next_cons (by rw [hopening]; rfl)), if_pos hopening]
  rw [run_bind_of_run hrun, List.foldl_append_eq_append]
  simp [finish, Unread.settle, leadingComments, run_bind, Except.map]

end LexiconAudit.Fixture
