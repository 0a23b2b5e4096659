import LexiconAudit.Proofs.Fixture.Hearing
import LexiconAudit.Proofs.Fixture.WellMade

/-!
This module contains why the entries and the notes that are read bear the markers that their tokens call
for: each property of an entry, a sense, a note or a message keeps the tally, and so do the objects and lists
made of them, up to the sections of a fixture.
-/

namespace LexiconAudit.Fixture

open Grammar Reading
open Node (marksOf marksOf_singleton)
open Reader hiding lexicon notes object sense entry note reply message senses fixture

variable {α : Type}

/-! The markers of what is read. -/

theorem marksOf_absent (name : String) : marksOf [Node.absent name] = [Node.absent name] :=
  marksOf_singleton _

theorem marksOf_eq_self {nodes : List Node} (h : ∀ node ∈ nodes, IsMarker node) : marksOf nodes = nodes := by
  induction nodes with
  | nil => rfl
  | cons node nodes ih =>
    rw [List.forall_mem_cons] at h
    obtain ⟨⟨field, rfl⟩, hnodes⟩ := h
    rw [← List.singleton_append, Node.marksOf_append, ih hnodes, marksOf_absent]

theorem marksOf_markers (bodies : List String) : marksOf (markers bodies) = markers bodies :=
  marksOf_eq_self fun _ h => isMarker_of_mem_markers h

@[simp]
theorem marksOf_container (name : String) (children : List Node) :
    marksOf [container name children] = marksOf children :=
  marksOf_singleton _

theorem marksOf_alternative (name system value : String) : marksOf [alternative name system value] = [] :=
  marksOf_singleton _

theorem marksOf_lexemeForm (system value : String) : marksOf [lexemeForm system value] = [] := by
  simp [lexemeForm, marksOf_alternative]

theorem marksOf_definition (system value : String) : marksOf [Reader.definition system value] =
    (if value.isEmpty then Property.definition.emptyElement? else none).toList.map Node.absent := by
  unfold Reader.definition
  split
  . exact marksOf_absent _
  . rw [marksOf_container, marksOf_singleton, marksOf_alternative]
    rfl

theorem marksOf_gloss (system value : String) : marksOf [Reader.gloss system value] =
    (if value.isEmpty then Property.gloss.emptyElement? else none).toList.map Node.absent := by
  unfold Reader.gloss
  split
  . exact marksOf_absent _
  . rw [marksOf_container, marksOf_alternative]
    rfl

theorem marksOf_addChildren {node : Node} (h : node.expectsAbsence = false) (children : List Node) :
    marksOf [node.addChildren children] = marksOf [node] ++ marksOf children := by
  have hadded : (node.addChildren children).expectsAbsence = false := h
  rw [marksOf_singleton, marksOf_singleton, h, hadded]
  exact Node.marksOf_append _ _

theorem marksOf_messages (ms : List Message) : marksOf (ms.map Message.toNode) = [] := by
  induction ms with
  | nil => rfl
  | cons m ms ih =>
    rw [List.map_cons, ← List.singleton_append, Node.marksOf_append, ih, marksOf_singleton,
      Message.expectsAbsence_toNode, Message.children_toNode]
    rfl

theorem marksOf_markLast {marks senses senses' : List Node} (h : markLast marks senses = some senses')
    (hsenses : ∀ sense ∈ senses, SenseShape sense) : marksOf senses' = marksOf senses ++ marksOf marks := by
  fun_induction markLast marks senses generalizing senses' with
  | case1 hempty =>
    cases h
    rw [List.isEmpty_iff.1 hempty]
    rfl
  | case2 => cases h
  | case3 last =>
    cases h
    exact marksOf_addChildren (hsenses last List.mem_cons_self).expectsAbsence marks
  | case4 sense senses _ ih =>
    obtain ⟨rest, hrest, rfl⟩ := Option.map_eq_some_iff.1 h
    rw [List.forall_mem_cons] at hsenses
    rw [← List.singleton_append, Node.marksOf_append, ih hrest hsenses.2, ← List.append_assoc,
      ← Node.marksOf_append]
    rfl

/-! Records between their braces. -/

theorem tally_propertyColon {scope : Scope} {name : String} {outer : List Frame} {made : List Node}
    {bodies : List String} {ks : List Kind} (hhears : hears (.object scope (some name) :: outer) (.colon :: ks) = true)
    (hempty : emptyElement? (.object scope (some name) :: outer) ks = none) :
    tally made (.object scope (some name) :: outer) (bodies.map .comment ++ .colon :: ks) =
      tally (made ++ markers bodies) (.object scope (some name) :: outer) ks := by
  rw [tally_of_hears hhears, tally_colon, hempty]
  exact congrArg (tally · _ _) (List.append_nil _)

section Braces

variable {scope : Scope} (hrecord : scope.isRecord = true) {outer : List Frame}

include hrecord

theorem hears_close (name : Option String) (ks : List Kind) :
    hears (.object scope name :: outer) (.rightBrace :: ks) = true := by
  cases scope <;> first | rfl | cases hrecord

theorem tally_close (made : List Node) (name : Option String) (bodies : List String) (ks : List Kind) :
    tally made (.object scope name :: outer) (bodies.map .comment ++ .rightBrace :: ks) =
      (made ++ markers bodies, (survey outer ks).2) := by
  have hcloses : closesRecord (.object scope name :: outer) .rightBrace = true := hrecord
  rw [tally_of_hears (hears_close hrecord name ks), tally, survey_of_closes hcloses]
  simp [advance]

theorem exists_record {place : Place} {property : Property → Option (α → Reader α)} (made : α → List Node)
    (hproperty : ∀ total, KeptByProperty (fun a frames ks => tally (made a) frames ks = total) scope
      (.list scope :: outer) property)
    {a b : α} (ha : made a = []) {wanted : String} {u w x : Unread} {token brace : Token} {ts : List Token}
    (hcomments : u.comments = []) (hts : u.tokens = token :: ts) (htoken : token.kind.isComment = false)
    (hbrace : (expect .leftBrace wanted).run u = .ok (brace, w))
    (hobject : (Reader.object place property a).run w = .ok (b, x)) :
    ∃ record, record.scope = scope ∧ record.marks = made b ++ markers x.comments ∧
      (survey (.list scope :: outer) u.whole).2 = record :: (survey (.list scope :: outer) x.kinds).2 := by
  obtain ⟨brace', w', hnext, hbrace'⟩ := run_bind_eq_ok_iff.1 hbrace
  have hw : w.comments = [] := by
    split at hbrace' <;> cases hbrace'
    rw [(eq_of_next hts htoken hnext).2]
    exact hcomments
  have hu : u.whole = .leftBrace :: w.whole := by
    rw [(whole_of_expect hbrace).2.2, Unread.whole, hw]
    rfl
  obtain ⟨name, hclose⟩ := object_keep (keptByQuiet_tally made _) (hproperty _) hobject rfl
  rw [tally_close hrecord, ha] at hclose
  have hopens : opensRecord (.list scope :: outer) .leftBrace = true := hrecord
  rw [hu, survey_of_opens hopens]
  refine ⟨⟨scope, (survey (.object scope none :: .list scope :: outer) w.whole).1⟩, rfl, ?_, ?_⟩
  . exact (congrArg Prod.fst hclose).symm
  . exact congrArg _ (congrArg Prod.snd hclose).symm

end Braces

/-! Entries. -/

section Entry

variable {frames : List Frame} (hentry : recordScope? frames = some .entry)

include hentry

theorem tally_senseColon (made : List Node) (name : String) (bodies : List String) (ks : List Kind) :
    tally made (.object .sense (some name) :: frames) (bodies.map .comment ++ .colon :: ks) =
      tally (made ++ markers bodies
          ++ (emptyElement? (.object .sense (some name) :: frames) ks).toList.map Node.absent)
        (.object .sense (some name) :: frames) ks := by
  have hinner : recordScope? (.object .sense (some name) :: frames) = some .entry := hentry
  rw [tally_of_hears (hears_of_entry hinner _), tally_colon]

theorem emptyElement?_eq {name : String} {p : Property} (hp : Property.ofName? name = some p) (ks : List Kind) :
    emptyElement? (.object .sense (some name) :: frames) ks =
      if isEmptyValue ks then p.emptyElement? else none := by
  simp [emptyElement?, hentry, hp]

theorem keptBySenseProperty (made : List Node) (total : List Node × List Record) :
    KeptByProperty (fun children frames ks => tally (made ++ marksOf children) frames ks = total) .sense frames
      Reader.sense.property := by
  intro name p read children children' u v hp hread hrun h
  have hinner : recordScope? (.object .sense (some name) :: frames) = some .entry := hentry
  rw [tally_senseColon hentry, emptyElement?_eq hentry hp] at h
  rw [← h]
  cases p <;> cases hread
  all_goals
    obtain ⟨_, w, htake, hrun⟩ := run_bind_eq_ok_iff.1 hrun
    cases htake
  case partOfSpeech =>
    obtain ⟨_, _, hskip, hrun⟩ := run_bind_eq_ok_iff.1 hrun
    cases hrun
    rw [← tally_skip hinner (.member (.inl rfl)) hskip, Unread.whole_taken]
    simp [marksOf_markers, Property.emptyElement?]
  all_goals
    obtain ⟨⟨system, value⟩, _, hvalue, hrun⟩ := run_bind_eq_ok_iff.1 hrun
    cases hrun
    have hempty : isEmptyValue u.kinds = value.isEmpty := isEmptyValue_of_run hvalue
    rw [← tally_writingSystemValue hinner rfl hvalue, Unread.whole_taken, hempty]
    simp only [Node.marksOf_append, marksOf_markers, marksOf_definition, marksOf_gloss, List.append_assoc]

theorem tally_sense (hscope : objectScope frames = .sense) {u v : Unread} {node : Node}
    (h : Reader.sense.run u = .ok (node, v)) (made : List Node) :
    tally made frames u.whole = tally (made ++ marksOf [node]) frames v.whole := by
  obtain ⟨_, w, hbrace, h⟩ := run_bind_eq_ok_iff.1 h
  obtain ⟨children, x, hobject, h⟩ := run_bind_eq_ok_iff.1 h
  obtain ⟨_, _, htake, h⟩ := run_bind_eq_ok_iff.1 h
  cases htake
  cases h
  have hopen : tally made frames u.whole = tally made (.object .sense none :: frames) w.whole := by
    rw [tally_of_expect hbrace (glides_leftBrace hentry (by rw [hscope]; rfl)), advance, hscope]
  obtain ⟨name, hclose⟩ := object_keep (keptByQuiet_tally (fun children => made ++ marksOf children) _)
    (keptBySenseProperty hentry made _) hobject
    (by rw [Node.marksOf_nil, List.append_nil, ← hopen])
  have hinner : recordScope? (.object .sense name :: frames) = some .entry := hentry
  have hbehind : Glides (.object .sense name :: frames) .rightBrace :=
    glides_of_entry hinner rfl rfl fun _ => rfl
  rw [← hclose, hbehind, advance, List.tail_cons, tally_of_hears (hears_of_entry hentry _), Unread.whole_taken]
  simp [marksOf_markers]

theorem tally_senses (hscope : listScope frames = .sense) {u v : Unread} {node : Node}
    (h : Reader.senses.run u = .ok (node, v)) (made : List Node) :
    tally made frames u.whole = tally (made ++ marksOf [node]) frames v.whole := by
  obtain ⟨_, w, hbracket, h⟩ := run_bind_eq_ok_iff.1 h
  obtain ⟨senses, x, hitems, h⟩ := run_bind_eq_ok_iff.1 h
  obtain ⟨_, _, htake, h⟩ := run_bind_eq_ok_iff.1 h
  cases htake
  split at h
  case h_2 => cases h
  next senses' hlast =>
  cases h
  have hopen : tally made frames u.whole = tally made (.list .sense :: frames) w.whole := by
    rw [tally_of_expect hbracket (glides_of_quiet rfl), advance, hscope]
  have hinner : recordScope? (.list .sense :: frames) = some .entry := hentry
  have hclose := items_keep (keptByQuiet_tally (fun senses => made ++ marksOf senses) (tally made frames u.whole))
    (fun {senses sense _ _ _ _} _ _ hsense h => by
      rw [← h, tally_sense hinner rfl hsense, Node.marksOf_append, List.append_assoc])
    hitems (by rw [Node.marksOf_nil, List.append_nil, ← hopen])
  rw [← hclose, Unread.whole, tally_of_hears (hears_of_entry hentry _), Unread.whole_taken, marksOf_container,
    marksOf_markLast hlast (answers_items answers_sense hitems), marksOf_markers, List.append_assoc]

end Entry

theorem keptByEntryProperty (outer : List Frame) (total : List Node × List Record) :
    KeptByProperty (fun draft frames ks => tally (marksOf draft.children) frames ks = total) .entry outer
      Reader.entry.property := by
  intro name p read draft draft' u v hp hread hrun h
  have hentry : recordScope? (.object .entry (some name) :: outer) = some .entry := rfl
  rw [tally_propertyColon (hears_of_entry hentry _) rfl] at h
  rw [← h]
  cases p <;> cases hread
  all_goals
    obtain ⟨_, w, htake, hrun⟩ := run_bind_eq_ok_iff.1 hrun
    cases htake
  case lexeme =>
    obtain ⟨⟨system, value⟩, _, hvalue, hrun⟩ := run_bind_eq_ok_iff.1 hrun
    cases hrun
    rw [← tally_writingSystemValue hentry rfl hvalue, Unread.whole_taken]
    simp [marksOf_markers, marksOf_lexemeForm]
  case senses =>
    have hscope : listScope (.object .entry (some name) :: outer) = .sense := by simp [listScope, hp]
    obtain ⟨node, _, hsenses, hrun⟩ := run_bind_eq_ok_iff.1 hrun
    cases hrun
    have hkept := tally_senses hentry hscope hsenses (marksOf draft.children ++ markers u.comments)
    rw [Unread.whole_taken] at hkept
    rw [hkept]
    simp [marksOf_markers]

structure Bears (record : Record) (node : Node) : Prop where
  shape : record.scope = .entry ∧ EntryShape node ∨ record.scope = .note ∧ NoteShape node
  marks : marksOf [node] = record.marks

theorem exists_record_of_entry (outer : List Frame) {u v : Unread} {node : Node} {token : Token} {ts : List Token}
    (hcomments : u.comments = []) (hts : u.tokens = token :: ts) (htoken : token.kind.isComment = false)
    (h : Reader.entry.run u = .ok (node, v)) :
    ∃ record, Bears record node ∧
      (survey (.list .entry :: outer) u.whole).2 = record :: (survey (.list .entry :: outer) v.whole).2 := by
  have hshape := answers_entry h
  obtain ⟨_, w, hbrace, h⟩ := run_bind_eq_ok_iff.1 h
  obtain ⟨draft, x, hobject, h⟩ := run_bind_eq_ok_iff.1 h
  obtain ⟨_, _, htake, h⟩ := run_bind_eq_ok_iff.1 h
  cases htake
  split at h <;> cases h
  have hrecord : Scope.entry.isRecord = true := rfl
  obtain ⟨record, hscope, hmarks, hrecords⟩ := exists_record hrecord (fun draft => marksOf draft.children)
    (keptByEntryProperty (.list .entry :: outer)) rfl hcomments hts htoken hbrace hobject
  refine ⟨record, ⟨.inl ⟨hscope, hshape⟩, ?_⟩, hrecords⟩
  simp [hmarks, marksOf_markers]

/-! Notes. -/

section Messages

variable {frames : List Frame} (hnote : recordScope? frames = some .note)

include hnote

theorem hears_message (name : Option String) (ks : List Kind) :
    hears (.object .other name :: frames) ks = false := by
  have hinner : recordScope? (.object .other name :: frames) = some .note := hnote
  simp [hears, hinner, inNote]

theorem tally_messageObject (hobject : objectScope frames = .other) {place : Place}
    {property : Property → Option (α → Reader α)}
    (hproperty : ∀ made total, KeptByProperty (fun _ inner ks => tally made inner ks = total) .other frames property)
    {a b : α} {wanted : String} {brace : Token} {u w x : Unread}
    (hbrace : (expect .leftBrace wanted).run u = .ok (brace, w))
    (hmembers : (Reader.object place property a).run w = .ok (b, x)) (made : List Node) :
    tally made frames u.whole = tally made frames x.kinds := by
  have hopens : Glides frames .leftBrace := by
    have hopens : opensRecord frames .leftBrace = false := by
      rw [opensRecord, hobject]
      rfl
    refine Glides.intro hopens (closesRecord_of_ne (by simp)) (fun _ => rfl) fun ks => ?_
    rw [advance, hobject, hears_message hnote]
    simp [hears, hnote, opensNext]
  have hopen : tally made frames u.whole = tally made (.object .other none :: frames) w.whole := by
    rw [tally_of_expect hbrace hopens, advance, hobject]
  obtain ⟨name, hclose⟩ := object_keep (keptByQuiet_tally (fun _ => made) _) (hproperty made _) hmembers hopen.symm
  have hcloses : closesRecord (.object .other name :: frames) .rightBrace = false := rfl
  rw [← hclose, tally_of_not_hears (hears_message hnote name _), tally_cons rfl hcloses]
  exact congrArg (tally · _ _) (List.append_nil _)

theorem tally_messageColon (made : List Node) (name : String) (bodies : List String) (ks : List Kind) :
    tally made (.object .other (some name) :: frames) (bodies.map .comment ++ .colon :: ks) =
      tally made (.object .other (some name) :: frames) (bodies.map .comment ++ ks) := by
  have hglides : Glides (.object .other (some name) :: frames) .colon :=
    Glides.intro rfl rfl (fun _ => rfl) fun ks => (hears_message hnote _ _).trans (hears_message hnote _ _).symm
  exact hglides made bodies ks

theorem keptByMessageProperty (made : List Node) (total : List Node × List Record) :
    KeptByProperty (fun _ inner ks => tally made inner ks = total) .other frames messageProperty := by
  intro name p read m m' u v _ hread hrun h
  rw [← h, tally_messageColon hnote]
  cases p <;> cases hread
  all_goals
    obtain ⟨_, _, hstring, hrun⟩ := run_bind_eq_ok_iff.1 hrun
    cases hrun
    exact (tally_of_expectString hstring made).symm

theorem tally_message (hobject : objectScope frames = .other) {u v : Unread} {m : Message}
    (h : Reader.message.run u = .ok (m, v)) (made : List Node) :
    tally made frames u.whole = tally made frames v.whole := by
  obtain ⟨_, w, hbrace, h⟩ := run_bind_eq_ok_iff.1 h
  obtain ⟨_, x, hmembers, h⟩ := run_bind_eq_ok_iff.1 h
  obtain ⟨_, _, hdrop, h⟩ := run_bind_eq_ok_iff.1 h
  cases hdrop
  cases h
  exact tally_messageObject hnote hobject (keptByMessageProperty hnote) hbrace hmembers made

theorem keptByReplyProperty (made : List Node) (total : List Node × List Record) :
    KeptByProperty (fun _ inner ks => tally made inner ks = total) .other frames Reader.reply.property := by
  intro name p read draft draft' u v hp hread hrun h
  by_cases hmessage : p = .message
  . subst hmessage
    cases hread
    obtain ⟨m, _, hm, hrun⟩ := run_bind_eq_ok_iff.1 hrun
    cases hrun
    have hinner : recordScope? (.object .other (some name) :: frames) = some .note := hnote
    rw [← h, tally_messageColon hnote]
    exact (tally_message hinner rfl hm made).symm
  -- whatever else a reply allows is a property of a message
  . have hmap : ∃ read', messageProperty p = some read' := by
      cases p <;> first | exact absurd rfl hmessage | exact ⟨_, rfl⟩ | cases hread
    obtain ⟨read', hread'⟩ := hmap
    obtain ⟨read'', hread'', hrun'⟩ := exists_reply_property hread'
    cases hread.symm.trans hread''
    obtain ⟨m, hm, -⟩ := hrun'.1 hrun
    exact keptByMessageProperty hnote made total hp hread' hm h

theorem tally_reply (hobject : objectScope frames = .other) {u v : Unread} {m : Message}
    (h : Reader.reply.run u = .ok (m, v)) (made : List Node) :
    tally made frames u.whole = tally made frames v.whole := by
  obtain ⟨_, w, hbrace, h⟩ := run_bind_eq_ok_iff.1 h
  obtain ⟨_, x, hmembers, h⟩ := run_bind_eq_ok_iff.1 h
  obtain ⟨_, _, hdrop, h⟩ := run_bind_eq_ok_iff.1 h
  cases hdrop
  split at h <;> cases h
  all_goals exact tally_messageObject hnote hobject (keptByReplyProperty hnote) hbrace hmembers made

theorem tally_replies (hscope : listScope frames = .other) {wanted : String} {bracket : Token} {u w v : Unread}
    {ms : List Message} (hbracket : (expect .leftBracket wanted).run u = .ok (bracket, w))
    (h : (items Reader.reply).run w = .ok (ms, v)) (made : List Node) :
    tally made frames u.whole = tally made frames v.whole := by
  have hopen : tally made frames u.whole = tally made (.list .other :: frames) w.whole := by
    rw [tally_of_expect hbracket (glides_of_quiet rfl), advance, hscope]
  have hinner : recordScope? (.list .other :: frames) = some .note := hnote
  exact (items_keep (keptByQuiet_tally (fun _ => made) (tally made frames u.whole))
    (fun _ _ hreply h => by rw [← h, tally_reply hinner rfl hreply]) h hopen.symm).symm

end Messages

theorem keptByNoteProperty (outer : List Frame) (total : List Node × List Record) :
    KeptByProperty (fun draft frames ks => tally draft.markers frames ks = total) .note outer
      Reader.note.property := by
  intro name p read draft draft' u v hp hread hrun h
  have hnote : recordScope? (.object .note (some name) :: outer) = some .note := rfl
  rw [tally_propertyColon rfl rfl] at h
  rw [← h]
  cases p <;> cases hread
  all_goals
    obtain ⟨_, w, htake, hrun⟩ := run_bind_eq_ok_iff.1 hrun
    cases htake
  case message =>
    obtain ⟨m, _, hm, hrun⟩ := run_bind_eq_ok_iff.1 hrun
    cases hrun
    exact (tally_message hnote rfl hm _).symm
  case noteClass =>
    obtain ⟨value, _, hvalue, hrun⟩ := run_bind_eq_ok_iff.1 hrun
    cases hrun
    exact (tally_of_expectString hvalue _).symm
  case ref =>
    obtain ⟨value, _, hvalue, hrun⟩ := run_bind_eq_ok_iff.1 hrun
    cases hrun
    exact (tally_of_expectString hvalue _).symm
  all_goals
    obtain ⟨_, _, hbracket, hrun⟩ := run_bind_eq_ok_iff.1 hrun
    obtain ⟨ms, _, hms, hrun⟩ := run_bind_eq_ok_iff.1 hrun
    cases hrun
    exact (tally_replies hnote rfl hbracket hms _).symm

theorem exists_record_of_note (outer : List Frame) {u v : Unread} {node : Node} {token : Token} {ts : List Token}
    (hcomments : u.comments = []) (hts : u.tokens = token :: ts) (htoken : token.kind.isComment = false)
    (h : Reader.note.run u = .ok (node, v)) :
    ∃ record, Bears record node ∧
      (survey (.list .note :: outer) u.whole).2 = record :: (survey (.list .note :: outer) v.whole).2 := by
  have hshape := answers_note h
  obtain ⟨_, w, hbrace, h⟩ := run_bind_eq_ok_iff.1 h
  obtain ⟨draft, x, hobject, h⟩ := run_bind_eq_ok_iff.1 h
  obtain ⟨_, _, htake, h⟩ := run_bind_eq_ok_iff.1 h
  cases htake
  cases h
  have hrecord : Scope.note.isRecord = true := rfl
  obtain ⟨record, hscope, hmarks, hrecords⟩ := exists_record hrecord (fun draft => draft.markers)
    (keptByNoteProperty (.list .note :: outer)) rfl hcomments hts htoken hbrace hobject
  refine ⟨record, ⟨.inr ⟨hscope, hshape⟩, ?_⟩, hrecords⟩
  have hdraft : NoteDraftShape draft :=
    answers_object (fun hread _ h => answers_note_property hread h)
      ⟨rfl, rfl, rfl, by simp, by simp, by simp⟩ hobject
  have hpresent : draft.node.expectsAbsence = false := hshape.expectsAbsence
  rw [marksOf_addChildren hpresent, marksOf_singleton, hpresent, hdraft.children, hmarks]
  simp [marksOf_messages, marksOf_eq_self hdraft.markers, marksOf_markers]

/-! Sections. -/

def Told (total : List Record) (nodes : List Node) (frames : List Frame) (ks : List Kind) : Prop :=
  ∃ told, total = told ++ (survey frames ks).2 ∧ List.Forall₂ Bears told nodes

section Sections

variable {total : List Record} {nodes : List Node} {frames : List Frame}

theorem told_comments {bodies : List String} {ks : List Kind} :
    Told total nodes frames (bodies.map .comment ++ ks) ↔ Told total nodes frames ks := by
  simp only [Told, survey_comments]

theorem told_cons {k : Kind} (hopens : opensRecord frames k = false) {ks : List Kind} :
    Told total nodes frames (k :: ks) ↔ Told total nodes (advance frames k) ks := by
  simp only [Told, survey_cons_snd hopens]

theorem told_step {k : Kind} (hopens : opensRecord frames k = false) {bodies : List String} {ks : List Kind} :
    Told total nodes frames (bodies.map .comment ++ k :: ks) ↔
      Told total nodes (advance frames k) (bodies.map .comment ++ ks) := by
  rw [told_comments, told_cons hopens, told_comments]

theorem keptByQuiet_told (total : List Record) (nodes : α → List Node) :
    KeptByQuiet fun a frames ks => Told total (nodes a) frames ks := by
  intro a frames k bodies ks hk h
  exact (told_step (opensRecord_of_quiet hk)).1 h

theorem told_section_list {scope : Scope} {item : Reader Node}
    (hitem : ∀ (outer : List Frame) {u v : Unread} {node : Node} {token : Token} {ts : List Token},
      u.comments = [] → u.tokens = token :: ts → token.kind.isComment = false → item.run u = .ok (node, v) →
        ∃ record, Bears record node ∧
          (survey (.list scope :: outer) u.whole).2 = record :: (survey (.list scope :: outer) v.whole).2)
    (hscope : listScope frames = scope) {name wanted : String} {u v : Unread} {node : Node}
    (h : (do
      let _ ← expect .leftBracket wanted
      let nodes ← items (do dropComments; item)
      dropComments
      return container name nodes : Reader Node).run u = .ok (node, v))
    (htold : Told total nodes frames u.whole) : Told total (nodes ++ node.children) frames v.whole := by
  obtain ⟨_, w, hbracket, h⟩ := run_bind_eq_ok_iff.1 h
  obtain ⟨children, x, hitems, h⟩ := run_bind_eq_ok_iff.1 h
  obtain ⟨_, _, hdrop, h⟩ := run_bind_eq_ok_iff.1 h
  cases hdrop
  cases h
  rw [(whole_of_expect hbracket).2.2, told_step rfl, advance, hscope] at htold
  have hclose := items_keep (keptByQuiet_told total fun children => nodes ++ children)
    (fun {children node u v _ _} hts htoken hrun h => ?_) hitems (by rw [List.append_nil]; exact htold)
  . exact told_comments.1 hclose
  obtain ⟨_, _, hdrop, hrun⟩ := run_bind_eq_ok_iff.1 hrun
  cases hdrop
  obtain ⟨record, hbears, hsurvey⟩ := hitem frames (u := { u with comments := [] }) rfl hts htoken hrun
  obtain ⟨told, htotal, hall⟩ := told_comments.1 h
  refine ⟨told ++ [record], ?_, ?_⟩
  . rw [Unread.whole_taken] at hsurvey
    rw [htotal, hsurvey, List.append_assoc]
    rfl
  . rw [← List.append_assoc]
    exact List.rel_append hall (.cons hbears .nil)

theorem keptBySectionProperty (outer : List Frame) (total : List Record) :
    KeptByProperty (fun sections frames ks => Told total (sections.flatMap Node.children) frames ks) .part outer
      Reader.sectionObject.property := by
  intro name p read sections sections' u v hp hread hrun h
  rw [told_step rfl, told_comments] at h
  cases p <;> cases hread
  all_goals
    obtain ⟨_, _, hdrop, hrun⟩ := run_bind_eq_ok_iff.1 hrun
    cases hdrop
    obtain ⟨node, _, hnode, hrun⟩ := run_bind_eq_ok_iff.1 hrun
    cases hrun
    simp only [List.flatMap_append, List.flatMap_singleton]
  . exact told_section_list exists_record_of_entry (by simp [listScope, hp]) hnode h
  . exact told_section_list exists_record_of_note (by simp [listScope, hp]) hnode h

theorem keptBySectionObject (outer : List Frame) (total : List Record) :
    KeptByItem (fun sections frames ks => Told total (sections.flatMap Node.children) frames ks)
      (.list .part :: outer) sectionObject := by
  intro sections sections' u v _ _ _ _ hrun h
  obtain ⟨_, w, hbrace, hrun⟩ := run_bind_eq_ok_iff.1 hrun
  obtain ⟨_, x, hobject, hrun⟩ := run_bind_eq_ok_iff.1 hrun
  obtain ⟨_, _, hdrop, hrun⟩ := run_bind_eq_ok_iff.1 hrun
  cases hdrop
  cases hrun
  rw [(whole_of_expect hbrace).2.2, told_step rfl] at h
  obtain ⟨name, hclose⟩ := object_keep (keptByQuiet_told total _) (keptBySectionProperty _ total) hobject h
  rw [told_step rfl, told_comments] at hclose
  exact hclose

end Sections

theorem bears_of_ofTokens {tokens : Tokens} {tree : Node} (h : ofTokens tokens = .ok tree) :
    List.Forall₂ Bears (records (tokens.list.map Token.kind)) (tree.children.flatMap Node.children) := by
  obtain ⟨bodies, htold⟩ := ofTokens_keep
    (keptByQuiet_told (records (tokens.list.map Token.kind)) fun sections => sections.flatMap Node.children)
    (keptBySectionObject [] _) h ⟨[], rfl, .nil⟩
  rw [← List.append_nil (bodies.map _), told_comments] at htold
  obtain ⟨told, htotal, hall⟩ := htold
  rw [htotal, survey, List.append_nil]
  exact hall

end LexiconAudit.Fixture
