import LexiconAudit.Failure
import LexiconAudit.Proofs.Database.Frame
import LexiconAudit.Proofs.Database.Lexicon
import Mathlib.Data.List.Perm.Basic

/-!
This module contains the independence of an audit from the order in which a database keeps its documents.
Two runs over the same documents are followed side by side: what is read is the same up to its order, and
where one run stops the other one stops with a discrepancy of the same class.
-/

namespace LexiconAudit.Database

variable {α β : Type}

/--
Two checks that end alike: both pass with answers that are related, or both stop with discrepancies of one
class.
-/
inductive Alike (r : α → α → Prop) : (x y : Except Discrepancy α) → Prop where
  | ok {a b : α} : r a b → Alike r (.ok a) (.ok b)
  | error {d d' : Discrepancy} : d.failureClass = d'.failureClass → Alike r (.error d) (.error d')

namespace Alike

variable {r : α → α → Prop} {s : β → β → Prop}

theorem refl (hr : ∀ a, r a a) (x : Except Discrepancy α) : Alike r x x := by
  cases x with
  | error d => exact .error rfl
  | ok a => exact .ok (hr a)

theorem bind {x y : Except Discrepancy α} {f g : α → Except Discrepancy β} (h : Alike r x y)
    (hfg : ∀ a b, r a b → Alike s (f a) (g b)) : Alike s (x >>= f) (y >>= g) := by
  cases h with
  | error hclass => exact .error hclass
  | ok hab => exact hfg _ _ hab

theorem forM {f g : β → Except Discrepancy Unit} (h : ∀ b, Alike (fun _ _ => True) (f b) (g b)) (bs : List β) :
    Alike (fun _ _ => True) (bs.forM f) (bs.forM g) := by
  induction bs with
  | nil => exact .ok trivial
  | cons b bs ih => exact (h b).bind fun _ _ _ => ih

end Alike

/-! Documents of the lexicon. -/

theorem liveDocuments_perm {documents documents' : List Json} (h : documents.Perm documents') :
    (liveDocuments documents).Perm (liveDocuments documents') :=
  h.filter _

def headwordIds (documents : List Json) : List String :=
  (documents.filter fun document => (headword? document).isSome).filterMap documentId?

theorem resolves_iff_of_nodup {documents : List Json} (h : (headwordIds documents).Nodup) {id word : String} :
    Resolves documents id word ↔
      ∃ document ∈ documents, documentId? document = some id ∧ headword? document = some word := by
  constructor
  . intro ⟨before, document, after, hdocuments, hid, hword, _⟩
    refine ⟨document, ?_, hid, hword⟩
    rw [hdocuments]
    exact List.mem_append_right _ List.mem_cons_self
  . intro ⟨document, hmem, hid, hword⟩
    obtain ⟨before, after, rfl⟩ := List.append_of_mem hmem
    refine ⟨before, document, after, rfl, hid, hword, ?_⟩
    intro later hlater hlaterid
    apply Option.eq_none_iff_forall_ne_some.2
    intro word' hword'
    have hafter : id ∈ headwordIds after := by
      apply List.mem_filterMap.2
      exact ⟨later, List.mem_filter.2 ⟨hlater, by simp [hword']⟩, hlaterid⟩
    have hsplit : headwordIds (before ++ document :: after) =
        headwordIds before ++ id :: headwordIds after := by
      simp [headwordIds, hword, hid]
    rw [hsplit] at h
    exact (List.nodup_cons.1 (List.nodup_append.1 h).2.1).1 hafter

theorem resolves_perm {documents documents' : List Json} (h : documents.Perm documents')
    (hids : (headwordIds documents).Nodup) {id word : String} :
    Resolves documents id word ↔ Resolves documents' id word := by
  have hids' : (headwordIds documents').Nodup :=
    ((h.filter _).filterMap documentId?).nodup_iff.1 hids
  rw [resolves_iff_of_nodup hids, resolves_iff_of_nodup hids']
  simp only [h.mem_iff]

theorem entry?_ofDocuments_perm {documents documents' : List Json} (h : documents.Perm documents')
    (hunique : ((liveDocuments documents).filterMap headword?).Nodup) (word : String) :
    LexiconIndex.entry? (.ofDocuments documents) word = LexiconIndex.entry? (.ofDocuments documents') word := by
  have hunique' := ((liveDocuments_perm h).filterMap headword?).nodup_iff.1 hunique
  apply Option.ext
  intro document
  rw [entry?_ofDocuments_eq_some_iff hunique, entry?_ofDocuments_eq_some_iff hunique',
    (liveDocuments_perm h).mem_iff]

theorem verifyEntry_congr {index index' : LexiconIndex} (h : ∀ word, index.entry? word = index'.entry? word)
    (record : Nat) (expected : Node) : verifyEntry index record expected = verifyEntry index' record expected := by
  unfold verifyEntry
  simp only [h]

/-! Matching notes with comments. -/

theorem takeOnly_perm {p : α → Bool} {xs ys rest : List α} {x : α} (h : xs.Perm ys)
    (htake : takeOnly p xs = some (x, rest)) : ∃ rest', takeOnly p ys = some (x, rest') ∧ rest.Perm rest' := by
  obtain ⟨before, after, rfl, rfl, hx, hothers⟩ := takeOnly_eq_some_iff.1 htake
  obtain ⟨before', after', rfl⟩ := List.append_of_mem (h.subset (List.mem_append_right _ List.mem_cons_self))
  have hrest : (before ++ after).Perm (before' ++ after') := by
    rw [← List.perm_cons x]
    exact List.perm_middle.symm.trans (h.trans List.perm_middle)
  refine ⟨before' ++ after', takeOnly_eq_some_iff.2 ⟨before', after', rfl, rfl, hx, ?_⟩, hrest⟩
  intro y hy
  exact hothers y (hrest.symm.subset hy)

theorem takeOnly_eq_none_of_perm {p : α → Bool} {xs ys : List α} (h : xs.Perm ys)
    (htake : takeOnly p xs = none) : takeOnly p ys = none := by
  apply Option.eq_none_iff_forall_ne_some.2
  intro ⟨x, rest⟩ hys
  obtain ⟨rest', hxs, -⟩ := takeOnly_perm h.symm hys
  cases htake.symm.trans hxs

theorem alike_matchNote (record : Nat) (note : Node) {comments comments' : List OpenComment}
    (h : comments.Perm comments') :
    Alike List.Perm (matchNote record note comments) (matchNote record note comments') := by
  have hany (p : OpenComment → Bool) : comments.any p = comments'.any p := by
    rw [Bool.eq_iff_iff, List.any_eq_true, List.any_eq_true]
    simp only [h.mem_iff]
  unfold matchNote
  split
  . exact .error rfl
  next key _ =>
  dsimp only
  split
  . next found rest htake =>
    obtain ⟨rest', htake', hrest⟩ := takeOnly_perm h htake
    rw [htake']
    dsimp only
    split
    . exact (Alike.refl (r := fun _ _ => True) (fun _ => trivial) _).bind fun _ _ _ => .ok hrest
    . exact .ok hrest
  . next htake =>
    rw [takeOnly_eq_none_of_perm h htake, hany, hany]
    exact Alike.refl List.Perm.refl _

theorem alike_matchNotes (record : Nat) (notes : List Node) {comments comments' : List OpenComment}
    (h : comments.Perm comments') :
    Alike (fun _ _ => True) (matchNotes record notes comments) (matchNotes record notes comments') := by
  induction notes generalizing record comments comments' with
  | nil => exact .ok trivial
  | cons note notes ih =>
    unfold matchNotes
    exact (alike_matchNote record note h).bind fun _ _ hrest => ih (record + 1) hrest

/-! Open comments. -/

theorem failureClass_of_targets_eq_error {position : Nat} {comments : List Json} {d : Discrepancy}
    (h : targets position comments = .error d) : d.failureClass = .schemaViolation := by
  induction comments generalizing position with
  | nil => cases h
  | cons comment comments ih =>
    unfold targets at h
    split at h
    . cases h
      rfl
    . rcases bind_eq_error_iff.1 h with h | ⟨ts, _, h⟩
      . exact ih h
      . cases h

theorem failureClass_of_key_eq_error {index : LexiconIndex} {t : Target} {d : Discrepancy}
    (h : t.key index = .error d) : d.failureClass = .missingArtifact := by
  unfold Target.key at h
  split at h
  . cases h
  . split at h
    . cases h
    . cases h
      rfl

def AllTargeted (comments : List Json) : Prop :=
  ∀ comment ∈ comments, ∃ t, HasTarget comment t

theorem allTargeted_iff {position : Nat} {comments : List Json} :
    AllTargeted comments ↔ ∃ ts, targets position comments = .ok ts := by
  simp only [targets_eq_ok_iff]
  constructor
  . intro h
    induction comments with
    | nil => exact ⟨[], .nil⟩
    | cons comment comments ih =>
      obtain ⟨t, ht⟩ := h comment List.mem_cons_self
      obtain ⟨ts, hts⟩ := ih fun other hother => h other (List.mem_cons_of_mem _ hother)
      exact ⟨t :: ts, .cons ht hts⟩
  . intro ⟨ts, hts⟩ comment hcomment
    induction hts with
    | nil => cases hcomment
    | cons ht _ ih =>
      rcases List.mem_cons.1 hcomment with rfl | hcomment
      . exact ⟨_, ht⟩
      . exact ih hcomment

theorem AllTargeted.of_perm {comments comments' : List Json} (h : AllTargeted comments)
    (hperm : comments.Perm comments') : AllTargeted comments' :=
  fun comment hcomment => h comment (hperm.symm.subset hcomment)

def Opens (lexicon : List Json) (comment : Json) (c : OpenComment) : Prop :=
  c.comment = comment ∧ IsAbout lexicon comment c.key

theorem isAbout_perm {lexicon lexicon' : List Json} (h : lexicon.Perm lexicon')
    (hids : (headwordIds lexicon).Nodup) {comment : Json} {key : String} (hkey : IsAbout lexicon comment key) :
    IsAbout lexicon' comment key := by
  cases hkey with
  | word htarget => exact .word htarget
  | entry htarget hword => exact .entry htarget ((resolves_perm h hids).1 hword)

theorem forall₂_opens_iff {lexicon comments : List Json} {cs : List OpenComment} :
    List.Forall₂ (Opens lexicon) comments cs ↔
      ∃ keys, List.Forall₂ (IsAbout lexicon) comments keys ∧ cs = List.zipWith OpenComment.mk keys comments := by
  constructor
  . intro h
    induction h with
    | nil => exact ⟨[], .nil, rfl⟩
    | @cons comment c _ _ hopens _ ih =>
      obtain ⟨keys, hkeys, rfl⟩ := ih
      obtain ⟨rfl, habout⟩ := hopens
      exact ⟨c.key :: keys, .cons habout hkeys, rfl⟩
  . intro ⟨keys, hkeys, hcs⟩
    subst hcs
    induction hkeys with
    | nil => exact .nil
    | cons habout _ ih => exact .cons ⟨rfl, habout⟩ ih

section Memory

variable {memory memory' : Memory} {database : String}

theorem failureClass_of_openComments_eq_error {d : Discrepancy}
    (h : openComments memory.store database = .error d) :
    (AllTargeted (liveDocuments (memory.documents database commentsCollection)) ∧
      d.failureClass = .missingArtifact) ∨
    (¬AllTargeted (liveDocuments (memory.documents database commentsCollection)) ∧
      d.failureClass = .schemaViolation) := by
  rw [openComments_store] at h
  rcases bind_eq_error_iff.1 h with h | ⟨ts, hts, h⟩
  . refine .inr ⟨?_, failureClass_of_targets_eq_error h⟩
    intro hall
    obtain ⟨ts, hts⟩ := allTargeted_iff.1 hall
    cases hts.symm.trans h
  . refine .inl ⟨allTargeted_iff.2 ⟨ts, hts⟩, ?_⟩
    rcases bind_eq_error_iff.1 h with h | ⟨keys, _, h⟩
    . obtain ⟨t, _, ht⟩ := exists_of_mapM_eq_error h
      exact failureClass_of_key_eq_error ht
    . cases h

variable
  (hlexicon : (memory.documents database lexiconCollection).Perm (memory'.documents database lexiconCollection))
  (hcomments :
    (memory.documents database commentsCollection).Perm (memory'.documents database commentsCollection))
  (hids : (headwordIds (memory.documents database lexiconCollection)).Nodup)

include hlexicon hcomments hids

theorem openComments_perm {cs : List OpenComment} (h : openComments memory.store database = .ok cs) :
    ∃ cs', openComments memory'.store database = .ok cs' ∧ cs.Perm cs' := by
  rw [openComments_eq_ok_iff, ← forall₂_opens_iff] at h
  obtain ⟨cs', hopens, hperm⟩ := List.perm_comp_forall₂ (liveDocuments_perm hcomments).symm h
  refine ⟨cs', ?_, hperm.symm⟩
  rw [openComments_eq_ok_iff, ← forall₂_opens_iff]
  exact hopens.imp fun comment c hopen => ⟨hopen.1, isAbout_perm hlexicon hids hopen.2⟩

theorem alike_openComments :
    Alike List.Perm (openComments memory.store database) (openComments memory'.store database) := by
  have hids' : (headwordIds (memory'.documents database lexiconCollection)).Nodup :=
    ((hlexicon.filter _).filterMap documentId?).nodup_iff.1 hids
  cases h : openComments memory.store database with
  | ok cs =>
    obtain ⟨cs', h', hperm⟩ := openComments_perm hlexicon hcomments hids h
    rw [h']
    exact .ok hperm
  | error d =>
    cases h' : openComments memory'.store database with
    | ok cs' =>
      -- the other way round what one order opens the other one opens too
      obtain ⟨cs, hcs, -⟩ := openComments_perm hlexicon.symm hcomments.symm hids' h'
      cases h.symm.trans hcs
    | error d' =>
      have hperm := liveDocuments_perm hcomments
      apply Alike.error
      rcases failureClass_of_openComments_eq_error h with ⟨hall, hclass⟩ | ⟨hall, hclass⟩
      . rcases failureClass_of_openComments_eq_error h' with ⟨_, hclass'⟩ | ⟨hall', _⟩
        . rw [hclass, hclass']
        . exact absurd (hall.of_perm hperm) hall'
      . rcases failureClass_of_openComments_eq_error h' with ⟨hall', _⟩ | ⟨_, hclass'⟩
        . exact absurd (hall'.of_perm hperm.symm) hall
        . rw [hclass, hclass']

theorem alike_verifyNotes (notes : Node) :
    Alike (fun _ _ => True) (verifyNotes memory.store database notes)
      (verifyNotes memory'.store database notes) := by
  unfold verifyNotes
  refine (alike_openComments hlexicon hcomments hids).bind fun cs cs' hperm => ?_
  dsimp only
  rw [hperm.length_eq]
  split
  . exact alike_matchNotes 0 _ hperm
  . exact .error rfl

omit hcomments hids in
theorem alike_verifyLexicon (lexicon : Node) :
    Alike (fun _ _ => True) (verifyLexicon memory.store database lexicon)
      (verifyLexicon memory'.store database lexicon) := by
  have hnodup := ((liveDocuments_perm hlexicon).filterMap headword?).nodup_iff
  unfold verifyLexicon
  rw [fetch_store, fetch_store]
  dsimp only [bind, Except.bind]
  cases hshared : (LexiconIndex.ofDocuments (memory.documents database lexiconCollection)).sharedWord? with
  | none =>
    rw [LexiconIndex.sharedWord?_ofDocuments_eq_none_iff] at hshared
    rw [LexiconIndex.sharedWord?_ofDocuments_eq_none_iff.2 (hnodup.1 hshared)]
    dsimp only
    rw [verifyEntries_eq fun entry _ record =>
      verifyEntry_congr (entry?_ofDocuments_perm hlexicon hshared) record entry]
    exact Alike.refl (fun _ => trivial) _
  | some word =>
    cases hshared' : (LexiconIndex.ofDocuments (memory'.documents database lexiconCollection)).sharedWord? with
    | none =>
      rw [LexiconIndex.sharedWord?_ofDocuments_eq_none_iff, ← hnodup,
        ← LexiconIndex.sharedWord?_ofDocuments_eq_none_iff] at hshared'
      cases hshared.symm.trans hshared'
    | some word' => exact .error rfl

theorem alike_verify (expected : Node) :
    Alike (fun _ _ => True) (verify memory.store database expected) (verify memory'.store database expected) := by
  apply Alike.forM
  intro part
  unfold verifySection
  split
  . exact alike_verifyLexicon hlexicon part
  . split
    . exact alike_verifyNotes hlexicon hcomments hids part
    . exact .error rfl

/--
If no two documents with a headword share an id, to rearrange the entries and the comments of a database
changes neither whether it passes nor the class of the failure.
-/
theorem verify_perm (expected : Node) :
    (verify memory'.store database expected = .ok () ↔ verify memory.store database expected = .ok ()) ∧
      ∀ d d', verify memory.store database expected = .error d →
        verify memory'.store database expected = .error d' → d'.failureClass = d.failureClass := by
  have h := alike_verify hlexicon hcomments hids expected
  generalize verify memory.store database expected = x at h
  generalize verify memory'.store database expected = y at h
  cases h with
  | ok =>
    refine ⟨Iff.rfl, ?_⟩
    intro d d' hd
    cases hd
  | error hclass =>
    refine ⟨by simp, ?_⟩
    intro d d' hd hd'
    cases hd
    cases hd'
    exact hclass.symm

end Memory

/-! Two entries, of which one is deleted, and a comment on each of them. -/

def sunEntry : Json :=
  .object [("_id", .string "e1"), ("lexeme", .object [("en", .object [("value", .string "sun")])])]

def moonEntry : Json :=
  .object [("_id", .object [("$oid", .string "e2")]), ("isDeleted", .bool true),
    ("lexeme", .object [("en", .object [("value", .string "moon")])])]

def sunComment : Json :=
  .object [("regarding", .object [("word", .string "sun"), ("meaning", .string "")]),
    ("content", .string "check")]

def moonComment : Json :=
  .object [("regarding", .object [("field", .string "gloss"), ("fieldValue", .string "lune")]),
    ("entryRef", .string "e2"), ("content", .string "check")]

def skyMemory (entries comments : List Json) : Memory where
  databases := [("sf_demo", [(lexiconCollection, entries), (commentsCollection, comments)])]

def skyNote (word : String) : Node where
  name := Node.annotationName
  attributes := [(Node.referenceKey, Node.labelMark ++ word)]
  children := [.leaf Node.messageName "check"]

def skyTree (words : List String) : Node where
  name := Node.rootName
  children := [
    { name := Node.lexiconName, children := [
      { name := Node.entryName, children := [Fixture.Reader.lexemeForm "en" "sun"] }] },
    { name := Node.notesName, children := words.map skyNote }]

theorem verify_rearrangedSky :
    [sunEntry, moonEntry].Perm [moonEntry, sunEntry] ∧ [sunComment, moonComment].Perm [moonComment, sunComment] ∧
      (headwordIds [sunEntry, moonEntry]).Nodup ∧
        verify (skyMemory [moonEntry, sunEntry] [moonComment, sunComment]).store "sf_demo"
          (skyTree ["sun", "moon"]) = .ok () ∧
        ∀ d, verify (skyMemory [moonEntry, sunEntry] [moonComment, sunComment]).store "sf_demo"
          (skyTree ["sun", "sun"]) = .error d → d.failureClass = .missingArtifact := by
  have hentries : [sunEntry, moonEntry].Perm [moonEntry, sunEntry] := .swap _ _ _
  have hcomments : [sunComment, moonComment].Perm [moonComment, sunComment] := .swap _ _ _
  have hids : (headwordIds [sunEntry, moonEntry]).Nodup := by decide
  have hpasses : verify (skyMemory [sunEntry, moonEntry] [sunComment, moonComment]).store "sf_demo"
      (skyTree ["sun", "moon"]) = .ok () := by with_unfolding_all rfl
  have hfails : verify (skyMemory [sunEntry, moonEntry] [sunComment, moonComment]).store "sf_demo"
      (skyTree ["sun", "sun"]) = .error (.noteMissing "sun" 1) := by with_unfolding_all rfl
  have hsame := @verify_perm (skyMemory [sunEntry, moonEntry] [sunComment, moonComment])
    (skyMemory [moonEntry, sunEntry] [moonComment, sunComment]) "sf_demo" hentries hcomments hids
  exact ⟨hentries, hcomments, hids, (hsame _).1.2 hpasses, fun d hd => (hsame _).2 _ d hfails hd⟩

end LexiconAudit.Database
