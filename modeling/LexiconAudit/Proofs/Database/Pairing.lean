import LexiconAudit.Database.Memory
import LexiconAudit.Database.Verification
import LexiconAudit.Proofs.Database.Target

/-!
This module contains the verification of notes as a pairing: it passes if and only if what the notes are
about and say is, up to the order and without repetition, what the live comments are about and say, and
every note agrees with the comment that it is paired with.
-/

namespace LexiconAudit.Database

variable {α : Type}

def notePair (note : Node) : Option String × Option String :=
  (note.targetKey?, (note.childrenNamed Node.messageName).head?.map Node.value)

def commentPair (key : String) (comment : Json) : Option String × Option String :=
  (some key, (comment.field? "content").bind Json.asString?)

def threadOf? (note : Node) : Option Thread :=
  Thread.ofMessages? ((note.childrenNamed Node.messageName).map Message.ofNode)

/--
The status that counts is that of the comment, if the note gives any, and the replies that are expected are
the first ones that the comment has.
-/
def Agrees (note : Node) (comment : Json) : Prop :=
  ∀ thread, threadOf? note = some thread →
    (∀ status, thread.status = some status →
      normalStatus (((comment.field? "status").bind Json.asString?).getD "") = status) ∧
    thread.replies <+: replyTexts comment

def Complete (note : Node) : Prop :=
  (note.attribute? Node.referenceKey).isSome ∧ note.childrenNamed Node.messageName ≠ []

/--
Notes and comments, the latter with the keys of what they are about, pair off one by one.
-/
structure PairedOff (notes : List Node) (keys : List String) (comments : List Json) : Prop where
  nodup : (notes.map notePair).Nodup
  perm : (notes.map notePair).Perm (List.zipWith commentPair keys comments)
  agrees : ∀ note ∈ notes, ∀ key comment, (key, comment) ∈ keys.zip comments →
    notePair note = commentPair key comment → Agrees note comment

/-! Threads. -/

theorem compareReplies_eq_ok_iff {key : String} {record index : Nat} {expected found : List String}
    (h : expected.length ≤ found.length) :
    compareReplies key record index expected found = .ok () ↔ expected <+: found := by
  fun_induction compareReplies key record index expected found with
  | case1 index text texts others ih =>
    rw [ih (by simpa using h), List.cons_prefix_cons]
    simp
  | case2 index text texts other others hne =>
    rw [List.cons_prefix_cons]
    simp [hne]
  | case3 texts index others hnone =>
    cases texts with
    | nil => simp
    | cons text texts =>
      cases others with
      | nil => simp at h
      | cons other others => exact absurd rfl (hnone text texts other others rfl)

theorem compareStatus_eq_ok_iff {key : String} {record : Nat} {comment : Json} {expected : Option String} :
    compareStatus key record comment expected = .ok () ↔ ∀ status, expected = some status →
      normalStatus (((comment.field? "status").bind Json.asString?).getD "") = status := by
  cases expected with
  | none => simp [compareStatus]
  | some expected => simp [compareStatus]

theorem compareThread_eq_ok_iff {key : String} {record : Nat} {comment : Json} {thread : Thread} :
    compareThread key record comment thread = .ok () ↔
      (∀ status, thread.status = some status →
        normalStatus (((comment.field? "status").bind Json.asString?).getD "") = status) ∧
      thread.replies <+: replyTexts comment := by
  unfold compareThread
  rw [bind_eq_ok_iff, ← compareStatus_eq_ok_iff]
  constructor
  . intro ⟨_, hstatus, h⟩
    dsimp only at h
    split at h
    . cases h
    . next hlength => exact ⟨hstatus, (compareReplies_eq_ok_iff (by omega)).1 h⟩
  . intro ⟨hstatus, hreplies⟩
    refine ⟨(), hstatus, ?_⟩
    have hlength := hreplies.length_le
    dsimp only
    rw [if_neg (by omega)]
    exact (compareReplies_eq_ok_iff hlength).2 hreplies

/-! Matching. -/

theorem takeOnly_eq_some_iff {p : α → Bool} {xs rest : List α} {x : α} :
    takeOnly p xs = some (x, rest) ↔ ∃ before after, xs = before ++ x :: after ∧ rest = before ++ after ∧
      p x = true ∧ ∀ y ∈ before ++ after, p y = false := by
  constructor
  . intro h
    induction xs generalizing x rest with
    | nil => cases h
    | cons y ys ih =>
      unfold takeOnly at h
      split at h
      . next hy =>
        split at h
        . cases h
        . next hys =>
          cases h
          exact ⟨[], ys, rfl, rfl, hy, by simpa using hys⟩
      . next hy =>
        obtain ⟨⟨found, others⟩, htake, heq⟩ := Option.map_eq_some_iff.1 h
        cases heq
        obtain ⟨before, after, rfl, rfl, hfound, hothers⟩ := ih htake
        refine ⟨y :: before, after, rfl, rfl, hfound, ?_⟩
        rw [List.cons_append, List.forall_mem_cons]
        exact ⟨by simpa using hy, hothers⟩
  . intro ⟨before, after, hxs, hrest, hx, hothers⟩
    induction before generalizing xs rest with
    | nil =>
      subst hxs hrest
      simpa [takeOnly, hx] using hothers
    | cons y before ih =>
      subst hxs hrest
      rw [List.cons_append, List.forall_mem_cons] at hothers
      simp [takeOnly, hothers.1, ih rfl rfl hothers.2]

def OpenComment.pair (c : OpenComment) : Option String × Option String :=
  commentPair c.key c.comment

theorem OpenComment.fits_iff {key content : String} {c : OpenComment} :
    c.fits key (some content) = true ↔ c.pair = (some key, some content) := by
  simp [OpenComment.fits, OpenComment.pair, commentPair]

theorem Complete.exists_pair {note : Node} (h : Complete note) :
    ∃ key content thread, note.targetKey? = some key ∧ threadOf? note = some thread ∧
      thread.content = content ∧ notePair note = (some key, some content) := by
  obtain ⟨hreference, hmessages⟩ := h
  obtain ⟨reference, hreference⟩ := Option.isSome_iff_exists.1 hreference
  obtain ⟨head, rest, hcons⟩ := List.exists_cons_of_ne_nil hmessages
  refine ⟨_, _, _, by rw [Node.targetKey?, hreference]; rfl, by rw [threadOf?, hcons]; rfl, rfl, ?_⟩
  rw [notePair, Node.targetKey?, hreference, hcons]
  rfl

theorem matchNote_eq_ok_iff {record : Nat} {note : Node} {comments rest : List OpenComment}
    (h : Complete note) :
    matchNote record note comments = .ok rest ↔ ∃ before found after, comments = before ++ found :: after ∧
      rest = before ++ after ∧ found.pair = notePair note ∧ (∀ c ∈ before ++ after, c.pair ≠ notePair note) ∧
        Agrees note found.comment := by
  obtain ⟨key, content, thread, hkey, hthread, hcontent, hpair⟩ := h.exists_pair
  have hagrees {comment : Json} :
      compareThread key record comment thread = .ok () ↔ Agrees note comment := by
    rw [compareThread_eq_ok_iff, Agrees, hthread]
    simp
  have htake {found : OpenComment} {others : List OpenComment} :
      takeOnly (OpenComment.fits key (some content)) comments = some (found, others) ↔
        ∃ before after, comments = before ++ found :: after ∧ others = before ++ after ∧
          found.pair = notePair note ∧ ∀ c ∈ before ++ after, c.pair ≠ notePair note := by
    rw [takeOnly_eq_some_iff, hpair]
    simp only [← OpenComment.fits_iff, ne_eq, Bool.not_eq_true]
  change threadOf? note = some thread at hthread
  unfold matchNote
  rw [hkey]
  dsimp only
  rw [← threadOf?, hthread, Option.map_some, hcontent]
  constructor
  . intro h
    split at h
    . next found others hfound =>
      obtain ⟨before, after, hcomments, hothers, hfits, huniq⟩ := htake.1 hfound
      obtain ⟨_, hcompare, h⟩ := bind_eq_ok_iff.1 h
      cases h
      exact ⟨before, found, after, hcomments, hothers, hfits, huniq, hagrees.1 hcompare⟩
    . split at h
      . cases h
      . split at h <;> cases h
  . intro ⟨before, found, after, hcomments, hothers, hfits, huniq, h⟩
    rw [htake.2 ⟨before, after, hcomments, hothers, hfits, huniq⟩]
    exact bind_eq_ok_iff.2 ⟨(), hagrees.2 h, rfl⟩

structure Paired (notes : List Node) (comments : List OpenComment) : Prop where
  nodup : (notes.map notePair).Nodup
  perm : (notes.map notePair).Perm (comments.map OpenComment.pair)
  agrees : ∀ note ∈ notes, ∀ c ∈ comments, notePair note = c.pair → Agrees note c.comment

theorem Paired.of_perm {notes : List Node} {comments comments' : List OpenComment}
    (h : Paired notes comments) (hperm : comments.Perm comments') : Paired notes comments' where
  nodup := h.nodup
  perm := h.perm.trans (hperm.map OpenComment.pair)
  agrees note hnote c hc := h.agrees note hnote c (hperm.symm.subset hc)

theorem paired_cons_iff {note : Node} {notes : List Node} {found : OpenComment}
    {comments : List OpenComment} (hfound : found.pair = notePair note) :
    Paired (note :: notes) (found :: comments) ↔
      (∀ c ∈ comments, c.pair ≠ notePair note) ∧ Agrees note found.comment ∧ Paired notes comments := by
  have hperm : ((note :: notes).map notePair).Perm ((found :: comments).map OpenComment.pair) ↔
      (notes.map notePair).Perm (comments.map OpenComment.pair) := by
    rw [List.map_cons, List.map_cons, hfound, List.perm_cons]
  constructor
  . intro ⟨hnodup, hmatched, hall⟩
    rw [hperm] at hmatched
    rw [List.map_cons, List.nodup_cons] at hnodup
    refine ⟨?_, hall note List.mem_cons_self found List.mem_cons_self hfound.symm, hnodup.2, hmatched, ?_⟩
    . intro c hc hpair
      apply hnodup.1
      apply hmatched.symm.subset
      rw [← hpair]
      exact List.mem_map_of_mem hc
    . intro other hother c hc
      exact hall other (List.mem_cons_of_mem _ hother) c (List.mem_cons_of_mem _ hc)
  . intro ⟨huniq, hagrees, hnodup, hmatched, hall⟩
    have hfresh : notePair note ∉ notes.map notePair := by
      intro hmem
      obtain ⟨c, hc, heq⟩ := List.mem_map.1 (hmatched.subset hmem)
      exact huniq c hc heq
    refine ⟨List.nodup_cons.2 ⟨hfresh, hnodup⟩, hperm.2 hmatched, ?_⟩
    intro other hother c hc heq
    rcases List.mem_cons.1 hother with rfl | hother
    . rcases List.mem_cons.1 hc with rfl | hc
      . exact hagrees
      . exact absurd heq.symm (huniq c hc)
    . rcases List.mem_cons.1 hc with rfl | hc
      . rw [hfound] at heq
        exact absurd (heq ▸ List.mem_map_of_mem hother) hfresh
      . exact hall other hother c hc heq

theorem matchNotes_eq_ok_iff {record : Nat} {notes : List Node} {comments : List OpenComment}
    (h : ∀ note ∈ notes, Complete note) (hlength : notes.length = comments.length) :
    matchNotes record notes comments = .ok () ↔ Paired notes comments := by
  induction notes generalizing record comments with
  | nil =>
    cases List.eq_nil_of_length_eq_zero hlength.symm
    exact iff_of_true rfl ⟨.nil, .nil, nofun⟩
  | cons note notes ih =>
    rw [List.forall_mem_cons] at h
    have hothers {before after : List OpenComment} {found : OpenComment}
        (heq : comments = before ++ found :: after) : notes.length = (before ++ after).length := by
      rw [heq] at hlength
      simp only [List.length_cons, List.length_append] at hlength ⊢
      omega
    unfold matchNotes
    rw [bind_eq_ok_iff]
    constructor
    . intro ⟨rest, hnote, hrest⟩
      obtain ⟨before, found, after, hcomments, rfl, hfound, huniq, hagrees⟩ :=
        (matchNote_eq_ok_iff h.1).1 hnote
      have hpaired := (ih h.2 (hothers hcomments)).1 hrest
      rw [hcomments]
      exact ((paired_cons_iff hfound).2 ⟨huniq, hagrees, hpaired⟩).of_perm List.perm_middle.symm
    . intro hpaired
      -- the pairing names the comment that the first note has to find
      obtain ⟨found, hmem, hfound⟩ := List.mem_map.1 (hpaired.perm.subset List.mem_cons_self)
      obtain ⟨before, after, rfl⟩ := List.append_of_mem hmem
      obtain ⟨huniq, hagrees, hpaired⟩ := (paired_cons_iff hfound).1 (hpaired.of_perm List.perm_middle)
      refine ⟨before ++ after, ?_, (ih h.2 (hothers rfl)).2 hpaired⟩
      exact (matchNote_eq_ok_iff h.1).2 ⟨before, found, after, rfl, rfl, hfound, huniq, hagrees⟩

/-! Open comments. -/

theorem key_congr {index index' : LexiconIndex} {t : Target}
    (h : t.isEntry = true → index = index') : t.key index = t.key index' := by
  cases t with
  | word => rfl
  | entry => rw [h rfl]

theorem forall₂_isAbout_iff {lexicon comments : List Json} {keys : List String} :
    List.Forall₂ (IsAbout lexicon) comments keys ↔ ∃ ts, List.Forall₂ HasTarget comments ts ∧
      List.Forall₂ (fun t key => t.key (.ofDocuments lexicon) = .ok key) ts keys := by
  rw [← forall₂_exists_iff]
  simp only [← isAbout_iff]

theorem mapM_key_eq_ok_iff {lexicon : List Json} {ts : List Target} {keys : List String}
    {index : LexiconIndex} (hindex : ts.any Target.isEntry = true → index = .ofDocuments lexicon) :
    ts.mapM (Target.key index) = .ok keys ↔
      List.Forall₂ (fun t key => t.key (.ofDocuments lexicon) = .ok key) ts keys := by
  have hkeys : ts.mapM (Target.key index) = ts.mapM (Target.key (.ofDocuments lexicon)) := by
    apply mapM_congr
    intro t ht
    apply key_congr
    intro hentry
    exact hindex (List.any_eq_true.2 ⟨t, ht, hentry⟩)
  rw [hkeys, mapM_eq_ok_iff]

section Memory

variable {memory : Memory} {database : String}

theorem openComments_store :
    openComments memory.store database = do
      let comments := liveDocuments (memory.documents database commentsCollection)
      let ts ← targets 0 comments
      let index := if ts.any Target.isEntry then
        .ofDocuments (memory.documents database lexiconCollection) else {}
      let keys ← ts.mapM (Target.key index)
      return List.zipWith OpenComment.mk keys comments := by
  change (targets 0 (liveDocuments (memory.documents database commentsCollection)) >>= _) = _ >>= _
  congr 1
  funext ts
  split <;> rfl

theorem openComments_eq_ok_iff {comments : List OpenComment} :
    openComments memory.store database = .ok comments ↔ ∃ keys,
      List.Forall₂ (IsAbout (memory.documents database lexiconCollection))
        (liveDocuments (memory.documents database commentsCollection)) keys ∧
      comments = List.zipWith OpenComment.mk keys
        (liveDocuments (memory.documents database commentsCollection)) := by
  have hindex (ts : List Target) : ts.any Target.isEntry = true →
      (if ts.any Target.isEntry then .ofDocuments (memory.documents database lexiconCollection) else {}) =
        LexiconIndex.ofDocuments (memory.documents database lexiconCollection) :=
    fun hany => if_pos hany
  rw [openComments_store]
  constructor
  . intro h
    obtain ⟨ts, hts, h⟩ := bind_eq_ok_iff.1 h
    obtain ⟨keys, hkeys, h⟩ := bind_eq_ok_iff.1 h
    cases h
    rw [targets_eq_ok_iff] at hts
    rw [mapM_key_eq_ok_iff (hindex ts)] at hkeys
    exact ⟨keys, forall₂_isAbout_iff.2 ⟨ts, hts, hkeys⟩, rfl⟩
  . intro ⟨keys, h, hcomments⟩
    obtain ⟨ts, hts, hkeys⟩ := forall₂_isAbout_iff.1 h
    rw [← mapM_key_eq_ok_iff (hindex ts)] at hkeys
    refine bind_eq_ok_iff.2 ⟨ts, targets_eq_ok_iff.2 hts, bind_eq_ok_iff.2 ⟨keys, hkeys, ?_⟩⟩
    rw [hcomments]
    rfl

theorem paired_zipWith_iff {notes : List Node} {keys : List String} {comments : List Json} :
    Paired notes (List.zipWith OpenComment.mk keys comments) ↔ PairedOff notes keys comments := by
  have hpairs : (List.zipWith OpenComment.mk keys comments).map OpenComment.pair =
      List.zipWith commentPair keys comments := by
    rw [List.map_zipWith]
    rfl
  have hmem {c : OpenComment} :
      c ∈ List.zipWith OpenComment.mk keys comments ↔ (c.key, c.comment) ∈ keys.zip comments := by
    rw [← List.map_uncurry_zip_eq_zipWith, List.mem_map]
    constructor
    . intro ⟨_, hpair, heq⟩
      rwa [← heq]
    . intro hpair
      exact ⟨_, hpair, rfl⟩
  constructor
  . intro ⟨hnodup, hperm, hall⟩
    refine ⟨hnodup, hpairs ▸ hperm, ?_⟩
    intro note hnote key comment hpair
    exact hall note hnote ⟨key, comment⟩ (hmem.2 hpair)
  . intro ⟨hnodup, hperm, hall⟩
    refine ⟨hnodup, hpairs.symm ▸ hperm, ?_⟩
    intro note hnote c hc
    exact hall note hnote c.key c.comment (hmem.1 hc)

/--
The notes are verified if and only if all live comments are about something and the notes pair off with
them.
-/
theorem verifyNotes_eq_ok_iff {notes : Node}
    (h : ∀ note ∈ notes.childrenNamed Node.annotationName, Complete note) :
    verifyNotes memory.store database notes = .ok () ↔
      ∃ keys, List.Forall₂ (IsAbout (memory.documents database lexiconCollection))
          (liveDocuments (memory.documents database commentsCollection)) keys ∧
        PairedOff (notes.childrenNamed Node.annotationName) keys
          (liveDocuments (memory.documents database commentsCollection)) := by
  unfold verifyNotes
  rw [bind_eq_ok_iff]
  constructor
  . intro ⟨comments, hcomments, hmatch⟩
    obtain ⟨keys, hkeys, rfl⟩ := openComments_eq_ok_iff.1 hcomments
    dsimp only at hmatch
    split at hmatch
    . next hlength =>
      exact ⟨keys, hkeys, paired_zipWith_iff.1 ((matchNotes_eq_ok_iff h hlength).1 hmatch)⟩
    . cases hmatch
  . intro ⟨keys, hkeys, hpaired⟩
    rw [← paired_zipWith_iff] at hpaired
    have hlength := hpaired.perm.length_eq
    rw [List.length_map, List.length_map] at hlength
    refine ⟨_, openComments_eq_ok_iff.2 ⟨keys, hkeys, rfl⟩, ?_⟩
    dsimp only
    rw [if_pos hlength]
    exact (matchNotes_eq_ok_iff h hlength).2 hpaired

end Memory

/-!
Two notes on one word, which say different things, and one on a word that only a deleted entry has. The comments come in
another order, and one of them is deleted.
-/

def onWord (word : String) (fields : List (String × Json)) : Json :=
  .object (("regarding", .object [("word", .string word), ("meaning", .string "")]) :: fields)

def onGloss (entry : String) (fields : List (String × Json)) : Json :=
  .object (("regarding", .object [("field", .string "gloss"), ("fieldValue", .string "lune")]) ::
    ("entryRef", .string entry) :: fields)

def nightMemory : Memory where
  databases := [("sf_demo", [
    (lexiconCollection, [.object [("_id", .string "e2"), ("isDeleted", .bool true),
      ("lexeme", .object [("en", .object [("value", .string "moon")])])]]),
    (commentsCollection, [
      onWord "sun" [("content", .string "check"), ("replies", .array [
        .object [("content", .string "no"), ("isDeleted", .bool true)],
        .object [("content", .string "done")], .object [("content", .string "thanks")]])],
      onWord "sun" [("content", .string "check"), ("isDeleted", .bool true)],
      onWord "sun" [("content", .string "hot"), ("status", .string "resolved")],
      onGloss "e2" [("content", .string "full"), ("status", .string "")]])])]

def nightNote (word : String) (messages : List Node) : Node where
  name := Node.annotationName
  attributes := [(Node.referenceKey, Node.labelMark ++ word)]
  children := messages

def nightNotes : Node where
  name := Node.notesName
  children := [
    nightNote "moon" [(Node.leaf Node.messageName "full").setAttribute Node.statusKey "open"],
    nightNote "sun" [(Node.leaf Node.messageName "hot").setAttribute Node.statusKey "open",
      (Node.leaf Node.messageName "").setAttribute Node.statusKey "resolved"],
    nightNote "sun" [.leaf Node.messageName "check", .leaf Node.messageName "done"]]

theorem pairedOff_nightNotes :
    (∀ note ∈ nightNotes.childrenNamed Node.annotationName, Complete note) ∧
      ∃ keys, List.Forall₂ (IsAbout (nightMemory.documents "sf_demo" lexiconCollection))
          (liveDocuments (nightMemory.documents "sf_demo" commentsCollection)) keys ∧
        PairedOff (nightNotes.childrenNamed Node.annotationName) keys
          (liveDocuments (nightMemory.documents "sf_demo" commentsCollection)) := by
  have hcomplete : ∀ note ∈ nightNotes.childrenNamed Node.annotationName, Complete note := by
    change ∀ note ∈ nightNotes.children, Complete note
    simp only [nightNotes, List.forall_mem_cons]
    exact ⟨⟨rfl, nofun⟩, ⟨rfl, nofun⟩, ⟨rfl, nofun⟩, nofun⟩
  have hverify : verifyNotes nightMemory.store "sf_demo" nightNotes = .ok () := by with_unfolding_all rfl
  exact ⟨hcomplete, (verifyNotes_eq_ok_iff hcomplete).1 hverify⟩

end LexiconAudit.Database
