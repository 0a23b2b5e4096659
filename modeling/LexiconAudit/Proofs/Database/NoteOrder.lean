import LexiconAudit.Proofs.Database.Order

/-!
This module contains how far the order of the expected notes matters. A note without messages takes any comment
on its word, so it has to wait until all others on that word have taken theirs. Where all such notes do, the
notes are matched if and only if each of them can have a comment of its own, which no order changes.
-/

namespace LexiconAudit.Database

def Bare (note : Node) : Prop :=
  note.childrenNamed Node.messageName = []

instance (note : Node) : Decidable (Bare note) :=
  inferInstanceAs (Decidable (_ = _))

/--
Behind a note without messages there is none that is about the same.
-/
def BareLast (notes : List Node) : Prop :=
  notes.Pairwise fun note later => Bare note → later.targetKey? ≠ note.targetKey?

instance (notes : List Node) : Decidable (BareLast notes) :=
  inferInstanceAs (Decidable (List.Pairwise _ _))

/--
A comment is about the same as a note, and says the same if the note says anything.
-/
def Fits (note : Node) (c : OpenComment) : Prop :=
  note.targetKey? = some c.key ∧ (¬Bare note → c.pair = notePair note)

def Suits (note : Node) (c : OpenComment) : Prop :=
  Fits note c ∧ Agrees note c.comment

/--
Each note can have a comment of its own, and there is no choice for those that say something.
-/
structure Matched (notes : List Node) (comments : List OpenComment) : Prop where
  suited : ∃ cs, List.Forall₂ Suits notes cs ∧ cs.Perm comments
  unique : ∀ note ∈ notes, ¬Bare note → (comments.map OpenComment.pair).count (notePair note) ≤ 1

theorem Matched.of_perm {notes notes' : List Node} {comments : List OpenComment} (h : Matched notes comments)
    (hperm : notes.Perm notes') : Matched notes' comments where
  suited := by
    obtain ⟨cs, hsuits, hcs⟩ := h.suited
    obtain ⟨cs', hsuits', hcs'⟩ := List.perm_comp_forall₂ hperm.symm hsuits
    exact ⟨cs', hsuits', hcs'.trans hcs⟩
  unique note hnote := h.unique note (hperm.symm.subset hnote)

/-! One note. -/

theorem fits_of_pair_eq {note : Node} {c c' : OpenComment} (h : Fits note c) (hpair : c'.pair = c.pair) :
    Fits note c' := by
  obtain ⟨hkey, htext⟩ := h
  have hkey' : c'.key = c.key := Option.some.inj (congrArg Prod.fst hpair)
  exact ⟨hkey'.symm ▸ hkey, fun hbare => hpair.trans (htext hbare)⟩

theorem fits_iff {note : Node} {key : String} {c : OpenComment} (h : note.targetKey? = some key) :
    c.fits key ((threadOf? note).map Thread.content) = true ↔ Fits note c := by
  unfold Fits Bare threadOf?
  cases hmessages : note.childrenNamed Node.messageName with
  | nil => simp [Thread.ofMessages?, OpenComment.fits, h, eq_comm]
  | cons head rest =>
    have hpair : notePair note = (some key, some head.value) := by
      rw [notePair, h, hmessages]
      rfl
    rw [List.map_cons, Thread.ofMessages?, Option.map_some, OpenComment.fits_iff, hpair, h]
    simp [OpenComment.pair, commentPair, Message.ofNode, eq_comm]

theorem compareThread_iff_agrees {note : Node} {key : String} {record : Nat} {comment : Json} :
    (∀ thread, threadOf? note = some thread → compareThread key record comment thread = .ok ()) ↔
      Agrees note comment := by
  unfold Agrees
  simp only [compareThread_eq_ok_iff]

theorem matchNote_eq_ok_iff_suits {record : Nat} {note : Node} {comments rest : List OpenComment} :
    matchNote record note comments = .ok rest ↔ ∃ before found after, comments = before ++ found :: after ∧
      rest = before ++ after ∧ Suits note found ∧ ∀ c ∈ before ++ after, ¬Fits note c := by
  cases hkey : note.targetKey? with
  | none =>
    unfold matchNote
    rw [hkey]
    simp [Suits, Fits, hkey]
  | some key =>
    have htake {found : OpenComment} {others : List OpenComment} :
        takeOnly (OpenComment.fits key ((threadOf? note).map Thread.content)) comments = some (found, others) ↔
          ∃ before after, comments = before ++ found :: after ∧ others = before ++ after ∧
            Fits note found ∧ ∀ c ∈ before ++ after, ¬Fits note c := by
      rw [takeOnly_eq_some_iff]
      simp only [← fits_iff hkey, Bool.not_eq_true]
    unfold matchNote
    rw [hkey]
    dsimp only
    rw [← threadOf?]
    constructor
    . intro h
      split at h
      . next found others hfound =>
        obtain ⟨before, after, hcomments, hothers, hfits, halone⟩ := htake.1 hfound
        have hboth : (∀ thread, threadOf? note = some thread →
            compareThread key record found.comment thread = .ok ()) ∧ others = rest := by
          cases hthread : threadOf? note with
          | none =>
            rw [hthread] at h
            cases h
            refine ⟨?_, rfl⟩
            intro _ heq
            cases heq
          | some thread =>
            rw [hthread] at h
            obtain ⟨hcompare, h⟩ := bind_unit_eq_ok_iff.1 h
            cases h
            refine ⟨?_, rfl⟩
            intro _ heq
            cases heq
            exact hcompare
        exact ⟨before, found, after, hcomments, hboth.2.symm.trans hothers,
          ⟨hfits, compareThread_iff_agrees.1 hboth.1⟩, halone⟩
      . split at h
        . cases h
        . split at h
          . cases h
          . cases h
    . rintro ⟨before, found, after, hcomments, hrest, ⟨hfits, hagrees⟩, halone⟩
      rw [htake.2 ⟨before, after, hcomments, hrest, hfits, halone⟩]
      rw [← compareThread_iff_agrees] at hagrees
      dsimp only
      cases hthread : threadOf? note with
      | none => rfl
      | some thread => exact bind_unit_eq_ok_iff.2 ⟨hagrees thread hthread, rfl⟩

/-! All notes. -/

variable {note : Node} {notes notes' : List Node} {found : OpenComment} {comments rest : List OpenComment}

theorem Matched.of_perm_comments {comments' : List OpenComment} (h : Matched notes comments)
    (hperm : comments.Perm comments') : Matched notes comments' where
  suited := by
    obtain ⟨cs, hsuits, hcs⟩ := h.suited
    exact ⟨cs, hsuits, hcs.trans hperm⟩
  unique note hnote hbare := by
    rw [← (hperm.map OpenComment.pair).count_eq]
    exact h.unique note hnote hbare

theorem Matched.exists_comment (h : Matched notes comments) {note : Node} (hnote : note ∈ notes) :
    ∃ c ∈ comments, Suits note c := by
  obtain ⟨cs, hsuits, hcs⟩ := h.suited
  obtain ⟨c, hc, hsuit⟩ := exists_of_mem_left hsuits hnote
  exact ⟨c, hcs.subset hc, hsuit⟩

theorem Matched.cons (h : Matched notes rest) (hsuits : Suits note found) (halone : ∀ c ∈ rest, ¬Fits note c) :
    Matched (note :: notes) (found :: rest) where
  suited := by
    obtain ⟨cs, hothers, hcs⟩ := h.suited
    exact ⟨found :: cs, .cons hsuits hothers, hcs.cons found⟩
  unique other hother hbare := by
    rw [List.map_cons, List.count_cons]
    rcases List.mem_cons.1 hother with rfl | hother
    . have hcount : (rest.map OpenComment.pair).count (notePair other) = 0 := by
        rw [List.count_eq_zero]
        intro hmem
        obtain ⟨c, hc, hpair⟩ := List.mem_map.1 hmem
        exact halone c hc (fits_of_pair_eq hsuits.1 (hpair.trans (hsuits.1.2 hbare).symm))
      rw [hcount]
      split <;> decide
    . have hpair : found.pair ≠ notePair other := by
        intro heq
        obtain ⟨c, hc, hsuit⟩ := h.exists_comment hother
        exact halone c hc (fits_of_pair_eq hsuits.1 ((hsuit.1.2 hbare).trans heq.symm))
      rw [if_neg (by simpa using hpair)]
      exact h.unique other hother hbare

theorem bareLast_cons (hlast : BareLast notes) (h : Matched notes rest) (halone : ∀ c ∈ rest, ¬Fits note c) :
    BareLast (note :: notes) := by
  refine .cons ?_ hlast
  intro later hlater hbare hkey
  obtain ⟨c, hc, hsuit⟩ := h.exists_comment hlater
  exact halone c hc ⟨hkey.symm.trans hsuit.1.1, fun hnot => absurd hbare hnot⟩

theorem Matched.uncons (hlast : BareLast (note :: notes)) (h : Matched (note :: notes) comments) :
    ∃ found rest, comments.Perm (found :: rest) ∧ Suits note found ∧ (∀ c ∈ rest, ¬Fits note c) ∧
      Matched notes rest := by
  obtain ⟨cs, hcs, hperm⟩ := h.suited
  cases hcs with
  | @cons _ found _ rest hsuits hothers =>
    have h := h.of_perm_comments hperm.symm
    have hunique : ∀ other ∈ note :: notes, ¬Bare other →
        (rest.map OpenComment.pair).count (notePair other) ≤ 1 := by
      intro other hother hbare
      refine Nat.le_trans ?_ (h.unique other hother hbare)
      exact (List.sublist_cons_self _ _).count_le _
    refine ⟨found, rest, hperm.symm, hsuits, ?_, ⟨rest, hothers, .refl _⟩, fun other hother =>
      hunique other (List.mem_cons_of_mem _ hother)⟩
    intro c hc hfits
    by_cases hbare : Bare note
    . obtain ⟨later, hlater, hsuit⟩ := exists_of_mem_right hothers hc
      exact List.rel_of_pairwise_cons hlast hlater hbare (hsuit.1.1.trans hfits.1.symm)
    . have hcount := h.unique note List.mem_cons_self hbare
      rw [List.map_cons, hsuits.1.2 hbare, List.count_cons_self] at hcount
      have hpos : 0 < (rest.map OpenComment.pair).count (notePair note) :=
        List.count_pos_iff.2 (hfits.2 hbare ▸ List.mem_map_of_mem hc)
      omega

theorem matchNotes_eq_ok_iff_matched {record : Nat} (hlength : notes.length = comments.length) :
    matchNotes record notes comments = .ok () ↔ BareLast notes ∧ Matched notes comments := by
  induction notes generalizing record comments with
  | nil =>
    cases List.eq_nil_of_length_eq_zero hlength.symm
    refine iff_of_true rfl ⟨.nil, ⟨[], .nil, .refl _⟩, ?_⟩
    intro note hnote
    cases hnote
  | cons note notes ih =>
    have hothers {before after : List OpenComment} {found : OpenComment}
        (heq : comments = before ++ found :: after) : notes.length = (before ++ after).length := by
      rw [heq] at hlength
      simp only [List.length_cons, List.length_append] at hlength ⊢
      omega
    unfold matchNotes
    rw [bind_eq_ok_iff]
    constructor
    . rintro ⟨rest, hnote, hrest⟩
      obtain ⟨before, found, after, hcomments, rfl, hsuits, halone⟩ := matchNote_eq_ok_iff_suits.1 hnote
      obtain ⟨hlast, hmatched⟩ := (ih (hothers hcomments)).1 hrest
      refine ⟨bareLast_cons hlast hmatched halone, ?_⟩
      rw [hcomments]
      exact (hmatched.cons hsuits halone).of_perm_comments List.perm_middle.symm
    . rintro ⟨hlast, hmatched⟩
      obtain ⟨found, rest, hperm, hsuits, halone, hleft⟩ := hmatched.uncons hlast
      obtain ⟨before, after, rfl⟩ := List.append_of_mem (hperm.symm.subset List.mem_cons_self)
      have hrest : (before ++ after).Perm rest := by
        rw [← List.perm_cons found]
        exact List.perm_middle.symm.trans hperm
      refine ⟨before ++ after, matchNote_eq_ok_iff_suits.2 ⟨before, found, after, rfl, rfl, hsuits, ?_⟩, ?_⟩
      . intro c hc
        exact halone c (hrest.subset hc)
      . rw [ih (hothers rfl)]
        exact ⟨hlast.of_cons, hleft.of_perm_comments hrest.symm⟩

variable {part part' : Node}

theorem verifyNotes_eq_ok_iff_matched {store : Store} {database : String} :
    verifyNotes store database part = .ok () ↔ ∃ comments, openComments store database = .ok comments ∧
      (part.childrenNamed Node.annotationName).length = comments.length ∧
        BareLast (part.childrenNamed Node.annotationName) ∧
          Matched (part.childrenNamed Node.annotationName) comments := by
  unfold verifyNotes
  rw [bind_eq_ok_iff]
  refine exists_congr fun comments => and_congr_right fun _ => ?_
  dsimp only
  split
  . next hlength => simp [hlength, matchNotes_eq_ok_iff_matched hlength]
  . next hlength => simp [hlength]

/--
Notes in another order are verified with the same stores, if those without messages come last on their words in
both orders or in neither. In an order in which they do not, notes are never verified.
-/
theorem verifyNotes_reordered
    (h : (part.childrenNamed Node.annotationName).Perm (part'.childrenNamed Node.annotationName)) (store : Store)
    (database : String) :
    (verifyNotes store database part = .ok () → BareLast (part.childrenNamed Node.annotationName)) ∧
      ((BareLast (part.childrenNamed Node.annotationName) ↔ BareLast (part'.childrenNamed Node.annotationName)) →
        (verifyNotes store database part' = .ok () ↔ verifyNotes store database part = .ok ())) := by
  rw [verifyNotes_eq_ok_iff_matched, verifyNotes_eq_ok_iff_matched]
  constructor
  . intro ⟨_, _, _, hlast, _⟩
    exact hlast
  . intro hlast
    refine exists_congr fun comments => and_congr_right fun _ => ?_
    rw [h.length_eq, hlast]
    refine and_congr_right fun _ => and_congr_right fun _ => ?_
    constructor
    . intro hmatched
      exact hmatched.of_perm h.symm
    . intro hmatched
      exact hmatched.of_perm h

/-! Two comments on one word, and notes of which one does not say which of them it is about. -/

def shadeComment : Json :=
  .object [("regarding", .object [("word", .string "sun"), ("meaning", .string "")]),
    ("content", .string "shade")]

def bareNote (word : String) : Node where
  name := Node.annotationName
  attributes := [(Node.referenceKey, Node.labelMark ++ word)]

def noteSection (notes : List Node) : Node where
  name := Node.notesName
  children := notes

def shadeMemory : Memory :=
  skyMemory [sunEntry, moonEntry] [sunComment, moonComment, shadeComment]

theorem verifyNotes_reordered_moonFirst :
    [skyNote "sun", bareNote "sun", bareNote "moon"].Perm [bareNote "moon", skyNote "sun", bareNote "sun"] ∧
      BareLast [skyNote "sun", bareNote "sun", bareNote "moon"] ∧
        verifyNotes shadeMemory.store "sf_demo"
          (noteSection [bareNote "moon", skyNote "sun", bareNote "sun"]) = .ok () := by
  have hperm : [skyNote "sun", bareNote "sun", bareNote "moon"].Perm
      [bareNote "moon", skyNote "sun", bareNote "sun"] :=
    .trans (.cons _ (.swap _ _ _)) (.swap _ _ _)
  have hlast : BareLast [skyNote "sun", bareNote "sun", bareNote "moon"] := by decide +kernel
  have hlast' : BareLast [bareNote "moon", skyNote "sun", bareNote "sun"] := by decide +kernel
  have hpasses : verifyNotes shadeMemory.store "sf_demo"
      (noteSection [skyNote "sun", bareNote "sun", bareNote "moon"]) = .ok () := by with_unfolding_all rfl
  have hreordered := @verifyNotes_reordered (noteSection [skyNote "sun", bareNote "sun", bareNote "moon"])
    (noteSection [bareNote "moon", skyNote "sun", bareNote "sun"]) hperm shadeMemory.store "sf_demo"
  exact ⟨hperm, hlast, (hreordered.2 (iff_of_true hlast hlast')).2 hpasses⟩

theorem not_order_free :
    ¬∀ (store : Store) (database : String) (part part' : Node),
      (∀ note ∈ part.childrenNamed Node.annotationName, (note.attribute? Node.referenceKey).isSome) →
        (part.childrenNamed Node.annotationName).Perm (part'.childrenNamed Node.annotationName) →
          (verifyNotes store database part' = .ok () ↔ verifyNotes store database part = .ok ()) := by
  intro h
  have hpasses : verifyNotes (skyMemory [] [sunComment, shadeComment]).store "sf_demo"
      (noteSection [skyNote "sun", bareNote "sun"]) = .ok () := by with_unfolding_all rfl
  have hfails : verifyNotes (skyMemory [] [sunComment, shadeComment]).store "sf_demo"
      (noteSection [bareNote "sun", skyNote "sun"]) = .error (.noteAmbiguous "sun" "" 0) := by with_unfolding_all rfl
  have hsame := h (skyMemory [] [sunComment, shadeComment]).store "sf_demo"
    (noteSection [skyNote "sun", bareNote "sun"]) (noteSection [bareNote "sun", skyNote "sun"]) (by decide +kernel)
    (.swap _ _ _)
  cases hfails.symm.trans (hsame.2 hpasses)

end LexiconAudit.Database
