import LexiconAudit.Proofs.Database.Frame
import LexiconAudit.Proofs.Database.Order

/-!
This module contains that the two shapes of a target are interchangeable: a comment on a field of an entry may as
well name the headword of the entry, and no verification tells the difference, whatever else is stored.
-/

namespace LexiconAudit.Database

/--
A comment and what it may be replaced with: itself or, if it is about a field of an entry with a headword, the same
comment about that word.
-/
inductive Retargeted (lexicon : List Json) : Json → Json → Prop where
  | same (comment : Json) : Retargeted lexicon comment comment
  | word {fields : List (String × Json)} {id word : String} :
    HasTarget (.object fields) (.entry id) → Resolves lexicon id word → word ≠ "" →
      Retargeted lexicon (.object fields)
        (.object (Keyed.set "regarding" (.object [("word", .string word), ("meaning", .string "")]) fields))

inductive Restated (lexicon : List Json) : Target → Target → Prop where
  | same (t : Target) : Restated lexicon t t
  | word {id word : String} : Resolves lexicon id word → Restated lexicon (.entry id) (.word word)

section Comment

variable {lexicon : List Json} {c c' : Json}

theorem Retargeted.field?_eq (h : Retargeted lexicon c c') {key : String} (hkey : key ≠ "regarding") :
    c'.field? key = c.field? key := by
  cases h with
  | same => rfl
  | word => exact Keyed.lookup_alter_of_ne hkey _ _

theorem Retargeted.isDeleted_eq (h : Retargeted lexicon c c') : isDeleted c' = isDeleted c := by
  rw [isDeleted, isDeleted, h.field?_eq (by decide)]

theorem Retargeted.commentLabel_eq (h : Retargeted lexicon c c') (position : Nat) :
    commentLabel position c' = commentLabel position c := by
  rw [commentLabel, commentLabel, documentId?, documentId?, h.field?_eq (by decide)]

theorem Retargeted.sameThread (h : Retargeted lexicon c c') : SameThread c c' where
  content := by rw [h.field?_eq (by decide)]
  status := by rw [h.field?_eq (by decide)]
  replies := by rw [replyTexts, replyTexts, h.field?_eq (by decide)]

theorem hasTarget_word {word : String} (hword : word ≠ "") (fields : List (String × Json)) :
    HasTarget (.object
      (Keyed.set "regarding" (.object [("word", .string word), ("meaning", .string "")]) fields)) (.word word) := by
  refine .word (Keyed.lookup_alter_self _ _ _) ⟨.string word, rfl, nofun, ?_⟩ ?_ ⟨.string "", rfl, nofun⟩ ?_ rfl
  . intro h
    exact hword (Json.string.inj h)
  . rintro ⟨_, h, _⟩
    cases h
  . rintro ⟨_, h, _⟩
    cases h

theorem Retargeted.target_inStep (h : Retargeted lexicon c c') :
    InStep (Restated lexicon) (target c) (target c') := by
  cases h with
  | same => exact .refl .same _
  | word htarget hword hne =>
    rw [htarget.target_eq_ok, (hasTarget_word hne _).target_eq_ok]
    exact .ok (.word hword)

end Comment

section Comments

variable {lexicon : List Json} {cs cs' : List Json}

theorem liveDocuments_retargeted (h : List.Forall₂ (Retargeted lexicon) cs cs') :
    List.Forall₂ (Retargeted lexicon) (liveDocuments cs) (liveDocuments cs') := by
  refine List.rel_filter ?_ h
  intro c c' hc
  dsimp only
  rw [hc.isDeleted_eq]

theorem targets_inStep (position : Nat) (h : List.Forall₂ (Retargeted lexicon) cs cs') :
    InStep (List.Forall₂ (Restated lexicon)) (targets position cs) (targets position cs') := by
  induction h generalizing position with
  | nil => exact .ok .nil
  | cons hc _ ih =>
    unfold targets
    rw [hc.commentLabel_eq]
    have htarget := hc.target_inStep
    generalize target _ = x at htarget
    generalize target _ = y at htarget
    cases htarget with
    | error fault => exact .error _
    | ok ht => exact (ih (position + 1)).bind fun ts ts' hts => .ok (.cons ht hts)

theorem Restated.key_eq {t t' : Target} (h : Restated lexicon t t') {index index' : LexiconIndex}
    (hindex : t.isEntry = true → index = .ofDocuments lexicon)
    (hindex' : t'.isEntry = true → index' = .ofDocuments lexicon) : t.key index = t'.key index' := by
  cases h with
  | same =>
    apply key_congr
    intro hentry
    rw [hindex hentry, hindex' hentry]
  | word hword =>
    rw [hindex rfl]
    simp only [Target.key, LexiconIndex.wordOfId?_ofDocuments_eq_some_iff.2 hword]

theorem mapM_key_retargeted {ts ts' : List Target} (h : List.Forall₂ (Restated lexicon) ts ts')
    {index index' : LexiconIndex} (hindex : ts.any Target.isEntry = true → index = .ofDocuments lexicon)
    (hindex' : ts'.any Target.isEntry = true → index' = .ofDocuments lexicon) :
    ts.mapM (Target.key index) = ts'.mapM (Target.key index') := by
  induction h with
  | nil => rfl
  | cons ht _ ih =>
    simp only [List.any_cons, Bool.or_eq_true] at hindex hindex'
    rw [List.mapM_cons, List.mapM_cons, ht.key_eq (fun h => hindex (.inl h)) (fun h => hindex' (.inl h)),
      ih (fun h => hindex (.inr h)) (fun h => hindex' (.inr h))]

end Comments

section Memory

variable {memory memory' : Memory} {database : String}
  (hlexicon : memory'.documents database lexiconCollection = memory.documents database lexiconCollection)
  (hcomments : List.Forall₂ (Retargeted (memory.documents database lexiconCollection))
    (memory.documents database commentsCollection) (memory'.documents database commentsCollection))

include hlexicon hcomments

theorem openComments_retargeted :
    InStep (List.Forall₂ SameOpen) (openComments memory.store database) (openComments memory'.store database) := by
  have hlive := liveDocuments_retargeted hcomments
  have hthreads := hlive.imp fun _ _ h => h.sameThread
  rw [openComments_store, openComments_store, hlexicon]
  refine (targets_inStep 0 hlive).bind fun ts ts' hts => ?_
  dsimp only
  rw [mapM_key_retargeted hts (fun h => if_pos h) (fun h => if_pos h)]
  refine (InStep.refl (r := Eq) (fun _ => rfl) _).bind fun keys keys' hkeys => ?_
  subst hkeys
  exact .ok (sameOpen_zipWith hthreads keys)

theorem verifyNotes_retargeted (part : Node) :
    verifyNotes memory.store database part = verifyNotes memory'.store database part := by
  apply InStep.eq
  unfold verifyNotes
  refine (openComments_retargeted hlexicon hcomments).bind fun cs cs' hsame => ?_
  dsimp only
  rw [hsame.length_eq, matchNotes_congr 0 _ hsame]
  exact InStep.refl (fun _ => rfl) _

omit hcomments in
theorem verifyLexicon_retargeted (part : Node) :
    verifyLexicon memory.store database part = verifyLexicon memory'.store database part := by
  unfold verifyLexicon
  rw [fetch_store, fetch_store, hlexicon]

/--
Whether comments name fields of entries or the headwords of these makes no difference for a verification: it passes
or ends with the same discrepancy.
-/
theorem verify_retargeted (expected : Node) :
    verify memory'.store database expected = verify memory.store database expected := by
  refine forM_congr fun part _ => ?_
  unfold verifySection
  split
  . exact (verifyLexicon_retargeted hlexicon part).symm
  . split
    . exact (verifyNotes_retargeted hlexicon hcomments part).symm
    . rfl

end Memory

/-! The comment on the moon, whose entry is deleted, names the moon itself. -/

def moonWordComment : Json :=
  .object [("regarding", .object [("word", .string "moon"), ("meaning", .string "")]), ("entryRef", .string "e2"),
    ("content", .string "check")]

theorem verify_retargetedMoon :
    Retargeted [sunEntry, moonEntry] moonComment moonWordComment ∧
      verify (skyMemory [sunEntry, moonEntry] [sunComment, moonWordComment]).store "sf_demo"
        (skyTree ["sun", "moon"]) = .ok () ∧
      verify (skyMemory [sunEntry, moonEntry] [sunComment, moonWordComment]).store "sf_demo"
        (skyTree ["sun", "sun"]) = .error (.noteMissing "sun" 1) := by
  have htarget : HasTarget moonComment (.entry "e2") := target_eq_ok_iff.1 (by with_unfolding_all rfl)
  have hword : Resolves [sunEntry, moonEntry] "e2" "moon" :=
    LexiconIndex.wordOfId?_ofDocuments_eq_some_iff.1 (by with_unfolding_all rfl)
  have hmoon : Retargeted [sunEntry, moonEntry] moonComment moonWordComment := .word htarget hword (by decide)
  have hpasses : verify (skyMemory [sunEntry, moonEntry] [sunComment, moonComment]).store "sf_demo"
      (skyTree ["sun", "moon"]) = .ok () := by with_unfolding_all rfl
  have hfails : verify (skyMemory [sunEntry, moonEntry] [sunComment, moonComment]).store "sf_demo"
      (skyTree ["sun", "sun"]) = .error (.noteMissing "sun" 1) := by with_unfolding_all rfl
  have hsame := @verify_retargeted (skyMemory [sunEntry, moonEntry] [sunComment, moonComment])
    (skyMemory [sunEntry, moonEntry] [sunComment, moonWordComment]) "sf_demo" rfl
    (.cons (.same _) (.cons hmoon .nil))
  exact ⟨hmoon, (hsame _).trans hpasses, (hsame _).trans hfails⟩

end LexiconAudit.Database
