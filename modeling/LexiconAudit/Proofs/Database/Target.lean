import LexiconAudit.Database.Comment
import LexiconAudit.Proofs.Checking
import LexiconAudit.Proofs.Database.Fields
import LexiconAudit.Proofs.Database.Index

/-!
This module contains the two shapes that the target of a comment can have, as a relation between a comment
and the key that it is about.
-/

namespace LexiconAudit.Database

/--
A field that holds something: neither null nor the empty string.
-/
def Given (fields : List (String × Json)) (key : String) : Prop :=
  ∃ value, fields.lookup key = some value ∧ value ≠ .null ∧ value ≠ .string ""

/--
A field that is not null, but may be empty.
-/
def Declared (fields : List (String × Json)) (key : String) : Prop :=
  ∃ value, fields.lookup key = some value ∧ value ≠ .null

/--
The two shapes of `regarding`: a word with its meaning, or a field with its value, the entry being named
beside it.
-/
inductive HasTarget (comment : Json) : Target → Prop where
  | word {regarding : List (String × Json)} {word : String} :
    comment.field? "regarding" = some (.object regarding) → Given regarding "word" →
      ¬Given regarding "field" → Declared regarding "meaning" → ¬Given regarding "fieldValue" →
        regarding.lookup "word" = some (.string word) → HasTarget comment (.word word)
  | entry {regarding : List (String × Json)} {id : String} :
    comment.field? "regarding" = some (.object regarding) → ¬Given regarding "word" →
      Given regarding "field" → Declared regarding "fieldValue" → ¬Given regarding "meaning" →
        (comment.field? "entryRef").bind objectId? = some id → HasTarget comment (.entry id)

/--
A comment is about the word that it names, or about the headword of the entry one of whose fields it names.
-/
inductive IsAbout (lexicon : List Json) (comment : Json) : String → Prop where
  | word {word : String} : HasTarget comment (.word word) → IsAbout lexicon comment word
  | entry {id word : String} :
    HasTarget comment (.entry id) → Resolves lexicon id word → IsAbout lexicon comment word

theorem any_isSet_iff {fields : List (String × Json)} {key : String} :
    (fields.lookup key).any isSet = true ↔ Given fields key := by
  unfold Given
  cases fields.lookup key with
  | none => simp
  | some value => cases value <;> simp [isSet]

def declares (fields : List (String × Json)) (key : String) : Bool :=
  match fields.lookup key with
  | none | some .null => false
  | some _ => true

theorem declares_iff {fields : List (String × Json)} {key : String} :
    declares fields key = true ↔ Declared fields key := by
  unfold declares Declared
  cases fields.lookup key with
  | none => simp
  | some value => cases value <;> simp

theorem hasTarget_of_target_eq_ok {comment : Json} {t : Target} (h : target comment = .ok t) :
    HasTarget comment t := by
  unfold target at h
  split at h
  . cases h
  next regarding hregarding =>
  rw [bind_asObject?_eq_some_iff] at hregarding
  dsimp only at h
  split at h
  -- a word and no field
  . next hword hfield =>
    rw [any_isSet_iff] at hword
    rw [← Bool.not_eq_true, any_isSet_iff] at hfield
    change (if !declares regarding "meaning" then .error _ else _) = Except.ok t at h
    split at h
    . cases h
    next hmeaning =>
    rw [Bool.not_eq_true', Bool.not_eq_false, declares_iff] at hmeaning
    split at h
    . cases h
    next hvalue =>
    split at h
    . next word htext =>
      cases h
      rw [any_isSet_iff] at hvalue
      exact .word hregarding hword hfield hmeaning hvalue (bind_asString?_eq_some_iff.1 htext)
    . cases h
  -- a field and no word
  . next hword hfield =>
    rw [← Bool.not_eq_true, any_isSet_iff] at hword
    rw [any_isSet_iff] at hfield
    change (if !declares regarding "fieldValue" then .error _ else _) = Except.ok t at h
    split at h
    . cases h
    next hvalue =>
    rw [Bool.not_eq_true', Bool.not_eq_false, declares_iff] at hvalue
    split at h
    . cases h
    next hmeaning =>
    split at h
    . next id hid =>
      cases h
      rw [any_isSet_iff] at hmeaning
      exact .entry hregarding hword hfield hvalue hmeaning hid
    . cases h
  . cases h
  . cases h

theorem HasTarget.target_eq_ok {comment : Json} {t : Target} (h : HasTarget comment t) :
    target comment = .ok t := by
  unfold target
  cases h with
  | word hregarding hword hfield hmeaning hvalue htext =>
    rw [← any_isSet_iff] at hword hfield hvalue
    rw [Bool.not_eq_true] at hfield
    rw [hregarding, Option.bind_some, Json.asObject?]
    dsimp only
    rw [hword, hfield, htext]
    change (if !declares _ "meaning" then .error _ else _) = Except.ok _
    rw [declares_iff.2 hmeaning, if_neg (by decide), if_neg hvalue]
    rfl
  | entry hregarding hword hfield hvalue hmeaning hid =>
    rw [← any_isSet_iff] at hword hfield hmeaning
    rw [Bool.not_eq_true] at hword
    rw [hregarding, Option.bind_some, Json.asObject?]
    dsimp only
    rw [hword, hfield, hid]
    change (if !declares _ "fieldValue" then .error _ else _) = Except.ok _
    rw [declares_iff.2 hvalue, if_neg (by decide), if_neg hmeaning]

theorem target_eq_ok_iff {comment : Json} {t : Target} : target comment = .ok t ↔ HasTarget comment t :=
  ⟨hasTarget_of_target_eq_ok, HasTarget.target_eq_ok⟩

theorem isAbout_iff {lexicon : List Json} {comment : Json} {key : String} :
    IsAbout lexicon comment key ↔
      ∃ t, HasTarget comment t ∧ t.key (.ofDocuments lexicon) = .ok key := by
  constructor
  . intro h
    cases h with
    | word h => exact ⟨_, h, rfl⟩
    | entry h hword =>
      refine ⟨_, h, ?_⟩
      simp only [Target.key, LexiconIndex.wordOfId?_ofDocuments_eq_some_iff.2 hword]
  . intro ⟨t, h, hkey⟩
    cases t with
    | word word =>
      cases hkey
      exact .word h
    | entry id =>
      simp only [Target.key] at hkey
      split at hkey
      . next word hword =>
        cases hkey
        exact .entry h (LexiconIndex.wordOfId?_ofDocuments_eq_some_iff.1 hword)
      . cases hkey

theorem HasTarget.unique {comment : Json} {t t' : Target} (h : HasTarget comment t)
    (h' : HasTarget comment t') : t = t' := by
  have heq := h.target_eq_ok.symm.trans h'.target_eq_ok
  exact Except.ok.inj heq

theorem targets_eq_ok_iff {position : Nat} {comments : List Json} {ts : List Target} :
    targets position comments = .ok ts ↔ List.Forall₂ HasTarget comments ts := by
  induction comments generalizing position ts with
  | nil =>
    rw [List.forall₂_nil_left_iff]
    constructor
    . intro h
      cases h
      rfl
    . intro h
      rw [h]
      rfl
  | cons comment comments ih =>
    rw [List.forall₂_cons_left_iff]
    unfold targets
    constructor
    . intro h
      split at h
      . cases h
      . next t ht =>
        obtain ⟨ts', hts, h⟩ := bind_eq_ok_iff.1 h
        cases h
        exact ⟨t, ts', target_eq_ok_iff.1 ht, ih.1 hts, rfl⟩
    . intro ⟨t, ts', ht, hts, heq⟩
      rw [target_eq_ok_iff.2 ht, heq]
      exact bind_eq_ok_iff.2 ⟨ts', ih.2 hts, rfl⟩

end LexiconAudit.Database
