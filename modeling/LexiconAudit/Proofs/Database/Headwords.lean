import LexiconAudit.Proofs.Database.Fields
import LexiconAudit.Proofs.Database.Index
import Mathlib.Data.List.Dedup

/-!
This module contains the index of a lexicon as a whole, in terms of any documents whatsoever: the first live one
with a headword, the last one with an id, how many headwords there are and which of them is shared.
-/

namespace LexiconAudit.Database

def Heads (document : Json) (word : String) : Prop :=
  ∃ system value systems, document.field? "lexeme" = some (.object ((system, value) :: systems)) ∧
    value.field? "value" = some (.string word)

theorem headword?_eq_some_iff {document : Json} {word : String} :
    headword? document = some word ↔ Heads document word := by
  unfold headword?
  constructor
  . intro h
    obtain ⟨lexeme, hlexeme, h⟩ := Option.bind_eq_some_iff.1 h
    obtain ⟨systems, hsystems, h⟩ := Option.bind_eq_some_iff.1 h
    obtain ⟨⟨system, value⟩, hfirst, h⟩ := Option.bind_eq_some_iff.1 h
    obtain ⟨rest, rfl⟩ := List.head?_eq_some_iff.1 hfirst
    have hobject : document.field? "lexeme" = some (.object ((system, value) :: rest)) :=
      bind_asObject?_eq_some_iff.1 (Option.bind_eq_some_iff.2 ⟨lexeme, hlexeme, hsystems⟩)
    exact ⟨system, value, rest, hobject, bind_asString?_eq_some_iff.1 h⟩
  . intro ⟨system, value, systems, hlexeme, hvalue⟩
    simp [hlexeme, hvalue, Json.asObject?, Json.asString?]

def IsLiveWith (word : String) (document : Json) : Prop :=
  headword? document = some word ∧ isDeleted document = false

instance (word : String) (document : Json) : Decidable (IsLiveWith word document) :=
  inferInstanceAs (Decidable (_ ∧ _))

def Shared (documents : List Json) (word : String) : Prop :=
  ∃ first second, [first, second].Sublist documents ∧ IsLiveWith word first ∧ IsLiveWith word second

def Names (id : String) (document : Json) : Prop :=
  documentId? document = some id ∧ (headword? document).isSome = true

instance (id : String) (document : Json) : Decidable (Names id document) :=
  inferInstanceAs (Decidable (_ ∧ _))

theorem entriesOf_eq_filter_isLiveWith (documents : List Json) (word : String) :
    entriesOf documents word = documents.filter (IsLiveWith word ·) := by
  rw [entriesOf_eq_filter]
  apply List.filter_congr
  intro document _
  cases h : isDeleted document <;> simp [IsLiveWith, h]

theorem shared_iff_one_lt_length (documents : List Json) (word : String) :
    Shared documents word ↔ 1 < (entriesOf documents word).length := by
  rw [entriesOf_eq_filter_isLiveWith]
  constructor
  . intro ⟨first, second, hsublist, hfirst, hsecond⟩
    have hboth : [first, second].filter (IsLiveWith word ·) = [first, second] := by
      simp [hfirst, hsecond]
    have hlength := (hsublist.filter (IsLiveWith word ·)).length_le
    rwa [hboth] at hlength
  . intro hlength
    match hfilter : documents.filter (IsLiveWith word ·) with
    | [] | [_] => simp [hfilter] at hlength
    | first :: second :: rest =>
      have hmem (document : Json) (h : document ∈ [first, second]) : IsLiveWith word document := by
        have : document ∈ documents.filter (IsLiveWith word ·) := by
          rw [hfilter]
          exact List.mem_append_left rest h
        simpa using (List.mem_filter.1 this).2
      have hsublist : [first, second].Sublist (documents.filter (IsLiveWith word ·)) := by
        rw [hfilter]
        exact List.sublist_append_left [first, second] rest
      exact ⟨first, second, hsublist.trans List.filter_sublist, hmem first (by simp), hmem second (by simp)⟩

theorem mem_filterMap_headword?_iff {documents : List Json} {word : String} :
    word ∈ (liveDocuments documents).filterMap headword? ↔ ∃ document ∈ documents, IsLiveWith word document := by
  rw [List.mem_filterMap]
  apply exists_congr
  intro document
  rw [liveDocuments, List.mem_filter, IsLiveWith, Bool.not_eq_true', and_assoc, and_comm (a := isDeleted _ = _)]

theorem findSome?_wordFor? (documents : List Json) (id : String) :
    documents.findSome? (wordFor? id) = (documents.find? (Names id ·)).bind headword? := by
  induction documents with
  | nil => rfl
  | cons document documents ih =>
    rw [List.findSome?_cons, List.find?_cons, ih]
    by_cases hid : documentId? document = some id
    . cases hword : headword? document <;> simp [wordFor?, Names, hid, hword]
    . simp [wordFor?, Names, hid]

namespace LexiconIndex

theorem mem_keys_add {index : LexiconIndex} {document : Json} {word : String} :
    word ∈ (index.add document).groups.map Prod.fst ↔
      word ∈ index.groups.map Prod.fst ∨ IsLiveWith word document := by
  unfold LexiconIndex.add IsLiveWith
  split
  . next hword => simp [hword]
  . next other hword =>
    dsimp only
    cases hdeleted : isDeleted document with
    | true => simp
    | false =>
      rw [if_neg Bool.false_ne_true, mem_keys_addTo, hword, or_comm]
      simp [eq_comm]

theorem mem_keys_foldl_add {index : LexiconIndex} {documents : List Json} {word : String} :
    word ∈ (documents.foldl LexiconIndex.add index).groups.map Prod.fst ↔
      word ∈ index.groups.map Prod.fst ∨ ∃ document ∈ documents, IsLiveWith word document := by
  induction documents generalizing index with
  | nil => simp
  | cons document documents ih => rw [List.foldl_cons, ih, mem_keys_add, or_assoc, List.exists_mem_cons_iff]

theorem size_ofDocuments (documents : List Json) :
    (ofDocuments documents).size = ((liveDocuments documents).filterMap headword?).dedup.length := by
  have hkeys : ((ofDocuments documents).groups.map Prod.fst).Perm
      ((liveDocuments documents).filterMap headword?).dedup := by
    refine (List.perm_ext_iff_of_nodup (indexes_ofDocuments documents).sorted.nodup (List.nodup_dedup _)).2 ?_
    intro word
    rw [List.mem_dedup, mem_filterMap_headword?_iff, ofDocuments, mem_keys_foldl_add]
    simp
  rw [size, ← List.length_map Prod.fst]
  exact hkeys.length_eq

theorem sharedWord?_ofDocuments_eq_some_iff_shared {documents : List Json} {word : String} :
    (ofDocuments documents).sharedWord? = some word ↔
      Shared documents word ∧ ∀ other, Shared documents other → word ≤ other := by
  rw [sharedWord?_ofDocuments_eq_some_iff, shared_iff_one_lt_length]
  apply and_congr_right
  intro _
  apply forall_congr'
  intro other
  rw [shared_iff_one_lt_length, ← Nat.not_lt, ← String.not_lt]
  exact not_imp_not.symm.trans (by rw [not_not])

theorem sharedWord?_ofDocuments_eq_none_iff_shared {documents : List Json} :
    (ofDocuments documents).sharedWord? = none ↔ ∀ word, ¬Shared documents word := by
  rw [sharedWord?_ofDocuments_eq_none_iff, List.nodup_iff_count]
  simp only [← length_entriesOf, shared_iff_one_lt_length, Nat.not_lt]

/--
The index of a lexicon answers what the documents say. With a headword it finds the first live document that has
it, and with an id the headword of the last document that has both, deleted or not. Its size is the number of
different headwords of live documents, and the headword that it reports as shared is the smallest one that live
documents in two places have.
-/
theorem ofDocuments_answers (documents : List Json) :
    (∀ document word, headword? document = some word ↔ Heads document word) ∧
      (∀ word, entry? (ofDocuments documents) word = documents.find? (IsLiveWith word ·)) ∧
      (∀ id, (ofDocuments documents).wordOfId? id = (documents.reverse.find? (Names id ·)).bind headword?) ∧
      (ofDocuments documents).size = ((liveDocuments documents).filterMap headword?).dedup.length ∧
      ((ofDocuments documents).sharedWord? = none ↔ ∀ word, ¬Shared documents word) ∧
      ∀ word, (ofDocuments documents).sharedWord? = some word ↔
        Shared documents word ∧ ∀ other, Shared documents other → word ≤ other := by
  refine ⟨fun _ _ => headword?_eq_some_iff, fun word => ?_, fun id => ?_, size_ofDocuments documents,
    sharedWord?_ofDocuments_eq_none_iff_shared, fun _ => sharedWord?_ofDocuments_eq_some_iff_shared⟩
  . rw [entry?_ofDocuments, entriesOf_eq_filter_isLiveWith, List.head?_filter]
  . rw [wordOfId?, (indexes_ofDocuments documents).words, findSome?_wordFor?]

end LexiconIndex

end LexiconAudit.Database
