import LexiconAudit.Database.LexiconIndex
import LexiconAudit.Proofs.Keyed

/-!
This module contains what the index of a lexicon answers, in terms of the documents that it was made of:
the live entries with a headword, whether a headword is shared, and the headword of an id.
-/

namespace LexiconAudit.Database

open Keyed (lookup_cons_of_ne)

def liveDocuments (documents : List Json) : List Json :=
  documents.filter fun document => !isDeleted document

def entriesOf (documents : List Json) (word : String) : List Json :=
  (liveDocuments documents).filter fun document => headword? document = some word

theorem entriesOf_eq_filter (documents : List Json) (word : String) : entriesOf documents word =
    documents.filter fun document => decide (headword? document = some word) && !isDeleted document :=
  List.filter_filter

def wordFor? (id : String) (document : Json) : Option String :=
  if documentId? document = some id then headword? document else none

/--
An id stands for the headword of the last document that has both, be it deleted or not.
-/
def Resolves (documents : List Json) (id word : String) : Prop :=
  ∃ before document after, documents = before ++ document :: after ∧ documentId? document = some id ∧
    headword? document = some word ∧ ∀ later ∈ after, documentId? later = some id → headword? later = none

theorem length_entriesOf (documents : List Json) (word : String) :
    (entriesOf documents word).length = ((liveDocuments documents).filterMap headword?).count word := by
  rw [List.count_filterMap, entriesOf, ← List.countP_eq_length_filter]
  apply List.countP_congr
  simp

namespace LexiconIndex

/-! The groups stay sorted, so that each headword has one of them. -/

def Sorted (groups : List (String × List Json)) : Prop :=
  (groups.map Prod.fst).Pairwise (· < ·)

theorem mem_keys_addTo {word other : String} {entry : Json} {groups : List (String × List Json)} :
    other ∈ (addTo word entry groups).map Prod.fst ↔ other = word ∨ other ∈ groups.map Prod.fst := by
  fun_induction addTo word entry groups with
  | case1 => simp
  | case2 entries groups => simp
  | case3 => simp
  | case4 first entries groups hne hlt ih =>
    rw [List.map_cons, List.mem_cons, ih, List.map_cons, List.mem_cons]
    exact or_left_comm

theorem sorted_addTo (word : String) (entry : Json) {groups : List (String × List Json)}
    (h : Sorted groups) : Sorted (addTo word entry groups) := by
  unfold Sorted at h ⊢
  fun_induction addTo word entry groups with
  | case1 => simp
  | case2 => exact h
  | case3 first entries groups hne hlt =>
    simp only [List.map_cons, List.pairwise_cons, List.mem_cons] at h ⊢
    refine ⟨?_, h⟩
    rintro other (rfl | hother)
    . exact hlt
    . exact String.lt_trans hlt (h.1 other hother)
  | case4 first entries groups hne hlt ih =>
    simp only [List.map_cons, List.pairwise_cons] at h ⊢
    refine ⟨?_, ih h.2⟩
    intro other hother
    rcases mem_keys_addTo.1 hother with rfl | hother
    . exact String.not_le.1 fun hle => hne (String.le_antisymm hle (String.not_lt.1 hlt))
    . exact h.1 other hother

theorem lookup_eq_none_of_lt {word : String} {groups : List (String × List Json)}
    (h : ∀ other ∈ groups.map Prod.fst, word < other) : groups.lookup word = none := by
  rw [List.lookup_eq_none_iff]
  intro pair hpair
  have hlt := h pair.1 (List.mem_map_of_mem hpair)
  have hne : word ≠ pair.1 := fun heq => String.lt_irrefl _ (heq ▸ hlt)
  simpa using hne

theorem lookup_addTo {word : String} {entry : Json} {groups : List (String × List Json)}
    (h : Sorted groups) (other : String) :
    (addTo word entry groups).lookup other =
      if other = word then some ((groups.lookup word).getD [] ++ [entry]) else groups.lookup other := by
  unfold Sorted at h
  by_cases hother : other = word
  . subst hother
    rw [if_pos rfl]
    fun_induction addTo other entry groups with
    | case1 => simp
    | case2 => simp
    | case3 first entries groups hne hlt =>
      rw [lookup_cons_of_ne hne, List.lookup_cons_self, lookup_eq_none_of_lt]
      . rfl
      . simp only [List.map_cons, List.pairwise_cons] at h
        intro key hkey
        exact String.lt_trans hlt (h.1 key hkey)
    | case4 first entries groups hne hlt ih =>
      simp only [List.map_cons, List.pairwise_cons] at h
      rw [lookup_cons_of_ne hne, ih h.2, lookup_cons_of_ne hne]
  . rw [if_neg hother]
    fun_induction addTo word entry groups with
    | case1 => rw [lookup_cons_of_ne hother]
    | case2 => rw [lookup_cons_of_ne hother, lookup_cons_of_ne hother]
    | case3 => rw [lookup_cons_of_ne hother]
    | case4 first entries groups hne hlt ih =>
      simp only [List.map_cons, List.pairwise_cons] at h
      rw [List.lookup_cons, List.lookup_cons, ih h.2]

theorem Sorted.nodup {groups : List (String × List Json)} (h : Sorted groups) :
    (groups.map Prod.fst).Nodup := by
  refine List.Pairwise.imp ?_ h
  rintro word _ hlt rfl
  exact String.lt_irrefl word hlt

structure Indexes (index : LexiconIndex) (documents : List Json) : Prop where
  sorted : Sorted index.groups
  groups (word : String) : (index.groups.lookup word).getD [] = entriesOf documents word
  words (id : String) : index.words.lookup id = documents.reverse.findSome? (wordFor? id)

theorem indexes_empty : Indexes {} [] where
  sorted := by simp [Sorted]
  groups word := rfl
  words id := rfl

theorem entriesOf_concat (documents : List Json) (document : Json) (word : String) :
    entriesOf (documents ++ [document]) word = entriesOf documents word ++
      if isDeleted document = false ∧ headword? document = some word then [document] else [] := by
  unfold entriesOf liveDocuments
  rw [List.filter_append, List.filter_append]
  cases hdeleted : isDeleted document <;> simp [hdeleted, List.filter_cons]

theorem findSome?_concat (documents : List Json) (document : Json) (id : String) :
    (documents ++ [document]).reverse.findSome? (wordFor? id) =
      (wordFor? id document).or (documents.reverse.findSome? (wordFor? id)) := by
  rw [List.reverse_concat, List.findSome?_cons]
  cases wordFor? id document <;> rfl

theorem Indexes.add {index : LexiconIndex} {documents : List Json} (h : Indexes index documents)
    (document : Json) : Indexes (index.add document) (documents ++ [document]) := by
  unfold LexiconIndex.add
  split
  . next hword =>
    refine ⟨h.sorted, ?_, ?_⟩
    . intro word
      rw [entriesOf_concat, h.groups, hword]
      simp
    . intro id
      rw [findSome?_concat, h.words]
      simp [wordFor?, hword]
  . next word hword =>
    refine ⟨?_, ?_, ?_⟩
    . dsimp only
      split
      . exact h.sorted
      . exact sorted_addTo word document h.sorted
    . intro other
      dsimp only
      rw [entriesOf_concat]
      split
      . next hdeleted =>
        rw [h.groups, hdeleted]
        simp
      . next hdeleted =>
        rw [lookup_addTo h.sorted, hword]
        by_cases hother : other = word
        . subst hother
          simp [hdeleted, h.groups]
        . have hne : ¬word = other := fun heq => hother heq.symm
          simp [hother, hne, h.groups]
    . intro id
      dsimp only
      rw [findSome?_concat, ← h.words]
      split
      . next id' hid =>
        by_cases heq : id = id'
        . simp [wordFor?, hid, hword, heq]
        . have hne : ¬id' = id := fun heq' => heq heq'.symm
          rw [lookup_cons_of_ne heq]
          simp [wordFor?, hid, hne]
      . next hid => simp [wordFor?, hid]

theorem Indexes.foldl_add {index : LexiconIndex} {documents : List Json} (h : Indexes index documents)
    (more : List Json) : Indexes (more.foldl LexiconIndex.add index) (documents ++ more) := by
  induction more generalizing index documents with
  | nil => simpa using h
  | cons document more ih => simpa using ih (h.add document)

theorem indexes_ofDocuments (documents : List Json) : Indexes (ofDocuments documents) documents :=
  indexes_empty.foldl_add documents

theorem entry?_ofDocuments (documents : List Json) (word : String) :
    entry? (ofDocuments documents) word = (entriesOf documents word).head? := by
  unfold entry?
  rw [← (indexes_ofDocuments documents).groups]
  cases (ofDocuments documents).groups.lookup word <;> rfl

theorem wordFor?_eq_some_iff {id word : String} {document : Json} :
    wordFor? id document = some word ↔ documentId? document = some id ∧ headword? document = some word := by
  simp [wordFor?]

theorem wordFor?_eq_none_iff {id : String} {document : Json} :
    wordFor? id document = none ↔ (documentId? document = some id → headword? document = none) := by
  simp [wordFor?]

theorem wordOfId?_ofDocuments_eq_some_iff {documents : List Json} {id word : String} :
    (ofDocuments documents).wordOfId? id = some word ↔ Resolves documents id word := by
  unfold wordOfId?
  rw [(indexes_ofDocuments documents).words, List.findSome?_eq_some_iff]
  constructor
  . intro ⟨after, document, before, hdocuments, hword, hafter⟩
    obtain ⟨hid, hword⟩ := wordFor?_eq_some_iff.1 hword
    refine ⟨before.reverse, document, after.reverse, ?_, hid, hword, ?_⟩
    . rw [List.reverse_eq_iff.1 hdocuments]
      simp
    . intro later hlater
      exact wordFor?_eq_none_iff.1 (hafter later (List.mem_reverse.1 hlater))
  . intro ⟨before, document, after, hdocuments, hid, hword, hafter⟩
    refine ⟨after.reverse, document, before.reverse, by simp [hdocuments],
      wordFor?_eq_some_iff.2 ⟨hid, hword⟩, ?_⟩
    intro later hlater
    exact wordFor?_eq_none_iff.2 (hafter later (List.mem_reverse.1 hlater))

theorem wordOfId?_ofDocuments (documents : List Json) (id : String) :
    (ofDocuments documents).wordOfId? id = (documents.filterMap (wordFor? id)).getLast? := by
  unfold wordOfId?
  rw [(indexes_ofDocuments documents).words, ← List.head?_filterMap, List.filterMap_reverse, List.head?_reverse]

theorem sharedWord?_ofDocuments_eq_none_iff {documents : List Json} :
    (ofDocuments documents).sharedWord? = none ↔ ((liveDocuments documents).filterMap headword?).Nodup := by
  have h := indexes_ofDocuments documents
  unfold sharedWord?
  rw [Option.map_eq_none_iff, List.find?_eq_none, List.nodup_iff_count]
  simp only [← length_entriesOf]
  constructor
  . intro hgroups word
    rw [← h.groups]
    cases hlookup : (ofDocuments documents).groups.lookup word with
    | none => simp
    | some entries =>
      obtain ⟨before, after, hmem, -⟩ := List.lookup_eq_some_iff.1 hlookup
      have := hgroups (word, entries) (by simp [hmem])
      simpa using this
  . intro hlengths ⟨word, entries⟩ hmem
    have hword := h.groups word
    rw [Keyed.lookup_of_mem h.sorted.nodup hmem] at hword
    have := hlengths word
    simpa [← hword] using this

theorem first_of_sharedWord?_eq_some {documents : List Json} {word : String}
    (h : (ofDocuments documents).sharedWord? = some word) :
    1 < (entriesOf documents word).length ∧ ∀ other < word, (entriesOf documents other).length ≤ 1 := by
  have hindexes := indexes_ofDocuments documents
  obtain ⟨⟨word, entries⟩, hfind, hname⟩ := Option.map_eq_some_iff.1 h
  cases hname
  obtain ⟨hlength, before, after, hgroups, hbefore⟩ := List.find?_eq_some_iff_append.1 hfind
  have hword := hindexes.groups word
  rw [Keyed.lookup_of_mem hindexes.sorted.nodup (List.mem_of_find?_eq_some hfind)] at hword
  refine ⟨by simpa [← hword] using hlength, fun other hlt => ?_⟩
  rw [← hindexes.groups]
  cases hlookup : (ofDocuments documents).groups.lookup other with
  | none => simp
  | some others =>
    obtain ⟨front, back, hmem, -⟩ := List.lookup_eq_some_iff.1 hlookup
    have hother : (other, others) ∈ before ++ (word, entries) :: after := by simp [← hgroups, hmem]
    have hsorted := hindexes.sorted
    rw [Sorted, hgroups, List.map_append, List.map_cons, List.pairwise_append, List.pairwise_cons] at hsorted
    rw [List.mem_append, List.mem_cons] at hother
    rcases hother with hother | heq | hother
    . simpa using hbefore _ hother
    . cases heq
      exact absurd hlt (String.lt_irrefl _)
    -- the groups stay sorted, so that a smaller headword is not behind this one
    . have hgt := hsorted.2.1.1 other (List.mem_map_of_mem hother)
      exact absurd (String.lt_trans hlt hgt) (String.lt_irrefl _)

theorem sharedWord?_ofDocuments_eq_some_iff {documents : List Json} {word : String} :
    (ofDocuments documents).sharedWord? = some word ↔
      1 < (entriesOf documents word).length ∧ ∀ other < word, (entriesOf documents other).length ≤ 1 := by
  refine ⟨first_of_sharedWord?_eq_some, fun ⟨hlength, hfirst⟩ => ?_⟩
  cases hshared : (ofDocuments documents).sharedWord? with
  | none =>
    rw [sharedWord?_ofDocuments_eq_none_iff, List.nodup_iff_count] at hshared
    have hcount := hshared word
    rw [← length_entriesOf] at hcount
    omega
  | some other =>
    obtain ⟨hlength', hfirst'⟩ := first_of_sharedWord?_eq_some hshared
    have hle : ¬other < word := fun hlt => by
      have := hfirst other hlt
      omega
    have hge : ¬word < other := fun hlt => by
      have := hfirst' word hlt
      omega
    rw [String.le_antisymm (String.not_lt.1 hge) (String.not_lt.1 hle)]

theorem sharedWord?_ofDocuments_congr {documents documents' : List Json}
    (h : ∀ word, 1 < (entriesOf documents word).length ↔ 1 < (entriesOf documents' word).length) :
    (ofDocuments documents).sharedWord? = (ofDocuments documents').sharedWord? := by
  apply Option.ext
  intro word
  rw [sharedWord?_ofDocuments_eq_some_iff, sharedWord?_ofDocuments_eq_some_iff, h]
  simp only [← Nat.not_lt, h]

end LexiconIndex

end LexiconAudit.Database
