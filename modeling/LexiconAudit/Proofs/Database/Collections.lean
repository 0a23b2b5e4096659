import LexiconAudit.Database.Memory
import LexiconAudit.Proofs.Keyed
import Mathlib.Algebra.BigOperators.Group.List.Basic
import Mathlib.Algebra.GroupWithZero.Nat
import Mathlib.Data.List.Nodup

/-!
This module contains what a store in memory holds after any run of changes: each collection is a list of its own,
which a replacement of the collection sets and an insertion into it lengthens.
-/

namespace LexiconAudit.Database.Memory

def collections (memory : Memory) (database : String) : List (String × List Json) :=
  (memory.databases.lookup database).getD []

theorem documents_eq (memory : Memory) (database collection : String) :
    memory.documents database collection = ((memory.collections database).lookup collection).getD [] := by
  unfold documents collections
  cases memory.databases.lookup database <;> rfl

inductive Change where
  | replace (database collection : String) (documents : List Json)
  | insert (database collection : String) (document : Json)

namespace Change

def apply (memory : Memory) : Change → Memory
  | replace database collection documents => memory.replace database collection documents
  | insert database collection document => memory.insert database collection document

def database : Change → String
  | replace database _ _ => database
  | insert database _ _ => database

def collection : Change → String
  | replace _ collection _ => collection
  | insert _ collection _ => collection

def target (change : Change) : String × String :=
  (change.database, change.collection)

def inserted? : Change → Option Json
  | replace _ _ _ => none
  | insert _ _ document => some document

def revise : Change → Option (List Json) → List Json
  | replace _ _ documents, _ => documents
  | insert _ _ document, before => before.getD [] ++ [document]

def reviseDatabase (change : Change) (before : Option (List (String × List Json))) : List (String × List Json) :=
  Keyed.alter change.collection change.revise (before.getD [])

theorem databases_apply (memory : Memory) (change : Change) :
    (change.apply memory).databases = Keyed.alter change.database change.reviseDatabase memory.databases := by
  cases change <;> rfl

end Change

def after (changes : List Change) : Memory :=
  changes.foldl Change.apply {}

def changesTo (name : String × String) (changes : List Change) : List Change :=
  changes.filter (·.target = name)

def inserted (name : String × String) (changes : List Change) : List Json :=
  (changesTo name changes).filterMap Change.inserted?

theorem databases_after (changes : List Change) :
    (after changes).databases = Keyed.run Change.database Change.reviseDatabase changes := by
  induction changes using List.reverseRecOn with
  | nil => rfl
  | append_singleton changes change ih =>
    rw [after, List.foldl_append, Keyed.run_append_singleton, ← ih]
    exact Change.databases_apply _ change

theorem collections_after (changes : List Change) (database : String) : (after changes).collections database =
    Keyed.run Change.collection Change.revise (changes.filter fun change => change.database = database) := by
  rw [collections, databases_after, Keyed.lookup_run]
  induction changes.filter fun change => change.database = database using List.reverseRecOn with
  | nil => rfl
  | append_singleton changes change ih =>
    rw [List.foldl_append, Keyed.run_append_singleton, ← ih]
    rfl

def revised (documents : Option (List Json)) (changes : List Change) : Option (List Json) :=
  changes.foldl (fun documents change => some (change.revise documents)) documents

theorem documents_after (changes : List Change) (database collection : String) :
    (after changes).documents database collection =
      (revised none (changesTo (database, collection) changes)).getD [] := by
  have htarget : (changes.filter fun change => change.database = database).filter
      (fun change => change.collection = collection) = changesTo (database, collection) changes := by
    rw [List.filter_filter, changesTo]
    refine List.filter_congr fun change _ => ?_
    simp [Change.target, and_comm]
  rw [documents_eq, collections_after, Keyed.lookup_run, htarget]
  rfl

theorem revised_of_insertions {changes : List Change} (h : ∀ change ∈ changes, change.inserted?.isSome)
    (documents : Option (List Json)) :
    (revised documents changes).getD [] = documents.getD [] ++ changes.filterMap Change.inserted? := by
  induction changes generalizing documents with
  | nil => exact (List.append_nil _).symm
  | cons change changes ih =>
    rw [List.forall_mem_cons] at h
    rw [revised, List.foldl_cons, ← revised, ih h.2]
    cases change with
    | replace => cases h.1
    | insert _ _ document => exact List.append_assoc ..

section Collection

variable {database collection : String} {changes : List Change}

theorem isSome_inserted? (h : ∀ documents, Change.replace database collection documents ∉ changes) :
    ∀ change ∈ changesTo (database, collection) changes, change.inserted?.isSome := by
  intro change hchange
  rw [changesTo, List.mem_filter, decide_eq_true_iff] at hchange
  obtain ⟨hmem, htarget⟩ := hchange
  cases change with
  | replace =>
    cases htarget
    exact absurd hmem (h _)
  | insert => rfl

theorem documents_after_of_insertions (h : ∀ documents, Change.replace database collection documents ∉ changes) :
    (after changes).documents database collection = inserted (database, collection) changes := by
  rw [documents_after, revised_of_insertions (isSome_inserted? h)]
  rfl

theorem documents_after_replace {documents : List Json} (before : List Change)
    (h : ∀ documents, Change.replace database collection documents ∉ changes) :
    (after (before ++ .replace database collection documents :: changes)).documents database collection =
      documents ++ inserted (database, collection) changes := by
  have htarget : decide ((Change.replace database collection documents).target = (database, collection)) = true :=
    decide_eq_true rfl
  rw [documents_after, changesTo, List.filter_append, List.filter_cons, if_pos htarget, ← changesTo, ← changesTo,
    revised, List.foldl_append, List.foldl_cons, ← revised, revised_of_insertions (isSome_inserted? h)]
  rfl

end Collection

/-! The number of documents. -/

theorem collections_eq_of_mem {memory : Memory} (h : (memory.databases.map Prod.fst).Nodup)
    {entry : String × List (String × List Json)} (hentry : entry ∈ memory.databases) :
    memory.collections entry.1 = entry.2 := by
  rw [collections, Keyed.lookup_of_mem h hentry, Option.getD_some]

structure IsKeyed (memory : Memory) : Prop where
  databases : (memory.databases.map Prod.fst).Nodup
  collections : ∀ entry ∈ memory.databases, (entry.2.map Prod.fst).Nodup

def names (memory : Memory) : List (String × String) :=
  memory.databases.flatMap fun entry => entry.2.map fun inner => (entry.1, inner.1)

section Names

variable {memory : Memory}

theorem IsKeyed.mem_names_iff (h : memory.IsKeyed) {database collection : String} :
    (database, collection) ∈ memory.names ↔ collection ∈ (memory.collections database).map Prod.fst := by
  simp only [names, List.mem_flatMap, List.mem_map]
  constructor
  . rintro ⟨entry, hentry, inner, hinner, heq⟩
    cases heq
    rw [collections_eq_of_mem h.databases hentry]
    exact ⟨inner, hinner, rfl⟩
  . rintro ⟨inner, hinner, rfl⟩
    unfold Memory.collections at hinner
    cases hlookup : memory.databases.lookup database with
    | none =>
      rw [hlookup] at hinner
      cases hinner
    | some collections =>
      rw [hlookup] at hinner
      exact ⟨_, Keyed.mem_of_lookup hlookup, inner, hinner, rfl⟩

theorem IsKeyed.nodup_names (h : memory.IsKeyed) : memory.names.Nodup := by
  refine List.nodup_flatMap.2 ⟨fun entry hentry => ?_, ?_⟩
  . have hinjective : Function.Injective fun collection : String => (entry.1, collection) :=
      fun _ _ heq => (Prod.mk.inj heq).2
    have hinner := (h.collections entry hentry).map hinjective
    rwa [List.map_map] at hinner
  . refine (List.pairwise_map.1 h.databases).imp fun hne => ?_
    rintro name hname hname'
    obtain ⟨inner, -, rfl⟩ := List.mem_map.1 hname
    obtain ⟨inner', -, heq⟩ := List.mem_map.1 hname'
    exact hne (Prod.mk.inj heq).1.symm

theorem IsKeyed.size_eq (h : memory.IsKeyed) :
    memory.size = (memory.names.map fun name => (memory.documents name.1 name.2).length).sum := by
  have hlengths : memory.names.map (fun name => (memory.documents name.1 name.2).length) =
      (memory.databases.flatMap Prod.snd).map fun inner => inner.2.length := by
    rw [names, List.map_flatMap, List.map_flatMap]
    refine List.flatMap_congr fun entry hentry => ?_
    rw [List.map_map]
    refine List.map_congr_left fun inner hinner => ?_
    change (memory.documents entry.1 inner.1).length = _
    rw [documents_eq, collections_eq_of_mem h.databases hentry, Keyed.lookup_of_mem (h.collections entry hentry) hinner]
    rfl
  rw [hlengths, List.sum_eq_foldl, List.foldl_map]
  rfl

end Names

theorem isKeyed_after (changes : List Change) : (after changes).IsKeyed := by
  have hdatabases : ((after changes).databases.map Prod.fst).Nodup := by
    rw [databases_after]
    exact Keyed.nodup_keys_run _ _ changes
  refine ⟨hdatabases, fun entry hentry => ?_⟩
  rw [← collections_eq_of_mem hdatabases hentry, collections_after]
  exact Keyed.nodup_keys_run ..

theorem mem_names_after_iff {changes : List Change} {name : String × String} :
    name ∈ (after changes).names ↔ ∃ change ∈ changes, change.target = name := by
  obtain ⟨database, collection⟩ := name
  rw [(isKeyed_after changes).mem_names_iff, collections_after, Keyed.keys_run, List.mem_eraseDups]
  simp [Change.target, and_assoc]

theorem size_after (changes : List Change) : (after changes).size =
    ((changes.map Change.target).eraseDups.map fun name => ((after changes).documents name.1 name.2).length).sum := by
  have hnodup : (changes.map Change.target).eraseDups.Nodup := by
    have hrun := Keyed.nodup_keys_run Change.target (fun _ _ => ()) changes
    rw [Keyed.keys_run] at hrun
    convert hrun
  have hperm : (after changes).names.Perm (changes.map Change.target).eraseDups := by
    refine (List.perm_ext_iff_of_nodup (isKeyed_after changes).nodup_names hnodup).2 fun name => ?_
    rw [mem_names_after_iff, List.mem_eraseDups, List.mem_map]
  rw [(isKeyed_after changes).size_eq, (hperm.map _).sum_eq]

theorem documents_after_of_untouched {database collection : String} {changes : List Change}
    (h : ∀ change ∈ changes, change.target ≠ (database, collection)) :
    (after changes).documents database collection = [] := by
  have hnone : changesTo (database, collection) changes = [] :=
    List.filter_eq_nil_iff.2 fun change hchange => by simpa using h change hchange
  rw [documents_after, hnone]
  rfl

theorem isEmpty_after_iff (changes : List Change) : (after changes).isEmpty = true ↔
    ∀ database collection, (after changes).documents database collection = [] := by
  rw [isEmpty, beq_iff_eq, size_after, List.sum_eq_zero_iff_forall_eq_nat]
  simp only [List.forall_mem_map, List.mem_eraseDups, List.length_eq_zero_iff]
  constructor
  . intro h database collection
    by_cases htouched : ∃ change ∈ changes, change.target = (database, collection)
    . obtain ⟨change, hchange, htarget⟩ := htouched
      simpa [htarget] using h change hchange
    . exact documents_after_of_untouched fun change hchange htarget => htouched ⟨change, hchange, htarget⟩
  . intro h change _
    exact h change.target.1 change.target.2

/--
The collections of a store are independent lists: each holds the documents of its last replacement, if there was one,
and behind them those inserted since, in order.
-/
structure HoldsLists (changes : List Change) (memory : Memory) : Prop where
  answered (database collection : String) :
    memory.store.findAll database collection = .ok (memory.documents database collection)
  replaced (database collection : String) (before behind : List Change) (documents : List Json) :
    changes = before ++ .replace database collection documents :: behind →
    (∀ documents, Change.replace database collection documents ∉ behind) →
    memory.documents database collection = documents ++ inserted (database, collection) behind
  appended (database collection : String) : (∀ documents, Change.replace database collection documents ∉ changes) →
    memory.documents database collection = inserted (database, collection) changes
  untouched (database collection : String) : (∀ change ∈ changes, change.target ≠ (database, collection)) →
    memory.documents database collection = []
  independent (database collection : String) : memory.documents database collection =
    (after (changesTo (database, collection) changes)).documents database collection
  size_eq : memory.size =
    ((changes.map Change.target).eraseDups.map fun name => (memory.documents name.1 name.2).length).sum
  isEmpty_iff : memory.isEmpty = true ↔ ∀ database collection, memory.documents database collection = []

/--
A store that was empty before any run of changes holds independent lists behind it.
-/
theorem after_holdsLists (changes : List Change) : HoldsLists changes (after changes) where
  answered _ _ := rfl
  replaced database collection before behind documents heq h := by
    rw [heq, documents_after_replace before h]
  appended _ _ h := documents_after_of_insertions h
  untouched _ _ h := documents_after_of_untouched h
  independent database collection := by
    have hsame : changesTo (database, collection) (changesTo (database, collection) changes) =
        changesTo (database, collection) changes := by simp [changesTo]
    rw [documents_after, documents_after, hsame]
  size_eq := size_after changes
  isEmpty_iff := isEmpty_after_iff changes

example : (after [.insert "sf_demo" "lexicon" .null, .insert "sf_demo" "lexiconComments" .null,
    .replace "sf_demo" "lexicon" [], .insert "sf_demo" "lexicon" .null]).size = 2 := by
  decide

end LexiconAudit.Database.Memory
