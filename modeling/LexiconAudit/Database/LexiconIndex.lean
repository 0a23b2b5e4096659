import LexiconAudit.Database.Document

/-!
This module contains the index of the lexicon: live entries by headword, in the order of the headwords, and
headwords by id. Deleted entries are found by id only, since a comment may still point at them.
-/

namespace LexiconAudit.Database

structure LexiconIndex where
  /-- The live entries with each headword, sorted by headword. -/
  groups : List (String × List Json) := []
  /-- The headword of each id; the newest comes first. -/
  words : List (String × String) := []
  deriving Inhabited

namespace LexiconIndex

def addTo (word : String) (entry : Json) : List (String × List Json) → List (String × List Json)
  | [] => [(word, [entry])]
  | (first, entries) :: groups =>
    if word = first then (first, entries ++ [entry]) :: groups
    else if word < first then (word, [entry]) :: (first, entries) :: groups
    else (first, entries) :: addTo word entry groups

def add (index : LexiconIndex) (document : Json) : LexiconIndex :=
  match headword? document with
  | none => index
  | some word =>
    { words :=
        match documentId? document with
        | some id => (id, word) :: index.words
        | none => index.words
      groups := if isDeleted document then index.groups else addTo word document index.groups }

def ofDocuments (documents : List Json) : LexiconIndex :=
  documents.foldl add {}

/--
The first headword, in order, that two live entries share.
-/
def sharedWord? (index : LexiconIndex) : Option String :=
  (index.groups.find? fun (_, entries) => 1 < entries.length).map Prod.fst

def entry? (index : LexiconIndex) (word : String) : Option Json :=
  (index.groups.lookup word).bind List.head?

/--
The headword of the entry with that id; of the last one of several.
-/
def wordOfId? (index : LexiconIndex) (id : String) : Option String :=
  index.words.lookup id

def size (index : LexiconIndex) : Nat :=
  index.groups.length

def isEmpty (index : LexiconIndex) : Bool :=
  index.groups.isEmpty

end LexiconIndex

end LexiconAudit.Database
