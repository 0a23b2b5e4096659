import LexiconAudit.Proofs.Files.Listing
import LexiconAudit.Proofs.Repository.Storing

/-!
This module contains the search for the file that holds a key: the files of the lexicon are taken in the order of
their names, and the first that holds the key or cannot be read decides.
-/

namespace LexiconAudit.Repository

open Files (Directory IsListing Place)

/-! The files that are searched. -/

def IsLexiconName (name : String) : Prop :=
  ∃ middle : String, name = "Lexicon_" ++ middle ++ ".lexdb" ∧ '\n' ∉ middle.toList

theorem isLexiconFile_iff {name : String} : isLexiconFile name = true ↔ IsLexiconName name := by
  unfold isLexiconFile IsLexiconName
  constructor
  . intro h
    split at h
    . cases h
    next rest hrest =>
    split at h
    . cases h
    next middle hmiddle =>
    rw [Text.afterMark?_eq_some_iff] at hrest hmiddle
    rw [List.reverse_eq_iff, List.reverse_append, List.reverse_reverse] at hmiddle
    refine ⟨String.ofList middle.reverse, ?_, by simpa using h⟩
    rw [← String.toList_inj, hrest, hmiddle]
    simp
  . rintro ⟨middle, rfl, hmiddle⟩
    have hrest : Text.afterMark? "Lexicon_".toList ("Lexicon_" ++ middle ++ ".lexdb").toList =
        some (middle.toList ++ ".lexdb".toList) := by
      rw [Text.afterMark?_eq_some_iff, String.toList_append, String.toList_append, List.append_assoc]
    have hend : Text.afterMark? ".lexdb".toList.reverse (middle.toList ++ ".lexdb".toList).reverse =
        some middle.toList.reverse := by
      rw [Text.afterMark?_eq_some_iff, List.reverse_append]
    rw [hrest]
    dsimp only
    rw [hend]
    simpa using hmiddle

instance : DecidablePred IsLexiconName := fun _ =>
  decidable_of_iff _ isLexiconFile_iff

theorem IsLexiconName.isName {name : String} (h : IsLexiconName name) : Files.isName name = true := by
  obtain ⟨middle, rfl, -⟩ := h
  have hne (other : String) (hother : other.toList.head? ≠ some 'L') : "Lexicon_" ++ middle ++ ".lexdb" ≠ other := by
    rintro rfl
    simp at hother
  unfold Files.isName
  rw [Bool.and_eq_true, Bool.and_eq_true, Bool.not_eq_true', decide_eq_true_iff, decide_eq_true_iff,
    ← Bool.not_eq_true, String.isEmpty_iff]
  exact ⟨⟨hne "" (by decide), hne "." (by decide)⟩, hne ".." (by decide)⟩

/--
The paths of the lexicon files among the names in a directory, in the order of the names.
-/
def Searches (directory : String) (names paths : List String) : Prop :=
  ∃ sorted : List String, sorted.Perm (names.filter (IsLexiconName ·)) ∧ sorted.Pairwise (· ≤ ·) ∧
    paths = sorted.map (Files.join directory)

theorem Searches.unique {directory : String} {names names' paths paths' : List String}
    (h : Searches directory names paths) (h' : Searches directory names' paths')
    (hperm : (names.filter (IsLexiconName ·)).Perm (names'.filter (IsLexiconName ·))) : paths = paths' := by
  obtain ⟨sorted, hsame, hsorted, rfl⟩ := h
  obtain ⟨sorted', hsame', hsorted', rfl⟩ := h'
  rw [List.Perm.eq_of_pairwise (fun _ _ _ _ => String.le_antisymm) hsorted hsorted'
    ((hsame.trans hperm).trans hsame'.symm)]

variable {files : Files.Tree} {root : String}

theorem exists_searches {names : List String} (h : files.list (lexiconDirectory root) = .ok names) :
    ∃ paths, lexiconFiles files root = .ok paths ∧ Searches (lexiconDirectory root) names paths := by
  have hle (a b : String) : (!decide (b < a)) = true ↔ a ≤ b := by
    rw [Bool.not_eq_true', decide_eq_false_iff_not, String.not_lt]
  unfold lexiconFiles
  dsimp only
  rw [h]
  refine ⟨_, rfl, _, ?_, ?_, rfl⟩
  . have hfilter : names.filter isLexiconFile = names.filter (IsLexiconName ·) := by
      apply List.filter_congr
      intro name _
      rw [Bool.eq_iff_iff, isLexiconFile_iff, decide_eq_true_iff]
    rw [← hfilter]
    exact List.mergeSort_perm _ _
  . refine (List.pairwise_mergeSort ?_ ?_ _).imp fun {a b} hab => (hle a b).1 hab
    . intro a b c hab hbc
      rw [hle] at hab hbc ⊢
      exact String.le_trans hab hbc
    . intro a b
      rw [Bool.or_eq_true, hle, hle]
      exact String.le_total a b

/-! The search. -/

def HoldsKey (files : Files.Tree) (key : List Char) (path : String) : Prop :=
  ∃ text, files.readText path = .ok text ∧ key <:+: Text.stripLayout text.toList

def LacksKey (files : Files.Tree) (key : List Char) (path : String) : Prop :=
  ∃ text, files.readText path = .ok text ∧ ¬ key <:+: Text.stripLayout text.toList

variable {key : List Char} {path : String} {paths : List String}

theorem firstContaining_of_holdsKey (h : HoldsKey files key path) (paths : List String) :
    firstContaining files key (path :: paths) = .ok (some path) := by
  obtain ⟨text, htext, hkey⟩ := h
  rw [firstContaining, htext]
  exact if_pos (Text.occurs_iff.2 hkey)

theorem firstContaining_of_fault {fault : Files.Fault} (h : files.readText path = .error fault)
    (paths : List String) : firstContaining files key (path :: paths) = .error (.unreadable path fault) := by
  rw [firstContaining, h]

theorem firstContaining_append {before : List String} (h : ∀ other ∈ before, LacksKey files key other)
    (paths : List String) : firstContaining files key (before ++ paths) = firstContaining files key paths := by
  induction before with
  | nil => rfl
  | cons other before ih =>
    rw [List.forall_mem_cons] at h
    obtain ⟨⟨text, htext, hkey⟩, h⟩ := h
    rw [List.cons_append, firstContaining, htext]
    exact (if_neg (mt Text.occurs_iff.1 hkey)).trans (ih h)

/--
A file is searched after files that lack the key only.
-/
def IsReached (files : Files.Tree) (key : List Char) (paths : List String) (path : String) : Prop :=
  ∃ before after, paths = before ++ path :: after ∧ ∀ other ∈ before, LacksKey files key other

theorem IsReached.firstContaining_eq (h : IsReached files key paths path) :
    ∃ after, firstContaining files key paths = firstContaining files key (path :: after) := by
  obtain ⟨before, after, rfl, hbefore⟩ := h
  exact ⟨after, firstContaining_append hbefore _⟩

theorem IsReached.head (files : Files.Tree) (key : List Char) (path : String) (paths : List String) :
    IsReached files key (path :: paths) path :=
  ⟨[], paths, rfl, List.forall_mem_nil _⟩

theorem IsReached.cons {other : String} (h : IsReached files key paths path) (hother : LacksKey files key other) :
    IsReached files key (other :: paths) path := by
  obtain ⟨before, after, rfl, hbefore⟩ := h
  exact ⟨other :: before, after, rfl, List.forall_mem_cons.2 ⟨hother, hbefore⟩⟩

inductive SearchEnds (files : Files.Tree) (key : List Char) (paths : List String) :
    Except Discrepancy (Option String) → Prop where
  | located {path : String} : IsReached files key paths path → HoldsKey files key path →
    SearchEnds files key paths (.ok (some path))
  | unreadable {path : String} {fault : Files.Fault} : IsReached files key paths path →
    files.readText path = .error fault → SearchEnds files key paths (.error (.unreadable path fault))
  | nowhere : (∀ path ∈ paths, LacksKey files key path) → SearchEnds files key paths (.ok none)

variable {result : Except Discrepancy (Option String)}

theorem SearchEnds.cons (h : SearchEnds files key paths result) (hpath : LacksKey files key path) :
    SearchEnds files key (path :: paths) result := by
  cases h with
  | located hreached hkey => exact .located (hreached.cons hpath) hkey
  | unreadable hreached hfault => exact .unreadable (hreached.cons hpath) hfault
  | nowhere hall => exact .nowhere (List.forall_mem_cons.2 ⟨hpath, hall⟩)

theorem searchEnds_firstContaining (files : Files.Tree) (key : List Char) (paths : List String) :
    SearchEnds files key paths (firstContaining files key paths) := by
  induction paths with
  | nil => exact .nowhere (List.forall_mem_nil _)
  | cons path paths ih =>
    unfold firstContaining
    split
    . next htext => exact .unreadable (.head ..) htext
    . next text htext =>
      split
      . next hkey => exact .located (.head ..) ⟨text, htext, Text.occurs_iff.1 hkey⟩
      . next hkey => exact ih.cons ⟨text, htext, mt Text.occurs_iff.2 hkey⟩

theorem firstContaining_eq_iff : firstContaining files key paths = result ↔ SearchEnds files key paths result := by
  constructor
  . rintro rfl
    exact searchEnds_firstContaining files key paths
  . intro h
    cases h with
    | located hreached hkey =>
      obtain ⟨after, heq⟩ := hreached.firstContaining_eq
      rw [heq, firstContaining_of_holdsKey hkey]
    | unreadable hreached hfault =>
      obtain ⟨after, heq⟩ := hreached.firstContaining_eq
      rw [heq, firstContaining_of_fault hfault]
    | nowhere hall => rw [← List.append_nil paths, firstContaining_append hall, firstContaining]

/--
What a search through some files can end with, and when.
-/
structure IsFirstMatch (files : Files.Tree) (key : List Char) (paths : List String)
    (result : Except Discrepancy (Option String)) : Prop where
  located (path : String) : result = .ok (some path) ↔ IsReached files key paths path ∧ HoldsKey files key path
  unreadable (discrepancy : Discrepancy) : result = .error discrepancy ↔ ∃ path fault,
    IsReached files key paths path ∧ files.readText path = .error fault ∧ discrepancy = .unreadable path fault
  nowhere : result = .ok none ↔ ∀ path ∈ paths, LacksKey files key path

theorem firstContaining_isFirstMatch (files : Files.Tree) (key : List Char) (paths : List String) :
    IsFirstMatch files key paths (firstContaining files key paths) where
  located path := by
    rw [firstContaining_eq_iff]
    constructor
    . intro h
      cases h with
      | located hreached hkey => exact ⟨hreached, hkey⟩
    . rintro ⟨hreached, hkey⟩
      exact .located hreached hkey
  unreadable discrepancy := by
    rw [firstContaining_eq_iff]
    constructor
    . intro h
      cases h with
      | unreadable hreached hfault => exact ⟨_, _, hreached, hfault, rfl⟩
    . rintro ⟨path, fault, hreached, hfault, rfl⟩
      exact .unreadable hreached hfault
  nowhere := by
    rw [firstContaining_eq_iff]
    constructor
    . intro h
      cases h with
      | nowhere hall => exact hall
    . exact .nowhere

/-! What the result depends on. -/

theorem firstContaining_congr {files' : Files.Tree}
    (h : ∀ path ∈ paths, files'.readText path = files.readText path) :
    firstContaining files' key paths = firstContaining files key paths := by
  induction paths with
  | nil => rfl
  | cons path paths ih =>
    rw [List.forall_mem_cons] at h
    rw [firstContaining, firstContaining, h.1, ih h.2]

def lexicons (inside : Directory) : Directory :=
  inside.filter fun entry => IsLexiconName entry.1

theorem map_lexicons (inside : Directory) :
    (lexicons inside).map Prod.fst = (inside.map Prod.fst).filter (IsLexiconName ·) := by
  rw [lexicons, List.filter_map]
  rfl

theorem lookup_lexicons {inside : Directory} (hlisting : IsListing inside) {entry : String × Files.Entry}
    (h : entry ∈ lexicons inside) : inside.lookup entry.1 = some entry.2 :=
  Keyed.lookup_of_mem hlisting.nodup (List.mem_of_mem_filter h)

theorem locate_ofRoot (files : Files.Tree) (root : String) (key : List Char) :
    (Locator.ofRoot files root).locate key = lexiconFiles files root >>= firstContaining files key := rfl

theorem locate_of_lexiconFiles (h : lexiconFiles files root = .ok paths) (key : List Char) :
    (Locator.ofRoot files root).locate key = firstContaining files key paths := by
  rw [locate_ofRoot, h]
  rfl

theorem locate_of_missing (h : files.find (lexiconDirectory root) = .error .notFound) (key : List Char) :
    (Locator.ofRoot files root).locate key = .ok none := by
  have hlist : files.list (lexiconDirectory root) = .error .notFound := by
    rw [Files.Tree.list, h]
    rfl
  have hpaths : lexiconFiles files root = .ok [] := by
    unfold lexiconFiles
    dsimp only
    rw [hlist]
  rw [locate_of_lexiconFiles hpaths, firstContaining]

section Listings

variable {files' : Files.Tree} {place place' : Place} {inside inside' : Directory}
  (h : files.find (lexiconDirectory root) = .ok (place, .directory inside))
  (h' : files'.find (lexiconDirectory root) = .ok (place', .directory inside'))
  (hlisting : IsListing inside) (hlisting' : IsListing inside') (hsame : (lexicons inside').Perm (lexicons inside))

include h h' hlisting hlisting' hsame

theorem readText_congr (hsearches : Searches (lexiconDirectory root) (inside.map Prod.fst) paths) :
    ∀ path ∈ paths, files'.readText path = files.readText path := by
  obtain ⟨sorted, hsorted, -, rfl⟩ := hsearches
  rw [List.forall_mem_map]
  intro name hname
  rw [hsorted.mem_iff, ← map_lexicons, List.mem_map] at hname
  obtain ⟨entry, hentry, rfl⟩ := hname
  have hlexicon : IsLexiconName entry.1 := by simpa using (List.mem_filter.1 hentry).2
  refine (Files.Tree.readText_join_congr h h' ?_ (hlisting.plain entry (List.mem_of_mem_filter hentry))
    hlexicon.isName ?_).symm
  . rw [lead_lexiconDirectory, segments_lexiconDirectory]
  . rw [lookup_lexicons hlisting hentry, lookup_lexicons hlisting' (hsame.mem_iff.2 hentry)]

theorem locate_congr (key : List Char) :
    (Locator.ofRoot files' root).locate key = (Locator.ofRoot files root).locate key := by
  obtain ⟨paths, hpaths, hsearches⟩ := exists_searches (Files.Tree.list_of_find h)
  obtain ⟨paths', hpaths', hsearches'⟩ := exists_searches (Files.Tree.list_of_find h')
  have hperm : ((inside'.map Prod.fst).filter (IsLexiconName ·)).Perm
      ((inside.map Prod.fst).filter (IsLexiconName ·)) := by
    rw [← map_lexicons, ← map_lexicons]
    exact hsame.map Prod.fst
  rw [locate_of_lexiconFiles hpaths, locate_of_lexiconFiles hpaths', hsearches'.unique hsearches hperm]
  exact firstContaining_congr (readText_congr h h' hlisting hlisting' hsame hsearches)

end Listings

/--
The lexicon files are searched in the order of their names, up to the first that contains the key or cannot be
read. If there is no directory for them the key is nowhere. How the directory lists its entries and which others
it has makes no difference.
-/
theorem locate_isFirstMatch (files : Files.Tree) (root : String) (key : List Char) :
    (files.find (lexiconDirectory root) = .error .notFound →
      (Locator.ofRoot files root).locate key = .ok none) ∧
    ∀ place inside, files.find (lexiconDirectory root) = .ok (place, .directory inside) →
      (∃ paths, Searches (lexiconDirectory root) (inside.map Prod.fst) paths ∧
        IsFirstMatch files key paths ((Locator.ofRoot files root).locate key)) ∧
      ∀ files' place' inside', files'.find (lexiconDirectory root) = .ok (place', .directory inside') →
        IsListing inside → IsListing inside' → (lexicons inside').Perm (lexicons inside) →
        (Locator.ofRoot files' root).locate key = (Locator.ofRoot files root).locate key := by
  refine ⟨fun h => locate_of_missing h key, fun place inside h => ⟨?_, ?_⟩⟩
  . obtain ⟨paths, hpaths, hsearches⟩ := exists_searches (Files.Tree.list_of_find h)
    rw [locate_of_lexiconFiles hpaths]
    exact ⟨paths, hsearches, firstContaining_isFirstMatch files key paths⟩
  . intro files' place' inside' h' hlisting hlisting' hsame
    exact locate_congr h h' hlisting hlisting' hsame key

def textFile (text : String) : Files.Entry :=
  .file (.plain (Text.Utf8.encode text)) false

def shelf : Directory := [
  ("Lexicon_03.lexdb", .directory []), ("notes.txt", textFile "sun"),
  ("Lexicon_02.lexdb", textFile "s u\nn"), ("Lexicon_01.lexdb", textFile "moon")]

def rearrangedShelf : Directory :=
  ("Lexicon_00.txt", .directory []) :: shelf.reverse

def shelved (inside : Directory) : Files.Tree where
  tops := [(some 0, [("repo", .directory [("Linguistics", .directory [("Lexicon", .directory inside)])])])]

theorem find_shelved (inside : Directory) : (shelved inside).find (lexiconDirectory "repo") =
    .ok (⟨some 0, ["repo", "Linguistics", "Lexicon"]⟩, .directory inside) := by
  with_unfolding_all rfl

theorem holdsKey_shelf :
    HoldsKey (shelved shelf) "sun".toList "repo/Linguistics/Lexicon/Lexicon_02.lexdb" := by
  have hfind : (shelved shelf).find "repo/Linguistics/Lexicon/Lexicon_02.lexdb" =
      .ok (⟨some 0, ["repo", "Linguistics", "Lexicon", "Lexicon_02.lexdb"]⟩, textFile "s u\nn") := by
    with_unfolding_all rfl
  exact ⟨_, Files.Tree.readText_of_find hfind, by decide⟩

theorem lacksKey_shelf :
    LacksKey (shelved shelf) "sun".toList "repo/Linguistics/Lexicon/Lexicon_01.lexdb" := by
  have hfind : (shelved shelf).find "repo/Linguistics/Lexicon/Lexicon_01.lexdb" =
      .ok (⟨some 0, ["repo", "Linguistics", "Lexicon", "Lexicon_01.lexdb"]⟩, textFile "moon") := by
    with_unfolding_all rfl
  exact ⟨_, Files.Tree.readText_of_find hfind, by decide⟩

theorem locate_shelf :
    (Locator.ofRoot {} "repo").locate "sun".toList = .ok none ∧
      (Locator.ofRoot (shelved shelf) "repo").locate "sun".toList =
        .ok (some "repo/Linguistics/Lexicon/Lexicon_02.lexdb") ∧
      (Locator.ofRoot (shelved rearrangedShelf) "repo").locate "sun".toList =
        .ok (some "repo/Linguistics/Lexicon/Lexicon_02.lexdb") := by
  obtain ⟨⟨paths, hsearches, hmatch⟩, hsame⟩ :=
    (locate_isFirstMatch (shelved shelf) "repo" "sun".toList).2 _ _ (find_shelved shelf)
  have hpaths : Searches (lexiconDirectory "repo") (shelf.map Prod.fst)
      ["repo/Linguistics/Lexicon/Lexicon_01.lexdb", "repo/Linguistics/Lexicon/Lexicon_02.lexdb",
        "repo/Linguistics/Lexicon/Lexicon_03.lexdb"] :=
    ⟨["Lexicon_01.lexdb", "Lexicon_02.lexdb", "Lexicon_03.lexdb"], by decide, by decide, by decide⟩
  rw [hsearches.unique hpaths (.refl _)] at hmatch
  have hlocate : (Locator.ofRoot (shelved shelf) "repo").locate "sun".toList =
      .ok (some "repo/Linguistics/Lexicon/Lexicon_02.lexdb") :=
    (hmatch.located _).2 ⟨⟨[_], [_], rfl, List.forall_mem_singleton.2 lacksKey_shelf⟩, holdsKey_shelf⟩
  have hother : lexicons rearrangedShelf = (lexicons shelf).reverse := List.filter_reverse ..
  refine ⟨(locate_isFirstMatch {} "repo" _).1 (by with_unfolding_all rfl), hlocate, ?_⟩
  rw [hsame _ _ _ (find_shelved rearrangedShelf) ⟨by decide, by decide⟩ ⟨by decide, by decide⟩
    (hother ▸ List.reverse_perm _), hlocate]

end LexiconAudit.Repository
