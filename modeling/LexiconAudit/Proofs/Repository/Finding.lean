import LexiconAudit.Proofs.Repository.Exactness
import LexiconAudit.Proofs.Repository.Locating
import LexiconAudit.Proofs.Repository.SearchKey

/-!
This module contains the finding of trees by the search keys of their elements: whichever way a tree is laid out in a
file, and whatever else the file holds, each key leads to the file.
-/

namespace LexiconAudit.Repository

open Files (Directory)
open Fixture.Reader (alternative container)
open Text (stripLayout)

theorem searchKey_infix_of_mem_elements {node element : Node} (h : element ∈ node.elements) :
    searchKey element <:+: searchKey node := by
  have hall : node.Throughout fun element => searchKey element <:+: searchKey node := by
    refine Node.Throughout.induction (P := fun _ => True)
      (Q := fun node => node.Throughout fun element => searchKey element <:+: searchKey node) ?_ node fun _ _ => trivial
    intro node _ ih
    refine Node.throughout_iff.2 ⟨List.infix_refl _, fun child hchild => ?_⟩
    exact (ih child hchild).mono fun element helement => helement.trans (searchKey_infix_of_mem hchild)
  exact hall element h

theorem stripLayout_toXmlPretty (node : Node) : stripLayout node.toXmlPretty.toList = searchKey node := by
  rw [Node.toXmlPretty, String.toList_ofList, stripLayout_markup]

/--
The file at the end of a path can be read, and in its text a tree is written in one of the two layouts.
-/
def HoldsTree (files : Files.Tree) (node : Node) (path : String) : Prop :=
  ∃ text, files.readText path = .ok text ∧
    (node.toXml.toList <:+: text.toList ∨ node.toXmlPretty.toList <:+: text.toList)

theorem HoldsTree.holdsKey {files : Files.Tree} {node element : Node} {path : String}
    (h : HoldsTree files node path) (helement : element ∈ node.elements) :
    HoldsKey files (searchKey element) path := by
  obtain ⟨text, htext, hwritten⟩ := h
  have hnode : searchKey node <:+: stripLayout text.toList := by
    rcases hwritten with hcompact | hindented
    . exact hcompact.filter _
    . rw [← stripLayout_toXmlPretty]
      exact hindented.filter _
  exact ⟨text, htext, (searchKey_infix_of_mem_elements helement).trans hnode⟩

/--
The layout of a tree does not show in its search key, in which the keys of all its elements stand. So a file that
holds the tree in either layout holds all their keys, and a search for one of them ends there if it gets there.
-/
theorem searchKeys_of_layouts (node : Node) :
    stripLayout node.toXmlPretty.toList = stripLayout node.toXml.toList ∧
      ∀ element ∈ node.elements, stripLayout element.toXml.toList <:+: stripLayout node.toXml.toList ∧
        ∀ files path, HoldsTree files node path → HoldsKey files (searchKey element) path ∧
          ∀ root paths, lexiconFiles files root = .ok paths → IsReached files (searchKey element) paths path →
            (Locator.ofRoot files root).locate (searchKey element) = .ok (some path) := by
  refine ⟨stripLayout_toXmlPretty node, fun element helement => ⟨searchKey_infix_of_mem_elements helement, ?_⟩⟩
  intro files path htree
  have hkey := htree.holdsKey helement
  refine ⟨hkey, fun root paths hpaths hreached => ?_⟩
  rw [locate_of_lexiconFiles hpaths]
  exact ((firstContaining_isFirstMatch _ _ _).located path).2 ⟨hreached, hkey⟩

def newMoonForm : Node :=
  container Node.formName [alternative Node.uniName "en" "new moon"]

def moonShelf : Directory := [
  ("Lexicon_02.lexdb", textFile ("<?xml version='1.0'?>\n" ++ storedLexicon.toXmlPretty)),
  ("Lexicon_01.lexdb", textFile "<Lexicon />")]

theorem holdsTree_moonShelf :
    HoldsTree (shelved moonShelf) storedLexicon "repo/Linguistics/Lexicon/Lexicon_02.lexdb" := by
  have hfind : (shelved moonShelf).find "repo/Linguistics/Lexicon/Lexicon_02.lexdb" =
      .ok (⟨some 0, ["repo", "Linguistics", "Lexicon", "Lexicon_02.lexdb"]⟩,
        textFile ("<?xml version='1.0'?>\n" ++ storedLexicon.toXmlPretty)) := by with_unfolding_all rfl
  refine ⟨_, Files.Tree.readText_of_find hfind, .inr ?_⟩
  rw [String.toList_append]
  exact (List.suffix_append _ _).isInfix

theorem isReached_moonShelf : IsReached (shelved moonShelf) (searchKey newMoonForm)
    ["repo/Linguistics/Lexicon/Lexicon_01.lexdb", "repo/Linguistics/Lexicon/Lexicon_02.lexdb"]
    "repo/Linguistics/Lexicon/Lexicon_02.lexdb" := by
  have hfind : (shelved moonShelf).find "repo/Linguistics/Lexicon/Lexicon_01.lexdb" =
      .ok (⟨some 0, ["repo", "Linguistics", "Lexicon", "Lexicon_01.lexdb"]⟩, textFile "<Lexicon />") := by
    with_unfolding_all rfl
  exact (IsReached.head ..).cons ⟨_, Files.Tree.readText_of_find hfind, by decide +kernel⟩

theorem lexiconFiles_moonShelf : lexiconFiles (shelved moonShelf) "repo" =
    .ok ["repo/Linguistics/Lexicon/Lexicon_01.lexdb", "repo/Linguistics/Lexicon/Lexicon_02.lexdb"] := by
  obtain ⟨paths, hpaths, hsearches⟩ := exists_searches (Files.Tree.list_of_find (find_shelved moonShelf))
  have hsorted : Searches (lexiconDirectory "repo") (moonShelf.map Prod.fst)
      ["repo/Linguistics/Lexicon/Lexicon_01.lexdb", "repo/Linguistics/Lexicon/Lexicon_02.lexdb"] :=
    ⟨["Lexicon_01.lexdb", "Lexicon_02.lexdb"], by decide, by decide, by decide⟩
  rw [hpaths, hsearches.unique hsorted (.refl _)]

theorem locate_moonShelf : newMoonForm ∈ storedLexicon.elements ∧
    HoldsTree (shelved moonShelf) storedLexicon "repo/Linguistics/Lexicon/Lexicon_02.lexdb" ∧
    (Locator.ofRoot (shelved moonShelf) "repo").locate (searchKey newMoonForm) =
      .ok (some "repo/Linguistics/Lexicon/Lexicon_02.lexdb") := by
  have hentry : (glossedEntry "new moon" "phase").entryForm? = some newMoonForm := rfl
  have hform : newMoonForm ∈ storedLexicon.elements :=
    Node.elements_subset_of_mem (List.mem_cons_of_mem _ List.mem_cons_self) (Node.mem_elements_of_descend? hentry)
  have hkeys := (searchKeys_of_layouts storedLexicon).2 _ hform
  exact ⟨hform, holdsTree_moonShelf,
    (hkeys.2 _ _ holdsTree_moonShelf).2 _ _ lexiconFiles_moonShelf isReached_moonShelf⟩

end LexiconAudit.Repository
