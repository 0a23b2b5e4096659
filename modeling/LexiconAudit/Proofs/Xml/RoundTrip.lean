import LexiconAudit.Proofs.Xml.Content
import LexiconAudit.Xml.Document

/-!
This module contains the reading of documents that were written from a tree: in both layouts, what is read
is the tree in its normal form.
-/

namespace LexiconAudit.Xml

open Node (Layout attributesMarkup endTag escapedText escapedValue leafMarkup markup startTag)
open Scan (written)

/-! What is before and behind the root element. -/

namespace Scan

open Reading Text.Scanner

theorem run_asides_nil : asides.run [] = .ok ((), []) :=
  run_loop_of_done rfl

section Start

variable {c : Char} (hc : isNameChar c = true) (cs : List Char)

include hc

theorem run_startsWith_tag {mark : String} {m : Char} {more : List Char} (h : mark.toList = '<' :: m :: more)
    (hm : isNameChar m = false) : (startsWith mark).run ('<' :: c :: cs) = .ok (false, '<' :: c :: cs) :=
  run_startsWith_of_ne ['<'] h (ne_of_isNameChar hc hm)

theorem run_asides_tag : asides.run ('<' :: c :: cs) = .ok ((), '<' :: c :: cs) := by
  apply run_loop_of_done
  unfold asideRound
  rw [run_bind_of_run (run_skipSpaces_cons (by decide) _), run_bind_of_run (run_front _), List.head?_cons]
  split
  . rw [run_bind_of_run (run_startsWith_tag hc cs rfl (by decide)), if_neg (by decide),
      run_bind_of_run (run_startsWith_tag hc cs rfl (by decide)), if_neg (by decide)]
    rfl
  . next hne => exact absurd rfl hne

theorem run_declaration_tag : declaration.run ('<' :: c :: cs) = .ok ((), '<' :: c :: cs) := by
  unfold declaration
  rw [run_bind_of_run (run_startsWith_tag hc cs rfl (by decide)), if_neg (by decide)]
  rfl

theorem run_documentType_tag : documentType.run ('<' :: c :: cs) = .ok ([], '<' :: c :: cs) := by
  have hmark : (optional "<!DOCTYPE").run ('<' :: c :: cs) = .ok (false, '<' :: c :: cs) :=
    run_optional_of_ne ['<'] rfl (ne_of_isNameChar hc (by decide))
  unfold documentType
  rw [run_bind_of_run hmark, if_neg (by decide)]
  rfl

theorem run_prolog_tag : prolog.run ('<' :: c :: cs) = .ok ([], '<' :: c :: cs) := by
  have hmark : (optional "\uFEFF").run ('<' :: c :: cs) = .ok (false, '<' :: c :: cs) :=
    run_optional_of_ne [] rfl (by decide)
  unfold prolog
  rw [run_bind_of_run hmark, run_bind_of_run (run_declaration_tag hc cs), run_bind_of_run (run_asides_tag hc cs),
    run_bind_of_run (run_documentType_tag hc cs), run_bind_of_run (run_asides_tag hc cs)]
  rfl

end Start

end Scan

/-! Documents. -/

theorem root_eq (entities : Entities) {node : Node} (hname : IsNCName node.name)
    (hattributes : ∀ pair ∈ node.attributes, WritableAttribute pair) {ending : TagEnd} {mark rest : List Char}
    (hmark : ∀ tag, (Scan.tagRound tag).run mark = .ok (.done { tag with ending }, rest))
    (hhead : ∀ c, mark.head? = some c → isNameChar c = false) :
    root entities (node.name.toList ++ (attributesMarkup node.attributes ++ mark)) =
      ({ within [] with attributes := resolved node.attributes }.openElement? ⟨[], node.name.toList⟩
        ending).bind fun b =>
          if ending = TagEnd.opened then content entities maxNesting b rest else some (b, rest) := by
  have hvalue (references : Nat) (pair : String × String) (h : WritableAttribute pair) :=
    value_escapedValue entities references h
  unfold root
  rw [Scan.run_tag hattributes hmark hname hhead]
  dsimp only
  rw [openTag?_written (b := {}) hvalue hattributes ending rfl]
  rfl

section Document

variable {node : Node} (h : Writable node) (layout : Layout)

include h

theorem content_inner (entities : Entities) :
    content entities maxNesting (within [opened node]) (inner layout 0 node ++ endTag node.name) =
      some ((within []).addNode node.normal, []) := by
  have htext (expand : Building → List Char → Option Building) (b : Building) (s : String)
      (hs : WritableText s) :
      textWith entities expand false b [] false (escapedText s) = some (b.addText s.toList) :=
    textWith_escapedText entities expand b hs
  have hvalue (references : Nat) (pair : String × String) (hpair : WritableAttribute pair) :=
    value_escapedValue entities references hpair
  cases h with
  | mk hname hattributes hnodup hchildren htexts hall =>
  have hinner := contentWith_inner (htext fun b body => (content entities 9 b body).map Prod.fst) hname hchildren
    htexts (fun child hchild => (hall child hchild).read (htext _) hvalue layout 1) 0
    (List.forall_mem_nil fun f : OpenElement => f.scope = []) []
  rw [List.append_nil] at hinner
  exact hinner

theorem root_written (entities : Entities) {cs : List Char} (hcs : element layout 0 node = '<' :: cs) :
    root entities cs = some ((within []).addNode node.normal, []) := by
  have hcontent := content_inner h layout entities
  cases h with
  | mk hname hattributes hnodup hchildren htexts hall =>
  by_cases hfull : node.text.isSome ∨ node.children ≠ []
  . have hcs' : cs = node.name.toList ++ (attributesMarkup node.attributes ++
        '>' :: (inner layout 0 node ++ endTag node.name)) := by
      rw [element_eq hfull, startTag] at hcs
      simpa using hcs.symm
    rw [hcs', root_eq entities hname hattributes (Scan.run_tagRound_opened · _) (by simp; decide),
      openElement?_opened (List.forall_mem_nil _) hnodup]
    exact hcontent
  . rw [not_or, Option.isSome_iff_ne_none, not_not, not_not] at hfull
    have hcs' : cs = node.name.toList ++ (attributesMarkup node.attributes ++ ' ' :: '/' :: '>' :: []) := by
      rw [element, if_pos (List.isEmpty_iff.2 hfull.2), hfull.1, leafMarkup] at hcs
      simpa using hcs.symm
    rw [hcs', root_eq entities hname hattributes (Scan.run_tagRound_closed · _) (by simp; decide),
      openElement?_closed (List.forall_mem_nil _) hnodup, ← toNode_opened_text hfull.2, hfull.1]
    rfl

theorem parse_markup : parse (String.ofList (markup layout 0 node)) = some node.normal := by
  have hname : IsNCName node.name := by
    cases h
    assumption
  have hindent : layout.indent 0 = [] := by cases layout <;> rfl
  have hend : (do Scan.asides; Text.Scanner.finish : Text.Scanner Unit).run [] = .ok ((), []) := by
    rw [Reading.run_bind_of_run Scan.run_asides_nil]
    rfl
  obtain ⟨cs, hcs⟩ := exists_element_eq_cons layout 0 node
  obtain ⟨c, _, hcons, -, hc⟩ := hname.exists_cons
  have hroot := root_written h layout [] hcs
  rw [hcons, List.cons_append] at hcs hroot
  unfold parse
  rw [String.toList_ofList, markup_eq, hindent, hcs, List.nil_append, Scan.run_prolog_tag hc]
  simp only [hroot, hend]
  rfl

end Document

/--
Both layouts of a tree are read as its normal form.
-/
theorem parse_written {node : Node} (h : Writable node) :
    parse node.toXml = some node.normal ∧ parse node.toXmlPretty = some node.normal :=
  ⟨parse_markup h .compact, parse_markup h .indented⟩

def escapedTree : Node where
  name := "notes"
  attributes := [("class", "\"question\" & <answer>")]
  children := [.leaf "message" "1 < 2 & 3 > 2", .leaf "Gloss" " \n", { name := "Senses" }]

theorem parse_escapedTree : Writable escapedTree ∧
    parse escapedTree.toXml = some escapedTree.normal ∧ parse escapedTree.toXmlPretty = some escapedTree.normal ∧
      escapedTree.normal.children.map Node.text = [some "1 < 2 & 3 > 2", some "", some ""] := by
  have hwritable : Writable escapedTree := by decide +kernel
  obtain ⟨hcompact, hpretty⟩ := parse_written hwritable
  exact ⟨hwritable, hcompact, hpretty, by decide⟩

end LexiconAudit.Xml
