import LexiconAudit.Proofs.Text.Scanning
import LexiconAudit.Proofs.Text.Search
import LexiconAudit.Proofs.Xml.Writable
import Mathlib.Data.Bool.AllAny

/-!
This module contains the runs of the scanner of pieces on tags as they are written: each of them is read as
one piece, and what is behind it is left.
-/

namespace LexiconAudit

namespace Node

/-! Escapes. -/

theorem mem_escapedChar {c d : Char} (h : d ∈ escapedChar c) :
    (d = c ∧ d ≠ '<' ∧ d ≠ '>') ∨ d ∈ "&amp;lt;gt;".toList := by
  unfold escapedChar at h
  split at h
  case h_4 hamp hlt hgt =>
    cases List.mem_singleton.1 h
    exact .inl ⟨rfl, hlt, hgt⟩
  . exact .inr ((show "&amp;".toList ⊆ "&amp;lt;gt;".toList by decide) h)
  . exact .inr ((show "&lt;".toList ⊆ "&amp;lt;gt;".toList by decide) h)
  . exact .inr ((show "&gt;".toList ⊆ "&amp;lt;gt;".toList by decide) h)

theorem mem_escapedQuotedChar {c d : Char} (h : d ∈ escapedQuotedChar c) :
    (d = c ∧ d ≠ '"' ∧ d ≠ '<') ∨ d ∈ "&amp;lt;gt;quot;".toList := by
  unfold escapedQuotedChar at h
  split at h
  . exact .inr ((show "&quot;".toList ⊆ "&amp;lt;gt;quot;".toList by decide) h)
  next hquote =>
  rcases mem_escapedChar h with ⟨rfl, hlt, _⟩ | hmem
  . exact .inl ⟨rfl, hquote, hlt⟩
  . right
    exact List.mem_append_left "quot;".toList hmem

end Node

namespace Xml

theorem WritableText.escaped {text : String} (h : WritableText text) :
    ∀ c ∈ Node.escapedText text, isDocumentChar c = true ∧ c ≠ '<' ∧ c ≠ '>' := by
  have hnames : ∀ d ∈ "&amp;lt;gt;".toList, isDocumentChar d = true ∧ d ≠ '<' ∧ d ≠ '>' :=
    List.all_iff_forall_prop.1 (by decide)
  intro d hd
  obtain ⟨c, hc, hd⟩ := List.mem_flatMap.1 hd
  rcases Node.mem_escapedChar hd with ⟨rfl, hne⟩ | hmem
  . exact ⟨h.document d hc, hne⟩
  . exact hnames d hmem

theorem WritableAttribute.escaped {pair : String × String} (h : WritableAttribute pair) :
    ∀ c ∈ Node.escapedValue pair.2, isDocumentChar c = true ∧ c ≠ '"' ∧ c ≠ '<' := by
  have hnames : ∀ d ∈ "&amp;lt;gt;quot;".toList, isDocumentChar d = true ∧ d ≠ '"' ∧ d ≠ '<' :=
    List.all_iff_forall_prop.1 (by decide)
  intro d hd
  obtain ⟨c, hc, hd⟩ := List.mem_flatMap.1 hd
  rcases Node.mem_escapedQuotedChar hd with ⟨rfl, hne⟩ | hmem
  . exact ⟨h.document d hc, hne⟩
  . exact hnames d hmem

/-! Names. -/

theorem IsNCName.exists_cons {name : String} (h : IsNCName name) :
    ∃ c cs, name.toList = c :: cs ∧ isNameStart c = true ∧ isNameChar c = true := by
  obtain ⟨hplain, hchars⟩ := h
  cases hname : name.toList with
  | nil =>
    rw [hname] at hplain
    cases hplain
  | cons c cs =>
    rw [hname] at hplain hchars
    exact ⟨c, cs, rfl, hplain, (hchars c List.mem_cons_self).1⟩

namespace Scan

open Node (attributeMarkup attributesMarkup escapedValue startTag)
open Reading Text.Scanner

theorem ne_of_isNameChar {c d : Char} (h : isNameChar c = true) (hd : isNameChar d = false) : d ≠ c := by
  rintro rfl
  cases h.symm.trans hd

theorem isSpace_eq_false_of_isNameChar {c : Char} (h : isNameChar c = true) : isSpace c = false := by
  have hspace {d : Char} (hd : isNameChar d = false) : decide (c = d) = false :=
    decide_eq_false (ne_of_isNameChar h hd).symm
  unfold isSpace
  rw [hspace (by decide), hspace (by decide), hspace (by decide), hspace (by decide)]
  rfl

theorem qualified?_toList {name : String} (h : IsNCName name) :
    qualified? name.toList = some ⟨[], name.toList⟩ := by
  have hcolon : Text.breakAt [':'] name.toList = none := by
    rw [Text.breakAt_eq_none_iff]
    intro hmem
    exact (h.2 ':' (hmem.subset List.mem_cons_self)).2 rfl
  unfold qualified?
  rw [hcolon]
  exact if_pos h.1

theorem run_qname {name : String} (h : IsNCName name) {rest : List Char}
    (hrest : ∀ c, rest.head? = some c → isNameChar c = false) :
    qname.run (name.toList ++ rest) = .ok (⟨[], name.toList⟩, rest) := by
  obtain ⟨c, cs, hcons, -, -⟩ := h.exists_cons
  unfold qname
  rw [run_bind_of_run (run_takeWhile1_append (fun c hc => (h.2 c hc).1) hrest (by simp [hcons])),
    qualified?_toList h]
  rfl

theorem run_skipSpaces_cons {c : Char} (h : isSpace c = false) (cs : List Char) :
    skipSpaces.run (c :: cs) = .ok ((), c :: cs) := by
  unfold skipSpaces
  rw [run_bind_of_run (run_takeWhile_of_neg (by simpa using h))]
  rfl

theorem run_skipSpaces_space {c : Char} (h : isSpace c = false) (cs : List Char) :
    skipSpaces.run (' ' :: c :: cs) = .ok ((), c :: cs) := by
  have hspace : (takeWhile isSpace).run ([' '] ++ c :: cs) = .ok ([' '], c :: cs) :=
    run_takeWhile_append (List.forall_mem_singleton.2 rfl) (by simpa using h)
  change skipSpaces.run ([' '] ++ c :: cs) = _
  unfold skipSpaces
  rw [run_bind_of_run hspace]
  rfl

theorem run_quote (cs : List Char) : quote.run ('"' :: cs) = .ok ('"', cs) := rfl

theorem run_assignment {name : String} {value : List Char} (h : IsNCName name)
    (hdocument : ∀ c ∈ value, isDocumentChar c = true) (hplain : ∀ c ∈ value, c ≠ '"' ∧ c ≠ '<')
    (rest : List Char) :
    assignment.run (name.toList ++ '=' :: '"' :: (value ++ '"' :: rest)) =
      .ok ((⟨[], name.toList⟩, value), rest) := by
  have hvalue : (takeWhile fun c => c ≠ '"' && c ≠ '<').run (value ++ '"' :: rest) =
      .ok (value, '"' :: rest) := by
    apply run_takeWhile_append
    . intro c hc
      simp [hplain c hc]
    . simp
  unfold assignment
  rw [run_bind_of_run (run_qname h (by simp; decide)), run_bind_of_run (run_skipSpaces_cons (by decide) _),
    run_bind_of_run (run_expect_cons _ _), run_bind_of_run (run_skipSpaces_cons (by decide) _),
    run_bind_of_run (run_quote _), run_bind_of_run hvalue,
    run_bind_of_run (run_require (List.all_eq_true.2 hdocument) _), run_bind_of_run (run_expect_cons _ _)]
  rfl

/-! Tags. -/

theorem run_tagRound_attribute {name : String} {value : List Char} (h : IsNCName name)
    (hdocument : ∀ c ∈ value, isDocumentChar c = true) (hplain : ∀ c ∈ value, c ≠ '"' ∧ c ≠ '<') (tag : Tag)
    (rest : List Char) :
    (tagRound tag).run (' ' :: (name.toList ++ '=' :: '"' :: (value ++ '"' :: rest))) =
      .ok (.again { tag with attributes := tag.attributes ++ [(⟨[], name.toList⟩, value)] }, rest) := by
  obtain ⟨c, cs, hcons, -, hc⟩ := h.exists_cons
  have hassignment := run_assignment h hdocument hplain rest
  rw [hcons, List.cons_append] at hassignment ⊢
  unfold tagRound
  rw [run_bind_of_run (run_front _)]
  dsimp only [List.head?_cons]
  rw [run_bind_of_run (run_skipSpaces_space (isSpace_eq_false_of_isNameChar hc) _),
    run_bind_of_run (run_front _)]
  dsimp only [List.head?_cons]
  split
  . next heq => cases heq
  . next heq =>
    cases heq
    cases hc
  . next heq =>
    cases heq
    cases hc
  . rw [if_pos (by decide), run_bind_of_run hassignment]
    rfl

theorem run_tagRound_opened (tag : Tag) (rest : List Char) :
    (tagRound tag).run ('>' :: rest) = .ok (.done { tag with ending := .opened }, rest) := rfl

theorem run_tagRound_closed (tag : Tag) (rest : List Char) :
    (tagRound tag).run (' ' :: '/' :: '>' :: rest) = .ok (.done { tag with ending := .closed }, rest) := rfl

def written (attributes : List (String × String)) : List (QName × List Char) :=
  attributes.map fun pair => (⟨[], pair.1.toList⟩, escapedValue pair.2)

theorem attributesMarkup_cons (pair : String × String) (attributes : List (String × String))
    (rest : List Char) : attributesMarkup (pair :: attributes) ++ rest = ' ' :: (pair.1.toList ++
      '=' :: '"' :: (escapedValue pair.2 ++ '"' :: (attributesMarkup attributes ++ rest))) := by
  simp [attributesMarkup, attributeMarkup]

section Tag

variable {attributes : List (String × String)} {ending : TagEnd} {mark rest : List Char}
  (hattributes : ∀ pair ∈ attributes, WritableAttribute pair)
  (hmark : ∀ tag, (tagRound tag).run mark = .ok (.done { tag with ending }, rest))

include hattributes hmark

theorem run_tagRounds (tag : Tag) :
    (Reading.loop tagRound advances_tagRound tag).run (attributesMarkup attributes ++ mark) =
      .ok ({ tag with attributes := tag.attributes ++ written attributes, ending }, rest) := by
  induction attributes generalizing tag with
  | nil =>
    rw [written, List.map_nil, List.append_nil]
    exact run_loop_of_done (hmark tag)
  | cons pair attributes ih =>
    rw [List.forall_mem_cons] at hattributes
    obtain ⟨hpair, hattributes⟩ := hattributes
    rw [attributesMarkup_cons, run_loop_of_again (run_tagRound_attribute hpair.name
      (fun c hc => (hpair.escaped c hc).1) (fun c hc => (hpair.escaped c hc).2) tag _), ih hattributes]
    simp [written]

theorem run_tag {name : String} (hname : IsNCName name)
    (hhead : ∀ c, mark.head? = some c → isNameChar c = false) :
    tag.run (name.toList ++ (attributesMarkup attributes ++ mark)) =
      .ok ({ name := ⟨[], name.toList⟩, attributes := written attributes, ending }, rest) := by
  have hend : ∀ c, (attributesMarkup attributes ++ mark).head? = some c → isNameChar c = false := by
    cases attributes with
    | nil => exact hhead
    | cons pair attributes =>
      rw [attributesMarkup_cons]
      intro c hc
      cases hc
      decide
  unfold tag
  rw [run_bind_of_run (run_qname hname hend), run_tagRounds hattributes hmark]
  rfl

end Tag

theorem run_endTag {name : String} (h : IsNCName name) (rest : List Char) :
    endTag.run (name.toList ++ '>' :: rest) = .ok (⟨[], name.toList⟩, rest) := by
  unfold endTag
  rw [run_bind_of_run (run_qname h (by simp; decide)), run_bind_of_run (run_skipSpaces_cons (by decide) _),
    run_bind_of_run (run_expect_cons _ _)]
  rfl

/-! Pieces. -/

theorem run_piece_tag {c : Char} {cs rest : List Char} {t : Tag} (hc : isNameChar c = true)
    (h : tag.run (c :: cs) = .ok (t, rest)) : piece.run ('<' :: c :: cs) = .ok (.tag t, rest) := by
  have hmark {mark : String} {m : Char} {more : List Char} (hmark : mark.toList = m :: more)
      (hm : isNameChar m = false) : (optional mark).run (c :: cs) = .ok (false, c :: cs) :=
    run_optional_of_ne [] hmark (ne_of_isNameChar hc hm)
  unfold piece
  rw [run_bind_of_run (run_next_cons _ _), if_pos rfl, run_bind_of_run (hmark rfl (by decide)), if_neg (by decide),
    run_bind_of_run (hmark rfl (by decide)), if_neg (by decide), run_bind_of_run (hmark rfl (by decide)),
    if_neg (by decide), run_bind_of_run (hmark rfl (by decide)), if_neg (by decide), run_bind_of_run h]
  rfl

theorem run_piece_endTag {name : String} (h : IsNCName name) (rest : List Char) :
    piece.run ('<' :: '/' :: (name.toList ++ '>' :: rest)) = .ok (.endTag ⟨[], name.toList⟩, rest) := by
  have hmark {mark : String} {m : Char} {more cs : List Char} (hmark : mark.toList = m :: more)
      (hm : m ≠ '/') : (optional mark).run ('/' :: cs) = .ok (false, '/' :: cs) :=
    run_optional_of_ne [] hmark hm
  have hslash (cs : List Char) : (optional "/").run ('/' :: cs) = .ok (true, cs) := rfl
  unfold piece
  rw [run_bind_of_run (run_next_cons _ _), if_pos rfl, run_bind_of_run (hmark rfl (by decide)), if_neg (by decide),
    run_bind_of_run (hmark rfl (by decide)), if_neg (by decide), run_bind_of_run (hmark rfl (by decide)),
    if_neg (by decide), run_bind_of_run (hslash _), if_pos rfl, run_bind_of_run (run_endTag h rest)]
  rfl

theorem run_piece_text {run : List Char} (hne : run ≠ [])
    (h : ∀ c ∈ run, isDocumentChar c = true ∧ c ≠ '<' ∧ c ≠ '>') (rest : List Char) :
    piece.run (run ++ '<' :: rest) = .ok (.text run, '<' :: rest) := by
  obtain ⟨c, cs, rfl⟩ := List.exists_cons_of_ne_nil hne
  have hmarked : Text.occurs [']', ']', '>'] (c :: cs) = false := by
    rw [← Bool.not_eq_true, Text.occurs_iff]
    intro hmem
    exact (h '>' (hmem.subset (by decide))).2.2 rfl
  have hdocument : (c :: cs).all isDocumentChar = true := by
    rw [List.all_eq_true]
    exact fun d hd => (h d hd).1
  have hrun : (takeWhile (· ≠ '<')).run (cs ++ '<' :: rest) = .ok (cs, '<' :: rest) := by
    apply run_takeWhile_append
    . intro d hd
      simpa using (h d (List.mem_cons_of_mem _ hd)).2.1
    . simp
  have htext : (text c).run (cs ++ '<' :: rest) = .ok (c :: cs, '<' :: rest) := by
    unfold text
    rw [run_bind_of_run hrun]
    dsimp only
    rw [run_bind_of_run (run_require (by rw [hdocument, hmarked]; rfl) _)]
    rfl
  unfold piece
  rw [List.cons_append, run_bind_of_run (run_next_cons _ _), if_neg (h c List.mem_cons_self).2.1,
    run_bind_of_run htext]
  rfl

end Scan

end Xml

end LexiconAudit
