import LexiconAudit.Proofs.Xml.Elements
import LexiconAudit.Proofs.Xml.References
import LexiconAudit.Proofs.Xml.Tags

/-!
This module contains the reading of content that was written from a tree: in both layouts, every element adds
its normal form to the element around it.
-/

namespace LexiconAudit.Xml

open Node (Layout attributesMarkup endTag escapedChar escapedText escapedValue leafMarkup markup markups startTag)
open Scan (written)

def gap (layout : Layout) (level : Nat) : List Char :=
  layout.lineEnd ++ layout.indent level

def element (layout : Layout) (level : Nat) (node : Node) : List Char :=
  if node.children.isEmpty then
    leafMarkup node.name node.attributes node.text
  else
    startTag node.name node.attributes ++ markups layout (level + 1) node.children ++ gap layout level
      ++ endTag node.name

theorem markup_eq (layout : Layout) (level : Nat) (node : Node) :
    markup layout level node = layout.indent level ++ element layout level node := by
  cases node
  simp only [markup, element, gap, List.append_assoc]

theorem markups_cons (layout : Layout) (level : Nat) (node : Node) (nodes : List Node) :
    markups layout level (node :: nodes) =
      gap layout level ++ (element layout level node ++ markups layout level nodes) := by
  simp only [markups, markup_eq, gap, List.append_assoc]

theorem mem_gap {layout : Layout} {level : Nat} {c : Char} (h : c ∈ gap layout level) : c = ' ' ∨ c = '\n' := by
  cases layout with
  | compact => cases h
  | indented =>
    rcases List.mem_cons.1 h with rfl | h
    . exact .inr rfl
    . exact .inl (List.eq_of_mem_replicate h)

theorem writableText_gap (layout : Layout) (level : Nat) :
    WritableText (String.ofList (gap layout level)) where
  document c hc := by
    rw [String.toList_ofList] at hc
    rcases mem_gap hc with rfl | rfl <;> rfl
  plain c hc := by
    rw [String.toList_ofList] at hc
    rcases mem_gap hc with rfl | rfl <;> decide

theorem escapedText_gap (layout : Layout) (level : Nat) :
    escapedText (String.ofList (gap layout level)) = gap layout level := by
  have hself : ∀ c ∈ gap layout level, escapedChar c = [c] := by
    intro c hc
    rcases mem_gap hc with rfl | rfl <;> rfl
  rw [escapedText, String.toList_ofList, List.flatMap_congr hself, List.flatMap_singleton']

section Content

variable {text : Building → List Char → Option Building}
  {value : (references : Nat) → List Char → Option (List Char × Nat)}

theorem foldlM_addAttribute? (hvalue : ∀ references pair, WritableAttribute pair →
      value references (escapedValue pair.2) = some (pair.2.toList, references))
    {attributes : List (String × String)} (h : ∀ pair ∈ attributes, WritableAttribute pair) (b : Building) :
    (written attributes).foldlM (fun b (name, written) => do
      let (value, references) ← value b.references written
      { b with references }.addAttribute? name value) b =
        some { b with attributes := b.attributes ++ resolved attributes } := by
  induction attributes generalizing b with
  | nil =>
    rw [resolved, List.map_nil, List.append_nil]
    rfl
  | cons pair attributes ih =>
    rw [List.forall_mem_cons] at h
    rw [written, List.map_cons, List.foldlM_cons, ← written]
    dsimp only
    rw [hvalue b.references pair h.1]
    change (b.addAttribute? ⟨[], pair.1.toList⟩ pair.2.toList >>= _) = _
    rw [addAttribute?_of_plain b h.1]
    change List.foldlM _ _ (written attributes) = _
    rw [ih h.2]
    simp [resolved]

theorem openTag?_written (hvalue : ∀ references pair, WritableAttribute pair →
      value references (escapedValue pair.2) = some (pair.2.toList, references))
    {stack : List OpenElement} {node : Node} (h : ∀ pair ∈ node.attributes, WritableAttribute pair)
    (ending : TagEnd) {b : Building} (hb : { b with tagSeen := true } = within stack) :
    openTag? value b { name := ⟨[], node.name.toList⟩, attributes := written node.attributes, ending } =
      { within stack with attributes := resolved node.attributes }.openElement? ⟨[], node.name.toList⟩ ending := by
  unfold openTag?
  rw [if_neg (by simp)]
  dsimp only
  rw [hb, foldlM_addAttribute? hvalue h]
  rfl

variable (text value)

def resume (depth : Nat) (b : Building) (rest : List Char) : Option (Building × List Char) :=
  match depth with
  | 0 => some (b, rest)
  | depth + 1 => contentWith text value depth b rest

theorem contentWith_text {b : Building} {c : Char} {cs run rest : List Char} (depth : Nat)
    (h : Scan.piece.run (c :: cs) = .ok (.text run, rest)) :
    contentWith text value depth b (c :: cs) =
      (text b run).bind fun b => contentWith text value depth b rest := by
  rw [contentWith]
  split
  . next heq => cases heq.symm.trans h
  . next heq =>
    cases heq.symm.trans h
    rfl

theorem contentWith_tag {b : Building} {c : Char} {cs rest : List Char} {tag : Tag} (depth : Nat)
    (h : Scan.piece.run (c :: cs) = .ok (.tag tag, rest)) :
    contentWith text value depth b (c :: cs) = (openTag? value b tag).bind fun b =>
      contentWith text value (if tag.ending = .opened then depth + 1 else depth) b rest := by
  rw [contentWith]
  split
  . next heq => cases heq.symm.trans h
  . next heq =>
    cases heq.symm.trans h
    rfl

theorem contentWith_endTag {b : Building} {c : Char} {cs rest : List Char} {name : QName} (depth : Nat)
    (h : Scan.piece.run (c :: cs) = .ok (.endTag name, rest)) :
    contentWith text value depth b (c :: cs) =
      (b.closeElement? name).bind fun b => resume text value depth b rest := by
  rw [contentWith]
  split
  . next heq => cases heq.symm.trans h
  . next heq =>
    cases heq.symm.trans h
    rfl

variable {text value}

section Written

variable (htext : ∀ b s, WritableText s → text b (escapedText s) = some (b.addText s.toList))
  (hvalue : ∀ references pair, WritableAttribute pair →
    value references (escapedValue pair.2) = some (pair.2.toList, references))

include htext in
theorem contentWith_escapedText {s : String} (h : WritableText s) (depth : Nat) (e : OpenElement)
    (stack : List OpenElement) (rest : List Char) :
    contentWith text value depth (within (e :: stack)) (escapedText s ++ '<' :: rest) =
      contentWith text value depth (within ({ e with text := e.text ++ s.toList } :: stack)) ('<' :: rest) := by
  by_cases hempty : escapedText s = []
  . have hnil : s.toList = [] := by
      rw [escapedText, List.flatMap_eq_nil_iff] at hempty
      apply List.eq_nil_iff_forall_not_mem.2
      intro c hc
      have hescaped := hempty c hc
      rcases escapedChar_cases c with ⟨hself, -⟩ | ⟨body, hbody, -⟩
      . cases hself.symm.trans hescaped
      . cases hbody.symm.trans hescaped
    rw [hempty, hnil, List.nil_append, List.append_nil]
  . obtain ⟨c, cs, hcons⟩ := List.exists_cons_of_ne_nil hempty
    have hpiece := Scan.run_piece_text hempty h.escaped rest
    rw [hcons, List.cons_append] at hpiece ⊢
    rw [contentWith_text text value depth hpiece, ← hcons, htext _ _ h]
    rfl

include htext in
theorem contentWith_gap (layout : Layout) (level depth : Nat) (e : OpenElement) (stack : List OpenElement)
    (rest : List Char) :
    contentWith text value depth (within (e :: stack)) (gap layout level ++ '<' :: rest) =
      contentWith text value depth (within ({ e with text := e.text ++ gap layout level } :: stack))
        ('<' :: rest) := by
  have hescaped : contentWith text value depth (within (e :: stack))
      (escapedText (String.ofList (gap layout level)) ++ '<' :: rest) = _ :=
    contentWith_escapedText htext (writableText_gap layout level) depth e stack rest
  rwa [escapedText_gap, String.toList_ofList] at hescaped

section Tags

variable {node : Node} {stack : List OpenElement} (hname : IsNCName node.name)
  (hattributes : ∀ pair ∈ node.attributes, WritableAttribute pair)
  (hnodup : (node.attributes.map Prod.fst).Nodup) (hstack : ∀ e ∈ stack, e.scope = [])

include hvalue hname hattributes

theorem contentWith_written {ending : TagEnd} {mark rest : List Char}
    (hmark : ∀ tag, (Scan.tagRound tag).run mark = .ok (.done { tag with ending }, rest))
    (hhead : ∀ c, mark.head? = some c → isNameChar c = false) (depth : Nat) :
    contentWith text value depth (within stack)
      ('<' :: (node.name.toList ++ (attributesMarkup node.attributes ++ mark))) =
        ({ within stack with attributes := resolved node.attributes }.openElement? ⟨[], node.name.toList⟩
          ending).bind fun b =>
            contentWith text value (if ending = TagEnd.opened then depth + 1 else depth) b rest := by
  obtain ⟨c, cs, hcons, -, hc⟩ := hname.exists_cons
  have htag := Scan.run_tag hattributes hmark hname hhead
  have hpiece := htag
  rw [hcons, List.cons_append] at hpiece ⊢
  rw [contentWith_tag text value depth (Scan.run_piece_tag hc hpiece), ← hcons,
    openTag?_written hvalue hattributes ending rfl]
  rfl

include hnodup hstack

theorem contentWith_startTag (depth : Nat) (rest : List Char) :
    contentWith text value depth (within stack) (startTag node.name node.attributes ++ rest) =
      contentWith text value (depth + 1) (within (opened node :: stack)) rest := by
  have htag : startTag node.name node.attributes ++ rest =
      '<' :: (node.name.toList ++ (attributesMarkup node.attributes ++ '>' :: rest)) := by simp [startTag]
  rw [htag, contentWith_written hvalue hname hattributes (Scan.run_tagRound_opened · rest) (by simp; decide),
    openElement?_opened hstack hnodup]
  rfl

theorem contentWith_emptyTag (depth : Nat) (rest : List Char) :
    contentWith text value depth (within stack) (leafMarkup node.name node.attributes none ++ rest) =
      contentWith text value depth ((within stack).addNode (opened node).toNode) rest := by
  have htag : leafMarkup node.name node.attributes none ++ rest =
      '<' :: (node.name.toList ++ (attributesMarkup node.attributes ++ ' ' :: '/' :: '>' :: rest)) := by
    simp [leafMarkup]
  rw [htag, contentWith_written hvalue hname hattributes (Scan.run_tagRound_closed · rest) (by simp; decide),
    openElement?_closed hstack hnodup]
  rfl

end Tags

theorem contentWith_endTag_of_opened {e : OpenElement} {name : String} {stack : List OpenElement}
    (hname : IsNCName name) (he : e.name = ⟨[], name.toList⟩) (hscope : e.scope = [])
    (hstack : ∀ f ∈ stack, f.scope = []) (depth : Nat) (rest : List Char) :
    contentWith text value depth (within (e :: stack)) (endTag name ++ rest) =
      resume text value depth ((within stack).addNode e.toNode) rest := by
  have hpiece := Scan.run_piece_endTag hname rest
  have hendTag : endTag name ++ rest = '<' :: '/' :: (name.toList ++ '>' :: rest) := by simp [endTag]
  rw [hendTag, contentWith_endTag text value depth hpiece, ← he, closeElement?_within hstack hscope]
  rfl

/-! Elements. -/

variable (text value) in
/--
Reading an element at this level of a layout adds it to the element around it, and leaves what is behind it.
-/
def Read (layout : Layout) (level : Nat) (node : Node) : Prop :=
  ∀ (depth : Nat) (e : OpenElement) (stack : List OpenElement) (rest : List Char),
    e.scope = [] → (∀ f ∈ stack, f.scope = []) →
      contentWith text value depth (within (e :: stack)) (element layout level node ++ rest) =
        contentWith text value depth
          (within ({ e with children := e.children ++ [node.normal] } :: stack)) rest

theorem exists_element_eq_cons (layout : Layout) (level : Nat) (node : Node) :
    ∃ cs, element layout level node = '<' :: (node.name.toList ++ cs) := by
  unfold element leafMarkup
  split
  . split
    . exact ⟨_, by simp; rfl⟩
    . exact ⟨_, by simp [startTag]; rfl⟩
  . exact ⟨_, by simp [startTag]; rfl⟩

include htext in
theorem contentWith_markups {layout : Layout} {level : Nat} {nodes : List Node}
    (h : ∀ node ∈ nodes, Read text value layout level node) (depth : Nat) (e : OpenElement)
    (stack : List OpenElement) (hscope : e.scope = []) (hstack : ∀ f ∈ stack, f.scope = []) (rest : List Char) :
    ∃ between, contentWith text value depth (within (e :: stack)) (markups layout level nodes ++ rest) =
      contentWith text value depth
        (within ({ e with text := between, children := e.children ++ nodes.map Node.normal } :: stack)) rest := by
  induction nodes generalizing e with
  | nil => exact ⟨e.text, by rw [markups, List.map_nil, List.append_nil, List.nil_append]⟩
  | cons node nodes ih =>
    rw [List.forall_mem_cons] at h
    -- the gap before the element goes into the text, the element behind the children
    obtain ⟨cs, hcons⟩ := exists_element_eq_cons layout level node
    have helement := h.1 depth { e with text := e.text ++ gap layout level } stack
      (markups layout level nodes ++ rest) hscope hstack
    obtain ⟨between, hmarkups⟩ := ih h.2
      { e with text := e.text ++ gap layout level, children := e.children ++ [node.normal] } hscope
    refine ⟨between, ?_⟩
    rw [markups_cons, List.append_assoc, List.append_assoc, hcons, List.cons_append, contentWith_gap htext,
      ← List.cons_append, ← hcons, helement, hmarkups, List.map_cons, List.append_assoc]
    rfl

def inner (layout : Layout) (level : Nat) (node : Node) : List Char :=
  if node.children.isEmpty then
    escapedText (node.text.getD "")
  else
    markups layout (level + 1) node.children ++ gap layout level

theorem element_eq {node : Node} (h : node.text.isSome ∨ node.children ≠ []) (layout : Layout) (level : Nat) :
    element layout level node =
      startTag node.name node.attributes ++ (inner layout level node ++ endTag node.name) := by
  unfold element inner
  split
  . next hempty =>
    obtain ⟨s, hs⟩ := Option.isSome_iff_exists.1 (h.resolve_right (not_not_intro (List.isEmpty_iff.1 hempty)))
    simp [hs, leafMarkup]
  . simp

include htext in
theorem contentWith_inner {layout : Layout} {level : Nat} {node : Node} (hname : IsNCName node.name)
    (hchildren : node.children ≠ [] → node.text = none) (htexts : ∀ s, node.text = some s → WritableText s)
    (h : ∀ child ∈ node.children, Read text value layout (level + 1) child)
    (depth : Nat) {stack : List OpenElement} (hstack : ∀ f ∈ stack, f.scope = []) (rest : List Char) :
    contentWith text value depth (within (opened node :: stack))
      (inner layout level node ++ (endTag node.name ++ rest)) =
        resume text value depth ((within stack).addNode node.normal) rest := by
  have hend (e : OpenElement) (he : e.name = ⟨[], node.name.toList⟩) (hscope : e.scope = []) :
      contentWith text value depth (within (e :: stack)) (endTag node.name ++ rest) = _ :=
    contentWith_endTag_of_opened hname he hscope hstack depth rest
  have hcons : endTag node.name ++ rest = '<' :: '/' :: (node.name.toList ++ '>' :: rest) := by simp [endTag]
  unfold inner
  split
  . next hempty =>
    have hwritable : WritableText (node.text.getD "") := by
      cases hs : node.text with
      | none => exact ⟨nofun, nofun⟩
      | some s => exact htexts s hs
    rw [hcons, contentWith_escapedText htext hwritable, ← hcons, hend _ rfl rfl]
    rw [← toNode_opened_text (List.isEmpty_iff.1 hempty)]
    rfl
  . next hne =>
    have hne : node.children ≠ [] := by simpa using hne
    obtain ⟨between, hmarkups⟩ := contentWith_markups htext h depth (opened node) stack rfl hstack
      (gap layout level ++ (endTag node.name ++ rest))
    rw [List.append_assoc, hmarkups, hcons, contentWith_gap htext, ← hcons, hend _ rfl rfl]
    rw [← toNode_opened_children hne (hchildren hne) (between ++ gap layout level)]
    rfl

include htext hvalue in
theorem Writable.read {node : Node} (h : Writable node) (layout : Layout) (level : Nat) :
    Read text value layout level node := by
  induction h generalizing level with
  | @mk node hname hattributes hnodup hchildren htexts _ ih =>
    intro depth e stack rest hscope hstack
    have hstack' : ∀ f ∈ e :: stack, f.scope = [] := List.forall_mem_cons.2 ⟨hscope, hstack⟩
    -- an element with neither a text nor children is written as one empty tag
    by_cases hfull : node.text.isSome ∨ node.children ≠ []
    . rw [element_eq hfull, List.append_assoc, List.append_assoc,
        contentWith_startTag hvalue hname hattributes hnodup hstack',
        contentWith_inner htext hname hchildren htexts (fun child hmem => ih child hmem (level + 1)) (depth + 1)
          hstack']
      rfl
    . rw [not_or, Option.isSome_iff_ne_none, not_not, not_not] at hfull
      have hempty : element layout level node = leafMarkup node.name node.attributes none := by
        rw [element, if_pos (List.isEmpty_iff.2 hfull.2), hfull.1]
      rw [hempty, contentWith_emptyTag hvalue hname hattributes hnodup hstack', ← toNode_opened_text hfull.2,
        hfull.1]
      rfl

end Written

end Content

end LexiconAudit.Xml
