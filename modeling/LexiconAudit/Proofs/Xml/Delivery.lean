import LexiconAudit.Proofs.Reading
import LexiconAudit.Proofs.Xml.Loading
import LexiconAudit.Xml.Document

/-!
This module contains the tags that a document delivers, with the entities that it refers to put in the place of the
references. The tree that is read from a document has an element for each of them, in the same order, and all its
elements are well shaped.
-/

namespace LexiconAudit.Xml

/-! The names of elements. -/

namespace Scan

theorem base_ne_nil_of_qualified? {run : List Char} {name : QName} (h : qualified? run = some name) :
    name.base ≠ [] := by
  have hplain : isPlainName name.base = true := by
    unfold qualified? at h
    split at h
    . split at h
      . next hrun =>
        cases h
        exact hrun
      . cases h
    . split at h
      . cases h
      . next hbase =>
        cases h
        simp only [Bool.or_eq_true, not_or, Bool.not_eq_true', Bool.not_eq_false] at hbase
        exact hbase.1.2
  intro hnil
  rw [hnil] at hplain
  cases hplain

theorem answers_qname : qname.Answers fun name => name.base ≠ [] := by
  refine .bind (.trivial _) fun run _ => ?_
  split
  . next h => exact .pure (base_ne_nil_of_qualified? h)
  . exact .fail _

theorem answers_tag : tag.Answers fun tag => tag.name.base ≠ [] := by
  refine answers_qname.bind fun name hname => .loop (fun tag htag => ?_) hname
  refine .bind (.trivial _) fun c _ => ?_
  split
  . exact .pure htag
  . refine .bind (.trivial _) fun _ _ => .bind (.trivial _) fun d _ => ?_
    split
    . exact .fail _
    . exact .bind (.trivial _) fun _ _ => .pure htag
    . exact .bind (.trivial _) fun _ _ => .pure htag
    . split
      . exact .bind (.trivial _) fun _ _ => .pure htag
      . exact .fail _

theorem answers_piece : piece.Answers fun
    | .tag tag => tag.name.base ≠ []
    | _ => True := by
  refine .bind (.trivial _) fun c _ => ?_
  split
  . refine .bind (.trivial _) fun found _ => ?_
    split
    . exact .bind (.trivial _) fun _ _ => .pure trivial
    refine .bind (.trivial _) fun found _ => ?_
    split
    . exact .bind (.trivial _) fun _ _ => .pure trivial
    refine .bind (.trivial _) fun found _ => ?_
    split
    . exact .bind (.trivial _) fun _ _ => .pure trivial
    refine .bind (.trivial _) fun found _ => ?_
    split
    . exact .bind (.trivial _) fun _ _ => .pure trivial
    . exact .bind answers_tag fun _ htag => .pure htag
  . exact .bind (.trivial _) fun _ _ => .pure trivial

end Scan

/-! The tags that are delivered. -/

def QName.Declares (name : QName) : Prop :=
  name.qualifier = "xmlns".toList ∨ name.base = "xmlns".toList

instance : DecidablePred QName.Declares := fun _ =>
  inferInstanceAs (Decidable (_ ∨ _))

/--
A value is written like this, where at most `level` entities may be resolved inside each other.
-/
def HasValue (entities : Entities) (level : Nat) (written value : List Char) : Prop :=
  ∃ references references', Xml.value entities level references written = some (value, references')

/--
What is written as `written` gives these attributes: all but those that declare namespaces.
-/
def Gives (entities : Entities) (level : Nat) (written given : Attributes) : Prop :=
  List.Forall₂ (fun pair pair' => pair.1 = pair'.1 ∧ HasValue entities level pair.2 pair'.2)
    (written.filter fun pair => ¬pair.1.Declares) given

mutual

/--
Inside `depth` elements that are opened here, content delivers these tags, those of an entity where it is referred to;
at most `level` entities may be resolved inside each other. A tag that the end of an entity cuts short leaves its
attributes to the next tag: `pending` are those that are there at the start, `left` those that are there at the end.
-/
inductive Delivers (entities : Entities) :
    (level depth : Nat) → (pending : Attributes) → List Char → List Start → (left : Attributes) → Prop where
  | nil {level depth : Nat} {pending : Attributes} : Delivers entities level depth pending [] [] pending
  | aside {level depth : Nat} {pending left : Attributes} {cs rest : List Char} {starts : List Start} :
    Scan.piece.run cs = .ok (.aside, rest) → Delivers entities level depth pending rest starts left →
    Delivers entities level depth pending cs starts left
  | marked {level depth : Nat} {pending left : Attributes} {cs run rest : List Char} {starts : List Start} :
    Scan.piece.run cs = .ok (.marked run, rest) → Delivers entities level depth pending rest starts left →
    Delivers entities level depth pending cs starts left
  | text {level depth : Nat} {pending between left : Attributes} {cs run rest : List Char} {starts more : List Start} :
    Scan.piece.run cs = .ok (.text run, rest) → DeliversText entities level pending run starts between →
    Delivers entities level depth between rest more left →
    Delivers entities level depth pending cs (starts ++ more) left
  | cut {level depth : Nat} {pending given left : Attributes} {cs rest : List Char} {tag : Tag} {starts : List Start} :
    Scan.piece.run cs = .ok (.tag tag, rest) → tag.ending = .cut → Gives entities level tag.attributes given →
    Delivers entities level depth (pending ++ given) rest starts left →
    Delivers entities level depth pending cs starts left
  | tag {level depth : Nat} {pending given left : Attributes} {cs rest : List Char} {tag : Tag} {starts : List Start} :
    Scan.piece.run cs = .ok (.tag tag, rest) → tag.ending ≠ .cut → Gives entities level tag.attributes given →
    Delivers entities level (if tag.ending = .opened then depth + 1 else depth) [] rest starts left →
    Delivers entities level depth pending cs (⟨tag.name, pending ++ given⟩ :: starts) left
  | endTag {level depth : Nat} {pending left : Attributes} {cs rest : List Char} {name : QName} {starts : List Start} :
    Scan.piece.run cs = .ok (.endTag name, rest) → Delivers entities level depth [] rest starts left →
    Delivers entities level (depth + 1) pending cs starts left
  /-- The element around the content is closed, and nothing behind is read. -/
  | close {level : Nat} {pending : Attributes} {cs rest : List Char} {name : QName} :
    Scan.piece.run cs = .ok (.endTag name, rest) → Delivers entities level 0 pending cs [] []

inductive DeliversText (entities : Entities) :
    (level : Nat) → (pending : Attributes) → List Char → List Start → (left : Attributes) → Prop where
  | nil {level : Nat} {pending : Attributes} : DeliversText entities level pending [] [] pending
  | plain {level : Nat} {pending left : Attributes} {c : Char} {cs : List Char} {starts : List Start} : c ≠ '&' →
    DeliversText entities level pending cs starts left → DeliversText entities level pending (c :: cs) starts left
  | char {level : Nat} {pending left : Attributes} {c : Char} {cs rest : List Char} {starts : List Start} :
    Scan.reference.run cs = .ok (.char c, rest) → DeliversText entities level pending rest starts left →
    DeliversText entities level pending ('&' :: cs) starts left
  | entity {level : Nat} {pending between left : Attributes} {cs name body rest : List Char}
    {starts more : List Start} :
    Scan.reference.run cs = .ok (.entity name, rest) → entities.lookup name = some body →
    Delivers entities level 0 pending body starts between →
    DeliversText entities (level + 1) between rest more left →
    DeliversText entities (level + 1) pending ('&' :: cs) (starts ++ more) left

end

/--
A root element, behind the first character of its tag, delivers this tag, and the tags in its content.
-/
inductive DeliversRoot (entities : Entities) (cs : List Char) : List Start → Prop where
  | closed {rest : List Char} {tag : Tag} {given : Attributes} : Scan.tag.run cs = .ok (tag, rest) →
    tag.ending = .closed → Gives entities maxNesting tag.attributes given →
    DeliversRoot entities cs [⟨tag.name, given⟩]
  | opened {rest : List Char} {tag : Tag} {given left : Attributes} {starts : List Start} :
    Scan.tag.run cs = .ok (tag, rest) → tag.ending = .opened → Gives entities maxNesting tag.attributes given →
    Delivers entities maxNesting 0 [] rest starts left → DeliversRoot entities cs (⟨tag.name, given⟩ :: starts)

/--
A document delivers the tags of its root element, with the entities that it declares.
-/
def DeliversDocument (text : String) (starts : List Start) : Prop :=
  ∃ entities cs, Scan.prolog.run text.toList = .ok (entities, '<' :: cs) ∧ DeliversRoot entities cs starts

/--
A tag opens an element of its name, whose attributes have their names without qualifiers: each name is there once, at
the place of its first attribute, with the value of its last.
-/
structure Start.Opens (start : Start) (element : Node) : Prop where
  name_eq : element.name = String.ofList start.name.base
  attributes_latest : Keyed.IsLatest
    (start.attributes.map fun given => (String.ofList given.1.base, String.ofList given.2)) element.attributes

/-! What is read. -/

namespace Building

variable {b b' : Building}

theorem addAttribute?_eq_some {name : QName} {value : List Char} (h : b.addAttribute? name value = some b') :
    b'.roots = b.roots ∧ b'.stack = b.stack ∧
      b'.attributes = b.attributes ++ if name.Declares then [] else [(name, value)] := by
  unfold addAttribute? at h
  split at h
  . next hqualifier =>
    rw [if_pos (.inl hqualifier), List.append_nil]
    dsimp only at h
    split at h
    . cases h
    . split at h <;> cases h <;> exact ⟨rfl, rfl, rfl⟩
  . next hqualifier =>
    split at h
    . next hbase =>
      rw [if_pos (.inr hbase), List.append_nil]
      split at h <;> cases h
      exact ⟨rfl, rfl, rfl⟩
    . next hbase =>
      have hplain : ¬name.Declares := not_or.2 ⟨hqualifier, hbase⟩
      rw [if_neg hplain]
      cases h
      exact ⟨rfl, rfl, rfl⟩

end Building

section Content

variable {entities : Entities} {level : Nat} {text : Building → List Char → Option Building}
  {value : (references : Nat) → List Char → Option (List Char × Nat)}

def ReadsValues (entities : Entities) (level : Nat)
    (value : (references : Nat) → List Char → Option (List Char × Nat)) : Prop :=
  ∀ ⦃references written found references'⦄, value references written = some (found, references') →
    HasValue entities level written found

theorem exists_gives (hvalue : ReadsValues entities level value) {attributes : Attributes} {b b' : Building}
    (h : attributes.foldlM (fun b (name, written) => do
      let (value, references) ← value b.references written
      { b with references }.addAttribute? name value) b = some b') :
    ∃ given, Gives entities level attributes given ∧ b'.roots = b.roots ∧ b'.stack = b.stack ∧
      b'.attributes = b.attributes ++ given := by
  induction attributes generalizing b with
  | nil =>
    cases h
    exact ⟨[], .nil, rfl, rfl, (List.append_nil _).symm⟩
  | cons pair attributes ih =>
    obtain ⟨name, written⟩ := pair
    rw [List.foldlM_cons] at h
    obtain ⟨b₁, hfirst, hrest⟩ := Option.bind_eq_some_iff.1 h
    obtain ⟨⟨found, references⟩, hfound, hadd⟩ := Option.bind_eq_some_iff.1 hfirst
    obtain ⟨hroots₁, hstack₁, hattributes₁⟩ := Building.addAttribute?_eq_some hadd
    obtain ⟨given, hgiven, hroots, hstack, hattributes⟩ := ih hrest
    refine ⟨(if name.Declares then [] else [(name, found)]) ++ given, ?_, hroots.trans hroots₁,
      hstack.trans hstack₁, ?_⟩
    . unfold Gives
      by_cases hname : name.Declares
      . rw [if_pos hname, List.filter_cons_of_neg (by simpa using hname)]
        exact hgiven
      . rw [if_neg hname, List.filter_cons_of_pos (by simpa using hname)]
        exact .cons ⟨rfl, hvalue hfound⟩ hgiven
    . rw [hattributes, hattributes₁, List.append_assoc]

theorem takes_openTag? (hvalue : ReadsValues entities level value) {b b' : Building} {tag : Tag}
    (hbase : tag.name.base ≠ []) (h : openTag? value b tag = some b') :
    ∃ given, Gives entities level tag.attributes given ∧
      (tag.ending = .cut → b.Takes [] b' ∧ b'.attributes = b.attributes ++ given) ∧
      (tag.ending ≠ .cut → b.Takes [⟨tag.name, b.attributes ++ given⟩] b' ∧ b'.attributes = []) := by
  unfold openTag? at h
  split at h
  . cases h
  . obtain ⟨b₁, hgives, hopen⟩ := Option.bind_eq_some_iff.1 h
    obtain ⟨given, hgiven, hroots, hstack, hattributes⟩ := exists_gives hvalue hgives
    have htakes : b.Takes [] b₁ := .refl_of_eq hroots hstack
    refine ⟨given, hgiven, fun hcut => ?_, fun hending => ?_⟩
    . rw [hcut] at hopen
      cases hopen
      exact ⟨htakes, hattributes⟩
    . have hopened := Building.takes_openElement? hbase hending hopen
      rw [hattributes] at hopened
      exact ⟨htakes.trans hopened.1, hopened.2⟩

def TakesContent (entities : Entities) (level depth : Nat) (b : Building) (cs : List Char) (b' : Building) : Prop :=
  ∃ starts, Delivers entities level depth b.attributes cs starts b'.attributes ∧ b.Takes starts b'

def TakesText (entities : Entities) (level : Nat) (b : Building) (cs : List Char) (b' : Building) : Prop :=
  ∃ starts, DeliversText entities level b.attributes cs starts b'.attributes ∧ b.Takes starts b'

theorem takes_textWith {expand : Building → List Char → Option Building}
    (hexpand : ∀ ⦃b body b'⦄, expand b body = some b' →
      ∃ inner, level = inner + 1 ∧ TakesContent entities inner 0 b body b')
    {nested exact : Bool} {b b' : Building} {taken : Reversed} {cs : List Char}
    (h : textWith entities expand nested b taken exact cs = some b') : TakesText entities level b cs b' := by
  fun_induction textWith entities expand nested b taken exact cs with
  | case1 b taken =>
    cases h
    rw [TakesText, Building.attributes_addText]
    exact ⟨[], .nil, Building.takes_addText b _⟩
  | case2 => cases h
  | case3 _ _ _ _ _ _ hrun _ _ ih =>
    obtain ⟨starts, hdelivers, htakes⟩ := ih h
    exact ⟨starts, .char hrun hdelivers, htakes⟩
  | case4 _ _ _ _ _ _ hrun _ _ ih =>
    obtain ⟨starts, hdelivers, htakes⟩ := ih h
    exact ⟨starts, .char hrun hdelivers, htakes⟩
  | case5 b taken exact cs name rest hrun _ ih =>
    obtain ⟨body, hbody, h⟩ := Option.bind_eq_some_iff.1 h
    obtain ⟨references, -, h⟩ := Option.bind_eq_some_iff.1 h
    obtain ⟨inner, hinner, h⟩ := Option.bind_eq_some_iff.1 h
    obtain ⟨level, rfl, starts, hstarts, htakes⟩ := hexpand hinner
    rw [Building.attributes_addText] at hstarts
    simp only [List.unattach_reverse, List.unattach_attach, dite_eq_ite] at ih
    obtain ⟨more, hmore, htakes'⟩ := ih inner h
    have hfirst : b.Takes starts inner := (Building.takes_addText b taken.reverse).trans (htakes.of_eq rfl rfl)
    exact ⟨starts ++ more, .entity hrun hbody hstarts hmore, hfirst.trans (htakes'.of_eq rfl rfl)⟩
  | case6 b taken exact c cs hamp ih =>
    obtain ⟨starts, hdelivers, htakes⟩ := ih h
    exact ⟨starts, .plain hamp hdelivers, htakes⟩

theorem takes_contentWith (htext : ∀ ⦃b run b'⦄, text b run = some b' → TakesText entities level b run b')
    (hvalue : ReadsValues entities level value) {depth : Nat} {b b' : Building} {cs rest : List Char}
    (h : contentWith text value depth b cs = some (b', rest)) : TakesContent entities level depth b cs b' := by
  fun_induction contentWith text value depth b cs with
  | case1 =>
    cases h
    exact ⟨[], .nil, .refl_of_eq rfl rfl⟩
  | case2 => cases h
  | case3 _ _ _ _ _ hrun _ _ ih =>
    obtain ⟨starts, hdelivers, htakes⟩ := ih h
    exact ⟨starts, .aside hrun hdelivers, htakes⟩
  | case4 _ b _ _ _ run hrun _ _ ih =>
    obtain ⟨starts, hdelivers, htakes⟩ := ih h
    rw [Building.attributes_addText] at hdelivers
    exact ⟨starts, .marked hrun hdelivers, (Building.takes_addText b _).trans htakes⟩
  | case5 _ b _ _ _ run hrun _ _ ih =>
    obtain ⟨between, hbetween, h⟩ := Option.bind_eq_some_iff.1 h
    obtain ⟨starts, hstarts, htakes⟩ := htext hbetween
    obtain ⟨more, hmore, htakes'⟩ := ih between h
    exact ⟨starts ++ more, .text hrun hstarts hmore, htakes.trans htakes'⟩
  | case6 depth b _ _ _ tag hrun _ _ ih =>
    obtain ⟨between, hbetween, h⟩ := Option.bind_eq_some_iff.1 h
    obtain ⟨given, hgiven, hcut, hwhole⟩ := takes_openTag? hvalue (Scan.answers_piece hrun) hbetween
    rw [dite_eq_ite] at ih
    obtain ⟨starts, hdelivers, htakes⟩ := ih between h
    by_cases hending : tag.ending = .cut
    . obtain ⟨htakes', hattributes⟩ := hcut hending
      rw [if_neg (by rw [hending]; decide), hattributes] at hdelivers
      exact ⟨starts, .cut hrun hending hgiven hdelivers, htakes'.trans htakes⟩
    . obtain ⟨htakes', hattributes⟩ := hwhole hending
      rw [hattributes] at hdelivers
      exact ⟨_ :: starts, .tag hrun hending hgiven hdelivers, htakes'.trans htakes⟩
  | case7 depth b _ _ _ name hrun _ _ ih =>
    obtain ⟨between, hbetween, h⟩ := Option.bind_eq_some_iff.1 h
    obtain ⟨htakes, hattributes⟩ := Building.takes_closeElement? hbetween
    cases depth with
    | zero =>
      cases h
      rw [TakesContent, hattributes]
      exact ⟨[], .close hrun, htakes⟩
    | succ depth =>
      obtain ⟨starts, hdelivers, htakes'⟩ := ih between depth h
      rw [hattributes] at hdelivers
      exact ⟨starts, .endTag hrun hdelivers, htakes.trans htakes'⟩

theorem readsValues_value (entities : Entities) (level : Nat) :
    ReadsValues entities level (Xml.value entities level) :=
  fun _ _ _ _ h => ⟨_, _, h⟩

theorem takes_content {b b' : Building} {cs rest : List Char}
    (h : content entities level b cs = some (b', rest)) : TakesContent entities level 0 b cs b' := by
  induction level generalizing b b' cs rest with
  | zero =>
    -- At the innermost level no entity is resolved.
    refine takes_contentWith (fun _ _ _ h => takes_textWith (fun _ _ _ h => ?_) h) (readsValues_value _ _) h
    cases h
  | succ level ih =>
    refine takes_contentWith (fun _ _ _ h => takes_textWith (fun _ _ _ h => ?_) h) (readsValues_value _ _) h
    obtain ⟨⟨inner, behind⟩, hinner, rfl⟩ := Option.map_eq_some_iff.1 h
    exact ⟨level, rfl, ih hinner⟩

theorem takes_root {b : Building} {cs rest : List Char} (h : root entities cs = some (b, rest))
    (hopenings : b.openings ≠ []) : ∃ starts, DeliversRoot entities cs starts ∧ Building.Takes {} starts b := by
  unfold root at h
  split at h
  . cases h
  . next tag behind hrun =>
    obtain ⟨b₁, hopen, h⟩ := Option.bind_eq_some_iff.1 h
    obtain ⟨given, hgiven, hcut, hwhole⟩ := takes_openTag? (readsValues_value _ _) (Scan.answers_tag hrun) hopen
    cases hending : tag.ending with
    | cut =>
      rw [if_neg (by rw [hending]; decide)] at h
      cases h
      exact absurd (hcut hending).1.openings_eq hopenings
    | closed =>
      rw [if_neg (by rw [hending]; decide)] at h
      cases h
      exact ⟨_, .closed hrun hending hgiven, (hwhole (by rw [hending]; decide)).1⟩
    | opened =>
      rw [if_pos hending] at h
      obtain ⟨htakes, hattributes⟩ := hwhole (by rw [hending]; decide)
      obtain ⟨starts, hdelivers, htakes'⟩ := takes_content h
      rw [hattributes] at hdelivers
      exact ⟨_ :: starts, .opened hrun hending hgiven hdelivers, htakes.trans htakes'⟩

end Content

theorem Start.opens_of_opening_eq {start : Start} {element : Node}
    (h : start.opening = (element.name, element.attributes)) : start.Opens element where
  name_eq := (congrArg Prod.fst h).symm
  attributes_latest := by
    have hattributes : element.attributes = start.opening.2 := (congrArg Prod.snd h).symm
    rw [hattributes]
    exact Keyed.isLatest_run ..

theorem exists_root_of_parse {text : String} {node : Node} (h : parse text = some node) :
    ∃ entities cs b rest others, Scan.prolog.run text.toList = .ok (entities, '<' :: cs) ∧
      root entities cs = some (b, rest) ∧ b.stack = [] ∧ b.roots = node :: others := by
  unfold parse at h
  split at h
  . next entities cs hprolog =>
    split at h
    . next b rest hroot =>
      split at h
      . split at h
        . next hstack =>
          obtain ⟨others, hroots⟩ := List.head?_eq_some_iff.1 h
          exact ⟨entities, cs, b, rest, others, hprolog, hroot, List.isEmpty_iff.1 hstack, hroots⟩
        . cases h
      . cases h
    . cases h
  . cases h

/--
All elements of a tree that is read are well shaped, and they are those that the tags of the document open, in the same
order. What stands behind the root element is left out.
-/
theorem loaded_of_parse {text : String} {node : Node} (h : parse text = some node) :
    node.Throughout IsLoaded ∧ ∃ starts behind, DeliversDocument text (starts ++ behind) ∧
      List.Forall₂ Start.Opens starts node.elements := by
  obtain ⟨entities, cs, b, rest, others, hprolog, hroot, hstack, hroots⟩ := exists_root_of_parse h
  have hopenings : b.openings = openings node ++ others.flatMap openings := by
    rw [Building.openings, hstack, hroots]
    simp
  have hne : b.openings ≠ [] := by
    rw [hopenings, openings, Node.elements_eq]
    exact List.cons_ne_nil _ _
  obtain ⟨starts, hdelivers, htakes⟩ := takes_root hroot hne
  have hsound := htakes.sound ⟨List.forall_mem_nil _, List.forall_mem_nil _⟩
  -- An entity may hold the end of the root element, so the tags of the root element are only the first ones.
  have hmap : starts.map Start.opening = openings node ++ others.flatMap openings :=
    htakes.openings_eq.symm.trans hopenings
  obtain ⟨first, behind, rfl, hfirst, -⟩ := List.map_eq_append_iff.1 hmap
  refine ⟨hsound.roots_loaded node (hroots ▸ List.mem_cons_self), first, behind,
    ⟨entities, cs, hprolog, hdelivers⟩, ?_⟩
  rw [openings, ← List.forall₂_eq_eq_eq, List.forall₂_map_left_iff, List.forall₂_map_right_iff] at hfirst
  exact hfirst.imp fun _ _ => Start.opens_of_opening_eq

def qualifiedTwice : String :=
  "<!DOCTYPE r [<!ENTITY e \"<b x:k='1' j='2' y:k='3'/>\">]><r xmlns:x='u' xmlns:y='v'>t&e;<![CDATA[ ]]><c>d</c></r>"

theorem loaded_qualifiedTwice : ∃ node, parse qualifiedTwice = some node ∧
    openings node = [("r", []), ("b", [("k", "3"), ("j", "2")]), ("c", [])] ∧ node.Throughout IsLoaded ∧
      ∃ starts behind, DeliversDocument qualifiedTwice (starts ++ behind) ∧
        List.Forall₂ Start.Opens starts node.elements := by
  have h : (parse qualifiedTwice).map openings =
      some [("r", []), ("b", [("k", "3"), ("j", "2")]), ("c", [])] := by
    decide +kernel
  obtain ⟨node, hnode, hopenings⟩ := Option.map_eq_some_iff.1 h
  exact ⟨node, hnode, hopenings, loaded_of_parse hnode⟩

end LexiconAudit.Xml
