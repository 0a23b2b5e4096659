import LexiconAudit.Database.Fields
import LexiconAudit.Proofs.Checking
import LexiconAudit.Proofs.Database.Fields
import LexiconAudit.Proofs.Fixture.Shape

/-!
This module contains the relation between the elements of an expected entry and the fields of a stored one
that the comparison of fields decides: markers stand for empty fields, senses for a list of objects that
match one by one, and everything else for a text in a writing system.
-/

namespace LexiconAudit.Database

open Fixture (EntryChild SenseChild SenseShape)

/-! Texts in writing systems. -/

inductive Writes : Node → String → String → Prop where
  | here {node : Node} {system : String} :
    node.attribute? Node.writingSystemKey = some system → Writes node system node.value
  | inside {node child : Node} {system value : String} :
    node.attribute? Node.writingSystemKey = none → child ∈ node.children → Writes child system value →
      Writes node system value

mutual

theorem mem_systemTexts_iff {system value : String} (node : Node) :
    (system, value) ∈ systemTexts node ↔ Writes node system value := by
  match node with
  | ⟨name, attributes, text, children⟩ =>
    unfold systemTexts
    dsimp only
    split
    . next system' hsystem =>
      rw [List.mem_singleton]
      constructor
      . intro h
        cases h
        exact .here hsystem
      . intro h
        cases h with
        | here hsystem' =>
          cases hsystem.symm.trans hsystem'
          rfl
        | inside hnone =>
          cases hsystem.symm.trans hnone
    . next hnone =>
      rw [mem_allSystemTexts_iff children]
      constructor
      . intro ⟨child, hchild, h⟩
        exact .inside hnone hchild h
      . intro h
        cases h with
        | here hsystem => cases hnone.symm.trans hsystem
        | inside _ hchild h => exact ⟨_, hchild, h⟩

theorem mem_allSystemTexts_iff {system value : String} (nodes : List Node) :
    (system, value) ∈ allSystemTexts nodes ↔ ∃ node ∈ nodes, Writes node system value := by
  match nodes with
  | [] => simp [allSystemTexts]
  | node :: nodes =>
    rw [allSystemTexts, List.mem_append, mem_systemTexts_iff node, mem_allSystemTexts_iff nodes,
      List.exists_mem_cons_iff]

end

theorem compareSystems_eq_ok_iff {field : String} {record : Nat} {stored : Json}
    {texts : List (String × String)} :
    compareSystems field record stored texts = .ok () ↔ ∀ text ∈ texts,
      (stored.field? text.1).bind (Json.field? "value") = some (.string text.2) := by
  induction texts with
  | nil => simp [compareSystems]
  | cons text texts ih =>
    obtain ⟨system, value⟩ := text
    unfold compareSystems
    rw [List.forall_mem_cons, ← ih]
    split
    . next hnone =>
      rw [Option.eq_none_iff_forall_ne_some] at hnone
      constructor
      . intro h
        cases h
      . intro h
        exact absurd (bind_asString?_eq_some_iff.2 h.1) (hnone value)
    . next found hfound =>
      rw [bind_asString?_eq_some_iff] at hfound
      rw [hfound]
      split
      . next heq => simp [heq]
      . next hne => simp [hne]

/-! Fields. -/

inductive Matches : List (String × Json) → Node → Prop where
  | marker {fields : List (String × Json)} {child : Node} : child.expectsAbsence = true →
    (∀ stored, fields.lookup (fieldName child.name) = some stored → Hollow stored) → Matches fields child
  | senses {fields : List (String × Json)} {child : Node} {objects : List (List (String × Json))} :
    child.expectsAbsence = false → child.name = Node.sensesName →
      fields.lookup (fieldName child.name) = some (.array (objects.map Json.object)) →
        List.Forall₂ (fun object sense => ∀ part ∈ sense.children, Matches object part) objects
          (child.childrenNamed Node.senseName) → Matches fields child
  | text {fields : List (String × Json)} {child : Node} :
    child.expectsAbsence = false → child.name ≠ Node.sensesName →
      (∀ system value, Writes child system value → ∃ stored,
        fields.lookup (fieldName child.name) = some stored ∧
          (stored.field? system).bind (Json.field? "value") = some (.string value)) → Matches fields child

def compareStored (record : Nat) (expected : Node) (stored : Json) : Except Discrepancy Unit :=
  if expected.name = Node.sensesName then
    match stored with
    | .array senses =>
      let count := (expected.childrenNamed Node.senseName).length
      if senses.length = count then
        compareSenses record 0 senses expected.children
      else
        .error (.senseCount record count senses.length)
    | _ => .error (.sensesNotList record)
  else
    compareText (fieldName expected.name) record expected stored

theorem compareField_eq (record : Nat) (fields : List (String × Json)) (expected : Node) :
    compareField record fields expected =
      if expected.expectsAbsence then
        requireAbsence (fieldName expected.name) expected.name record (fields.lookup (fieldName expected.name))
      else
        match fields.lookup (fieldName expected.name) with
        | none => .error (.fieldMissing (fieldName expected.name) expected.name record)
        | some stored => compareStored record expected stored := by
  cases expected
  unfold compareField
  rfl

section Fields

variable {record : Nat} {fields : List (String × Json)} {child : Node}

theorem compareField_marker_iff (h : child.expectsAbsence = true) :
    compareField record fields child = .ok () ↔ Matches fields child := by
  have hcompare : compareField record fields child =
      requireAbsence (fieldName child.name) child.name record (fields.lookup (fieldName child.name)) := by
    rw [compareField_eq, if_pos h]
  have hhollow : requireAbsence (fieldName child.name) child.name record
      (fields.lookup (fieldName child.name)) = .ok () ↔
        ∀ stored, fields.lookup (fieldName child.name) = some stored → Hollow stored := by
    unfold requireAbsence
    cases fields.lookup (fieldName child.name) with
    | none => simp
    | some stored => simp [← isPopulated_eq_false_iff]
  rw [hcompare, hhollow]
  constructor
  . exact .marker h
  . intro hmatches
    cases hmatches with
    | marker _ hfields => exact hfields
    | senses hpresent => cases h.symm.trans hpresent
    | text hpresent => cases h.symm.trans hpresent

theorem compareField_text_iff (h : child.expectsAbsence = false) (hname : child.name ≠ Node.sensesName)
    (hwrites : systemTexts child ≠ []) :
    compareField record fields child = .ok () ↔ Matches fields child := by
  have hcompare : compareField record fields child = .ok () ↔ ∃ stored,
      fields.lookup (fieldName child.name) = some stored ∧
        compareSystems (fieldName child.name) record stored (systemTexts child) = .ok () := by
    rw [compareField_eq, if_neg (by rw [h]; decide)]
    split
    . next hnone => simp [hnone]
    . next stored hstored =>
      unfold compareStored compareText
      rw [if_neg hname]
      split
      . next hnil _ => exact absurd hnil hwrites
      . next hnil _ => exact absurd hnil hwrites
      . simp [hstored]
  rw [hcompare]
  simp only [compareSystems_eq_ok_iff]
  constructor
  . intro ⟨stored, hstored, htexts⟩
    refine .text h hname ?_
    intro system value hwritten
    exact ⟨stored, hstored, htexts (system, value) ((mem_systemTexts_iff child).2 hwritten)⟩
  . intro hmatches
    cases hmatches with
    | marker habsent => cases h.symm.trans habsent
    | senses _ hsenses => exact absurd hsenses hname
    | text _ _ htexts =>
      obtain ⟨⟨system, value⟩, hmem⟩ := List.exists_mem_of_ne_nil _ hwrites
      obtain ⟨stored, hstored, -⟩ := htexts system value ((mem_systemTexts_iff child).1 hmem)
      refine ⟨stored, hstored, ?_⟩
      intro text htext
      obtain ⟨stored', hstored', heq⟩ := htexts text.1 text.2 ((mem_systemTexts_iff child).1 htext)
      cases hstored.symm.trans hstored'
      exact heq

theorem compareFields_eq_ok_iff {nodes : List Node} :
    compareFields record fields nodes = .ok () ↔
      ∀ node ∈ nodes, compareField record fields node = .ok () := by
  induction nodes with
  | nil => simp [compareFields]
  | cons node nodes ih =>
    unfold compareFields
    rw [bind_unit_eq_ok_iff, List.forall_mem_cons, ← ih]

theorem compareSenses_eq_ok_iff {index : Nat} {senses : List Json} {children : List Node}
    (hlength : senses.length = (children.filter fun node => node.name = Node.senseName).length)
    (hparts : ∀ node ∈ children, node.name = Node.senseName → ∀ part ∈ node.children, ∀ fields,
      compareField record fields part = .ok () ↔ Matches fields part) :
    compareSenses record index senses children = .ok () ↔
      List.Forall₂ (fun stored sense => ∃ object, stored = .object object ∧
        ∀ part ∈ sense.children, Matches object part) senses
          (children.filter fun node => node.name = Node.senseName) := by
  induction children generalizing senses index with
  | nil =>
    cases List.eq_nil_of_length_eq_zero hlength
    simp [compareSenses]
  | cons node children ih =>
    rw [List.forall_mem_cons] at hparts
    obtain ⟨name, attributes, text, parts⟩ := node
    unfold compareSenses
    by_cases hname : name = Node.senseName
    . rw [if_pos hname]
      rw [List.filter_cons_of_pos (by simpa using hname)] at hlength ⊢
      cases senses with
      | nil => cases hlength
      | cons stored senses =>
        rw [List.forall₂_cons, ← @ih (index + 1) senses (by simpa using hlength) hparts.2]
        cases stored with
        | object fields =>
          rw [bind_unit_eq_ok_iff, compareFields_eq_ok_iff]
          simp only [Json.object.injEq, exists_eq_left']
          refine and_congr_left fun _ => forall₂_congr fun part hpart => ?_
          exact hparts.1 hname part hpart fields
        | _ => simp
    . rw [if_neg hname]
      rw [List.filter_cons_of_neg (by simpa using hname)] at hlength ⊢
      exact ih hlength hparts.2

theorem compareField_senses_iff (h : child.expectsAbsence = false) (hname : child.name = Node.sensesName)
    (hparts : ∀ node ∈ child.children, node.name = Node.senseName → ∀ part ∈ node.children, ∀ fields,
      compareField record fields part = .ok () ↔ Matches fields part) :
    compareField record fields child = .ok () ↔ Matches fields child := by
  have hcompare : compareField record fields child = .ok () ↔ ∃ senses,
      fields.lookup (fieldName child.name) = some (.array senses) ∧
        List.Forall₂ (fun stored sense => ∃ object, stored = .object object ∧
          ∀ part ∈ sense.children, Matches object part) senses (child.childrenNamed Node.senseName) := by
    rw [compareField_eq, if_neg (by rw [h]; decide)]
    split
    . next hnone => simp [hnone]
    . next stored hstored =>
      unfold compareStored
      rw [if_pos hname, hstored]
      cases stored with
      | array senses =>
        dsimp only
        split
        . next hlength =>
          rw [compareSenses_eq_ok_iff hlength hparts]
          simp [Node.childrenNamed]
        . next hlength =>
          constructor
          . intro hcompare
            cases hcompare
          . intro ⟨_, hsenses, hforall⟩
            cases hsenses
            exact absurd hforall.length_eq hlength
      | _ => simp
  rw [hcompare]
  constructor
  . intro ⟨senses, hsenses, hforall⟩
    obtain ⟨objects, hobjects, hforall⟩ := forall₂_exists_iff.1 hforall
    have hmap : senses = objects.map Json.object := by
      rwa [← List.forall₂_eq_eq_eq, List.forall₂_map_right_iff]
    exact .senses h hname (hmap ▸ hsenses) hforall
  . intro hmatches
    cases hmatches with
    | marker habsent => cases h.symm.trans habsent
    | text _ hother => exact absurd hname hother
    | @senses _ _ objects _ _ hsenses hforall =>
      refine ⟨_, hsenses, forall₂_exists_iff.2 ⟨objects, ?_, hforall⟩⟩
      rw [List.forall₂_map_left_iff]
      exact List.forall₂_same.2 fun _ _ => rfl

end Fields

/-! The children of entries and senses that fixtures spell. -/

theorem systemTexts_of_attribute {node : Node} {system : String}
    (h : node.attribute? Node.writingSystemKey = some system) :
    systemTexts node = [(system, node.value)] := by
  cases node
  unfold systemTexts
  dsimp only
  rw [h]

theorem systemTexts_container (name : String) (children : List Node) :
    systemTexts (Fixture.Reader.container name children) = allSystemTexts children := by
  unfold Fixture.Reader.container systemTexts
  rfl

theorem compareField_senseChild_iff {record : Nat} {fields : List (String × Json)} {child : Node}
    (h : SenseChild child) : compareField record fields child = .ok () ↔ Matches fields child := by
  cases h with
  | marker h =>
    obtain ⟨name, rfl⟩ := h
    exact compareField_marker_iff rfl
  | definition system value =>
    unfold Fixture.Reader.definition
    split
    . exact compareField_marker_iff rfl
    . refine compareField_text_iff rfl (show Node.definitionName ≠ Node.sensesName by decide) ?_
      rw [systemTexts_container, allSystemTexts, systemTexts_of_attribute rfl]
      nofun
  | gloss system value =>
    unfold Fixture.Reader.gloss
    split
    . exact compareField_marker_iff rfl
    . refine compareField_text_iff rfl (show Node.glossName ≠ Node.sensesName by decide) ?_
      rw [systemTexts_container, allSystemTexts, systemTexts_of_attribute rfl]
      nofun

theorem systemTexts_lexemeForm (system value : String) :
    systemTexts (Fixture.Reader.lexemeForm system value) = [(system, value)] := by
  have hvalue : (Fixture.Reader.alternative Node.uniName system value).value = value := by
    rw [Node.value_eq]
    exact String.append_empty
  unfold Fixture.Reader.lexemeForm
  simp only [systemTexts_container, allSystemTexts, List.append_nil]
  rw [systemTexts_of_attribute rfl, hvalue]

theorem compareField_entryChild_iff {record : Nat} {fields : List (String × Json)} {child : Node}
    (h : EntryChild child) : compareField record fields child = .ok () ↔ Matches fields child := by
  cases h with
  | marker h =>
    obtain ⟨name, rfl⟩ := h
    exact compareField_marker_iff rfl
  | lexeme system value =>
    refine compareField_text_iff rfl (show Node.lexemeFormName ≠ Node.sensesName by decide) ?_
    rw [systemTexts_lexemeForm]
    nofun
  | senses h =>
    refine compareField_senses_iff rfl rfl fun node hnode _ part hpart fields => ?_
    obtain ⟨hchildren⟩ := h node hnode
    exact compareField_senseChild_iff (hchildren part hpart)

end LexiconAudit.Database
