import LexiconAudit.Database.Document

/-!
This module contains what a value that is stored in a field holds: a text, further fields, or nothing.
-/

namespace LexiconAudit.Database

theorem bind_asObject?_eq_some_iff {value : Option Json} {fields : List (String × Json)} :
    value.bind Json.asObject? = some fields ↔ value = some (.object fields) := by
  cases value with
  | none => simp
  | some value => cases value <;> simp [Json.asObject?]

theorem bind_asString?_eq_some_iff {value : Option Json} {text : String} :
    value.bind Json.asString? = some text ↔ value = some (.string text) := by
  cases value with
  | none => simp
  | some value => cases value <;> simp [Json.asString?]

inductive Within (inner : Json) : Json → Prop where
  | self : Within inner inner
  | item {item : Json} {items : List Json} :
    item ∈ items → Within inner item → Within inner (.array items)
  | field {pair : String × Json} {fields : List (String × Json)} :
    pair ∈ fields → Within inner pair.2 → Within inner (.object fields)

def IsScalar : Json → Prop
  | .array _ | .object _ => False
  | _ => True

/--
A value in which every scalar is null or the empty string, at any depth.
-/
def Hollow (value : Json) : Prop :=
  ∀ scalar, Within scalar value → IsScalar scalar → scalar = .null ∨ scalar = .string ""

theorem hollow_iff_of_isScalar (value : Json) (h : IsScalar value) :
    Hollow value ↔ value = .null ∨ value = .string "" := by
  constructor
  . intro hvalue
    exact hvalue value .self h
  . intro hvalue scalar hwithin _
    cases hwithin with
    | self => exact hvalue
    | item => cases h
    | field => cases h

theorem hollow_array_iff {items : List Json} : Hollow (.array items) ↔ ∀ item ∈ items, Hollow item := by
  constructor
  . intro h item hitem scalar hwithin
    exact h scalar (.item hitem hwithin)
  . intro h scalar hwithin hscalar
    cases hwithin with
    | self => cases hscalar
    | item hitem hwithin => exact h _ hitem scalar hwithin hscalar

theorem hollow_object_iff {fields : List (String × Json)} :
    Hollow (.object fields) ↔ ∀ pair ∈ fields, Hollow pair.2 := by
  constructor
  . intro h pair hpair scalar hwithin
    exact h scalar (.field hpair hwithin)
  . intro h scalar hwithin hscalar
    cases hwithin with
    | self => cases hscalar
    | field hpair hwithin => exact h _ hpair scalar hwithin hscalar

mutual

theorem isPopulated_eq_false_iff (value : Json) : isPopulated value = false ↔ Hollow value := by
  cases value with
  | null => simp [isPopulated, hollow_iff_of_isScalar .null True.intro]
  | bool value => simp [isPopulated, hollow_iff_of_isScalar (.bool value) True.intro]
  | number value => simp [isPopulated, hollow_iff_of_isScalar (.number value) True.intro]
  | string text => simp [isPopulated, hollow_iff_of_isScalar (.string text) True.intro]
  | array items =>
    rw [isPopulated, hollow_array_iff]
    exact anyPopulated_eq_false_iff items
  | object fields =>
    rw [isPopulated, hollow_object_iff]
    exact anyFieldPopulated_eq_false_iff fields

theorem anyPopulated_eq_false_iff (items : List Json) :
    anyPopulated items = false ↔ ∀ item ∈ items, Hollow item := by
  cases items with
  | nil => simp [anyPopulated]
  | cons item items =>
    rw [anyPopulated, Bool.or_eq_false_iff, List.forall_mem_cons]
    exact and_congr (isPopulated_eq_false_iff item) (anyPopulated_eq_false_iff items)

theorem anyFieldPopulated_eq_false_iff (fields : List (String × Json)) :
    anyFieldPopulated fields = false ↔ ∀ pair ∈ fields, Hollow pair.2 := by
  match fields with
  | [] => simp [anyFieldPopulated]
  | (name, value) :: fields =>
    rw [anyFieldPopulated, Bool.or_eq_false_iff, List.forall_mem_cons]
    exact and_congr (isPopulated_eq_false_iff value) (anyFieldPopulated_eq_false_iff fields)

end

end LexiconAudit.Database
