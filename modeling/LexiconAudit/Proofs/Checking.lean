import Mathlib.Data.List.Forall2

/-!
This module contains the laws by which checks are taken apart: two checks in sequence pass if and only if
both of them do, and so do checks of all elements of a list.
-/

namespace LexiconAudit

variable {ε α β γ : Type}

theorem bind_eq_ok_iff {x : Except ε α} {f : α → Except ε β} {b : β} :
    x >>= f = .ok b ↔ ∃ a, x = .ok a ∧ f a = .ok b := by
  cases x with
  | error e =>
    constructor
    . intro h
      cases h
    . intro ⟨a, ha, _⟩
      cases ha
  | ok a =>
    constructor
    . intro h
      exact ⟨a, rfl, h⟩
    . intro ⟨a', ha, h⟩
      cases ha
      exact h

theorem bind_unit_eq_ok_iff {x : Except ε Unit} {f : Unit → Except ε β} {b : β} :
    x >>= f = .ok b ↔ x = .ok () ∧ f () = .ok b := by
  rw [bind_eq_ok_iff]
  constructor
  . intro ⟨(), hx, hf⟩
    exact ⟨hx, hf⟩
  . intro ⟨hx, hf⟩
    exact ⟨(), hx, hf⟩

theorem bind_eq_error_iff {x : Except ε α} {f : α → Except ε β} {e : ε} :
    x >>= f = .error e ↔ x = .error e ∨ ∃ a, x = .ok a ∧ f a = .error e := by
  cases x with
  | error e' =>
    constructor
    . intro h
      cases h
      exact .inl rfl
    . rintro (h | ⟨a, ha, _⟩)
      . cases h
        rfl
      . cases ha
  | ok a =>
    constructor
    . intro h
      exact .inr ⟨a, rfl, h⟩
    . rintro (h | ⟨a', ha, h⟩)
      . cases h
      . cases ha
        exact h

theorem map_eq_ok_iff {x : Except ε α} {f : α → β} {b : β} : x.map f = .ok b ↔ ∃ a, x = .ok a ∧ f a = b := by
  cases x with
  | error e =>
    constructor
    . intro h
      cases h
    . intro ⟨a, ha, _⟩
      cases ha
  | ok a =>
    constructor
    . intro h
      exact ⟨a, rfl, Except.ok.inj h⟩
    . intro ⟨a', ha, h⟩
      cases ha
      exact congrArg _ h

theorem map_eq_error_iff {x : Except ε α} {f : α → β} {e : ε} : x.map f = .error e ↔ x = .error e := by
  cases x with
  | error e' =>
    constructor
    . intro h
      cases h
      rfl
    . intro h
      cases h
      rfl
  | ok a =>
    constructor
    . intro h
      cases h
    . intro h
      cases h

theorem mapM_eq_ok_iff {f : α → Except ε β} {as : List α} {bs : List β} :
    as.mapM f = .ok bs ↔ List.Forall₂ (fun a b => f a = .ok b) as bs := by
  induction as generalizing bs with
  | nil =>
    rw [List.mapM_nil, List.forall₂_nil_left_iff]
    constructor
    . intro h
      cases h
      rfl
    . intro h
      rw [h]
      rfl
  | cons a as ih =>
    rw [List.mapM_cons, bind_eq_ok_iff, List.forall₂_cons_left_iff]
    constructor
    . intro ⟨b, hb, h⟩
      obtain ⟨bs', hbs, h⟩ := bind_eq_ok_iff.1 h
      cases h
      exact ⟨b, bs', hb, ih.1 hbs, rfl⟩
    . intro ⟨b, bs', hb, hbs, heq⟩
      refine ⟨b, hb, bind_eq_ok_iff.2 ⟨bs', ih.2 hbs, ?_⟩⟩
      rw [heq]
      rfl

theorem exists_of_mapM_eq_error {f : α → Except ε β} {as : List α} {e : ε} (h : as.mapM f = .error e) :
    ∃ a ∈ as, f a = .error e := by
  induction as with
  | nil => cases h
  | cons a as ih =>
    rw [List.mapM_cons, bind_eq_error_iff] at h
    rcases h with ha | ⟨b, _, h⟩
    . exact ⟨a, List.mem_cons_self, ha⟩
    . rcases bind_eq_error_iff.1 h with h | ⟨bs, _, h⟩
      . obtain ⟨a', ha', herror⟩ := ih h
        exact ⟨a', List.mem_cons_of_mem _ ha', herror⟩
      . cases h

theorem forM_eq_ok_iff {f : α → Except ε Unit} {as : List α} :
    as.forM f = .ok () ↔ ∀ a ∈ as, f a = .ok () := by
  induction as with
  | nil => exact iff_of_true rfl nofun
  | cons a as ih => rw [List.forM, bind_unit_eq_ok_iff, List.forall_mem_cons, ih]

theorem exists_of_forM_eq_error {f : α → Except ε Unit} {as : List α} {e : ε} (h : as.forM f = .error e) :
    ∃ a ∈ as, f a = .error e := by
  induction as with
  | nil => cases h
  | cons a as ih =>
    rcases bind_eq_error_iff.1 h with ha | ⟨_, _, h⟩
    . exact ⟨a, List.mem_cons_self, ha⟩
    . obtain ⟨a', ha', herror⟩ := ih h
      exact ⟨a', List.mem_cons_of_mem _ ha', herror⟩

theorem mapM_congr {f g : α → Except ε β} {as : List α} (h : ∀ a ∈ as, f a = g a) :
    as.mapM f = as.mapM g := by
  induction as with
  | nil => rfl
  | cons a as ih =>
    rw [List.forall_mem_cons] at h
    rw [List.mapM_cons, List.mapM_cons, h.1, ih h.2]

theorem forM_congr {f g : α → Except ε Unit} {as : List α} (h : ∀ a ∈ as, f a = g a) :
    as.forM f = as.forM g := by
  induction as with
  | nil => rfl
  | cons a as ih =>
    rw [List.forall_mem_cons] at h
    rw [List.forM, List.forM, h.1, ih h.2]

theorem forM_map {f : α → β} {g : β → Except ε Unit} {as : List α} :
    (as.map f).forM g = as.forM fun a => g (f a) := by
  induction as with
  | nil => rfl
  | cons a as ih => rw [List.map_cons, List.forM, List.forM, ih]

theorem exists_of_mem_right {r : α → β → Prop} {as : List α} {bs : List β} (h : List.Forall₂ r as bs) {b : β}
    (hb : b ∈ bs) : ∃ a ∈ as, r a b := by
  induction h with
  | nil => cases hb
  | cons hr _ ih =>
    rcases List.mem_cons.1 hb with rfl | hb
    . exact ⟨_, List.mem_cons_self, hr⟩
    . obtain ⟨a, ha, hr⟩ := ih hb
      exact ⟨a, List.mem_cons_of_mem _ ha, hr⟩

theorem exists_of_mem_left {r : α → β → Prop} {as : List α} {bs : List β} (h : List.Forall₂ r as bs) {a : α}
    (ha : a ∈ as) : ∃ b ∈ bs, r a b :=
  exists_of_mem_right h.flip ha

theorem exists_forall₂ {r : α → β → Prop} {as : List α} (h : ∀ a ∈ as, ∃ b, r a b) :
    ∃ bs, List.Forall₂ r as bs := by
  induction as with
  | nil => exact ⟨[], .nil⟩
  | cons a as ih =>
    rw [List.forall_mem_cons] at h
    obtain ⟨b, hb⟩ := h.1
    obtain ⟨bs, hbs⟩ := ih h.2
    exact ⟨b :: bs, .cons hb hbs⟩

theorem forall₂_exists_iff {r : α → β → Prop} {s : β → γ → Prop} {as : List α} {cs : List γ} :
    List.Forall₂ (fun a c => ∃ b, r a b ∧ s b c) as cs ↔
      ∃ bs, List.Forall₂ r as bs ∧ List.Forall₂ s bs cs := by
  constructor
  . intro h
    induction h with
    | nil => exact ⟨[], .nil, .nil⟩
    | cons h _ ih =>
      obtain ⟨b, hr, hs⟩ := h
      obtain ⟨bs, hrs, hss⟩ := ih
      exact ⟨b :: bs, .cons hr hrs, .cons hs hss⟩
  . intro ⟨bs, hrs, hss⟩
    induction hrs generalizing cs with
    | nil =>
      cases hss
      exact .nil
    | cons hr _ ih =>
      cases hss with
      | cons hs hss => exact .cons ⟨_, hr, hs⟩ (ih hss)

/-! Checks that do not end with an error. -/

def Avoids (e : ε) (x : Except ε α) : Prop :=
  x ≠ .error e

theorem Avoids.ok {e : ε} {a : α} : Avoids e (.ok a) := nofun

theorem Avoids.error {e e' : ε} (h : e' ≠ e) : Avoids e (.error e' : Except ε α) :=
  fun heq => h (Except.error.inj heq)

theorem Avoids.bind {e : ε} {x : Except ε α} {f : α → Except ε β} (hx : Avoids e x) (hf : ∀ a, Avoids e (f a)) :
    Avoids e (x >>= f) := by
  intro h
  rcases bind_eq_error_iff.1 h with h | ⟨a, -, h⟩
  . exact hx h
  . exact hf a h

end LexiconAudit
