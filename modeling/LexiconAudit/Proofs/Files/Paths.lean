import LexiconAudit.Files.Path

/-!
This module contains the parts of a path that was joined from a base and a name: those of the base, up to an
end slash, and the name.
-/

namespace LexiconAudit.Files

namespace segments

theorem go_ne_nil (cs : List Char) : go cs ≠ [] := by
  cases cs with
  | nil => nofun
  | cons c cs =>
    unfold go
    split
    . nofun
    . split <;> nofun

theorem go_append_slash (cs ds : List Char) : go (cs ++ '/' :: ds) = go cs ++ go ds := by
  induction cs with
  | nil => rfl
  | cons c cs ih =>
    rw [List.cons_append, go, go, ih]
    by_cases hc : c = '/'
    . rw [if_pos hc, if_pos hc, List.cons_append]
    . obtain ⟨first, more, hgo⟩ := List.exists_cons_of_ne_nil (go_ne_nil cs)
      rw [if_neg hc, if_neg hc, hgo]
      rfl

theorem go_of_not_mem {cs : List Char} (h : '/' ∉ cs) : go cs = [cs] := by
  induction cs with
  | nil => rfl
  | cons c cs ih =>
    rw [List.mem_cons, not_or] at h
    unfold go
    rw [if_neg (Ne.symm h.1), ih h.2]

end segments

def lead (base : String) : List String :=
  if base.isEmpty ∨ base.toList.getLast? = some '/' then (segments base).dropLast else segments base

section Join

variable {name : String} (hname : '/' ∉ name.toList)

include hname

theorem join_eq (base : String) : join base name =
    if base.isEmpty ∨ base.toList.getLast? = some '/' then base ++ name else base ++ "/" ++ name := by
  have hhead : name.toList.head? ≠ some '/' := fun h => hname (List.mem_of_head? h)
  unfold join
  rw [if_neg hhead]

theorem origin_join (base : String) : origin (join base name) = origin base := by
  have hhead : (join base name).toList.head? = some '/' ↔ base.toList.head? = some '/' := by
    rw [join_eq hname]
    by_cases hempty : base = ""
    . subst hempty
      rw [if_pos (.inl rfl), String.empty_append]
      exact iff_of_false (fun h => hname (List.mem_of_head? h)) nofun
    . obtain ⟨c, cs, hbase⟩ := List.exists_cons_of_ne_nil (mt String.toList_eq_nil_iff.1 hempty)
      split <;> simp [hbase]
  unfold origin
  simp only [hhead]

theorem segments_join (base : String) : segments (join base name) = lead base ++ [name] := by
  have hgo (cs : List Char) :
      segments (String.ofList (cs ++ '/' :: name.toList)) = (segments.go cs).map String.ofList ++ [name] := by
    rw [segments, String.toList_ofList, segments.go_append_slash, segments.go_of_not_mem hname, List.map_append]
    simp
  rw [join_eq hname, lead]
  -- an end slash closes the last part of the base, which is empty then and is left out
  split
  . next hend =>
    rcases hend with hempty | hslash
    . rw [String.isEmpty_iff] at hempty
      subst hempty
      rw [String.empty_append, segments, segments.go_of_not_mem hname]
      simp [segments, segments.go]
    . obtain ⟨cs, hcs⟩ := List.getLast?_eq_some_iff.1 hslash
      have hjoin : base ++ name = String.ofList (cs ++ '/' :: name.toList) := by
        rw [← String.toList_inj, String.toList_append, hcs, String.toList_ofList, List.append_assoc]
        rfl
      rw [hjoin, hgo, segments, hcs, segments.go_append_slash, List.map_append]
      simp [segments.go]
  . have hjoin : base ++ "/" ++ name = String.ofList (base.toList ++ '/' :: name.toList) := by
      rw [← String.toList_inj, String.toList_append, String.toList_append, String.toList_ofList]
      simp
    rw [hjoin, hgo]
    rfl

variable (hne : name ≠ "")

include hne

theorem getLast?_join (base : String) : (join base name).toList.getLast? = name.toList.getLast? := by
  have hlast (cs : List Char) : (cs ++ name.toList).getLast? = name.toList.getLast? := by
    rw [List.getLast?_append, Option.or_of_isSome]
    rw [List.getLast?_isSome]
    exact mt String.toList_eq_nil_iff.1 hne
  rw [join_eq hname]
  split
  . rw [String.toList_append, hlast]
  . rw [String.toList_append, hlast]

theorem join_ne_empty (base : String) : join base name ≠ "" := by
  intro hempty
  have hlast := getLast?_join hname hne base
  rw [hempty] at hlast
  exact hne (String.toList_eq_nil_iff.1 (List.getLast?_eq_none_iff.1 hlast.symm))

theorem lead_join (base : String) : lead (join base name) = lead base ++ [name] := by
  have hlast : name.toList.getLast? ≠ some '/' := fun h => hname (List.mem_of_getLast? h)
  rw [← segments_join hname, lead, if_neg]
  rw [getLast?_join hname hne, String.isEmpty_iff]
  exact not_or.2 ⟨join_ne_empty hname hne base, hlast⟩

end Join

end LexiconAudit.Files
