import LexiconAudit.Proofs.Json.RoundTrip

/-!
This module contains the reading of what was written with one item or field per line: the blanks between the parts of
a value do not matter to the reader.
-/

namespace LexiconAudit.Json

open Reading
open Reader hiding next string items fields value

/-! Blanks. -/

theorem isBlank_of_mem_newLine {depth : Nat} {c : Char} (h : c ∈ newLine depth) : isBlank c = true := by
  rcases List.mem_cons.1 h with rfl | h
  . rfl
  . rw [List.eq_of_mem_replicate h]
    rfl

theorem Ends.newLine (depth : Nat) (rest : List Char) : Ends (newLine depth ++ rest) :=
  .cons (by decide) _

theorem run_skipBlanks_append {blanks : List Char} (hblanks : ∀ c ∈ blanks, isBlank c = true) {c : Char}
    (h : isBlank c = false) (cs : List Char) : skipBlanks.run (blanks ++ c :: cs) = .ok ((), c :: cs) := by
  change Except.ok ((), (blanks ++ c :: cs).dropWhile isBlank) = _
  rw [List.dropWhile_append_of_pos hblanks, List.dropWhile_cons_of_neg (by simp [h])]

theorem run_skipBlanks_newLine {c : Char} (h : isBlank c = false) (depth : Nat) (cs : List Char) :
    skipBlanks.run (newLine depth ++ c :: cs) = .ok ((), c :: cs) :=
  run_skipBlanks_append (fun _ => isBlank_of_mem_newLine) h cs

theorem run_value_blanks (depth : Nat) {blanks : List Char} (h : ∀ c ∈ blanks, isBlank c = true) (cs : List Char) :
    (Reader.value depth).run (blanks ++ cs) = (Reader.value depth).run cs := by
  have hskip : skipBlanks.run (blanks ++ cs) = skipBlanks.run cs := by
    change Except.ok ((), (blanks ++ cs).dropWhile isBlank) = .ok ((), cs.dropWhile isBlank)
    rw [List.dropWhile_append_of_pos h]
  unfold Reader.value
  rw [run_bind, run_bind, hskip]

theorem opens_prettyChars {depth : Nat} {d : Json} (h : Bounded depth d) (level : Nat) :
    Opens (prettyChars level d) := by
  cases h with
  | @array _ items _ => cases items <;> exact ⟨_, _, rfl, rfl, by decide⟩
  | @object _ fields _ _ => cases fields <;> exact ⟨_, _, rfl, rfl, by decide⟩
  | null => exact opens_compactChars (.null : Bounded depth _)
  | bool value => exact opens_compactChars (.bool value : Bounded depth _)
  | integer hlow hhigh => exact opens_compactChars (.integer hlow hhigh : Bounded depth _)
  | string value => exact opens_compactChars (.string value : Bounded depth _)

/-! Arrays. -/

def behindItem (level : Nat) : List Json → List Char
  | [] => []
  | item :: items => ',' :: prettyItems level (item :: items)

theorem prettyItems_cons (level : Nat) (item : Json) (items : List Json) :
    prettyItems level (item :: items) = newLine level ++ (prettyChars level item ++ behindItem level items) := by
  cases items with
  | nil => rw [prettyItems, behindItem, List.append_nil]
  | cons item' items =>
    rw [prettyItems, behindItem, List.append_assoc]
    exact List.cons_ne_nil item' items

section Items

variable {value : Reader Json} {level : Nat} {item : Json} {items : List Json}
  (hvalue : ∀ other ∈ item :: items, ∀ rest, Ends rest →
    value.run (prettyChars level other ++ rest) = .ok (other, rest))
  (hopens : ∀ other ∈ item :: items, Opens (prettyChars level other))

include hvalue hopens

theorem run_loop_itemsRound_pretty (outer : Nat) (before : List Json) (rest : List Char) :
    (loop (itemsRound value) (fun items => (strict_itemsRound value items).advances) before).run
      (prettyChars level item ++ (behindItem level items ++ (newLine outer ++ ']' :: rest))) =
        .ok (before ++ item :: items, rest) := by
  induction items generalizing item before with
  | nil =>
    rw [List.forall_mem_singleton] at hvalue
    apply run_loop_of_done
    unfold itemsRound
    rw [behindItem, List.nil_append, run_bind_of_run (hvalue _ (.newLine _ _)),
      run_bind_of_run (run_skipBlanks_newLine rfl _ _), run_bind_of_run (run_next_cons _ _)]
    rfl
  | cons item' items ih =>
    rw [List.forall_mem_cons] at hvalue hopens
    obtain ⟨c, more, hmore, hblank, hclose⟩ := (hopens.2 item' List.mem_cons_self).append
      (behindItem level items ++ (newLine outer ++ ']' :: rest))
    have hround : (itemsRound value before).run (prettyChars level item ++ ',' :: (newLine level ++ c :: more)) =
        .ok (.again (before ++ [item]), c :: more) := by
      unfold itemsRound
      rw [run_bind_of_run (hvalue.1 _ (.cons (by decide) _)), run_bind_of_run (run_skipBlanks_cons rfl _),
        run_bind_of_run (run_next_cons _ _)]
      refine (run_bind_of_run (run_skipBlanks_newLine hblank _ _)).trans ?_
      have hfront : front.run (c :: more) = .ok (some c, c :: more) := rfl
      rw [run_bind_of_run hfront, if_neg fun heq => hclose (Option.some.inj heq)]
      rfl
    rw [behindItem, prettyItems_cons, List.cons_append, List.append_assoc, List.append_assoc, hmore,
      run_loop_of_again hround, ← hmore, ih hvalue.2 hopens.2, List.append_assoc, List.singleton_append]

theorem run_items_pretty (outer : Nat) (rest : List Char) :
    (Reader.items value).run (prettyItems level (item :: items) ++ (newLine outer ++ ']' :: rest)) =
      .ok (item :: items, rest) := by
  obtain ⟨c, more, hmore, hblank, hclose⟩ := (hopens item List.mem_cons_self).append
    (behindItem level items ++ (newLine outer ++ ']' :: rest))
  have hfront : front.run (c :: more) = .ok (some c, c :: more) := rfl
  unfold Reader.items
  rw [prettyItems_cons, List.append_assoc, List.append_assoc, hmore,
    run_bind_of_run (run_skipBlanks_newLine hblank _ _), run_bind_of_run hfront,
    if_neg fun heq => hclose (Option.some.inj heq), ← hmore, run_loop_itemsRound_pretty hvalue hopens, List.nil_append]

end Items

/-! Objects. -/

def prettyField (level : Nat) (field : String × Json) : List Char :=
  quotedString field.1 ++ ':' :: ' ' :: prettyChars level field.2

def behindField (level : Nat) : List (String × Json) → List Char
  | [] => []
  | field :: fields => ',' :: prettyFields level (field :: fields)

theorem prettyFields_cons (level : Nat) (field : String × Json) (fields : List (String × Json)) :
    prettyFields level (field :: fields) = newLine level ++ (prettyField level field ++ behindField level fields) := by
  cases fields with
  | nil => rw [prettyFields, behindField, List.append_nil, prettyField, List.append_assoc]
  | cons field' fields =>
    rw [prettyFields, behindField, prettyField]
    . simp only [List.append_assoc, List.cons_append]
    . exact List.cons_ne_nil field' fields

section Fields

variable {value : Reader Json} {level : Nat}

theorem run_fieldsRound_pretty {field : String × Json}
    (hvalue : ∀ rest, Ends rest → value.run (' ' :: (prettyChars level field.2 ++ rest)) = .ok (field.2, rest))
    (before : List (String × Json)) {blanks : List Char} (hblanks : ∀ c ∈ blanks, isBlank c = true)
    {behind rest : List Char} {mark : Char} (hends : Ends behind)
    (hbehind : skipBlanks.run behind = .ok ((), mark :: rest))
    {round : Round (List (String × Json)) (List (String × Json))}
    (hround : mark = ',' ∧ round = .again (Keyed.set field.1 field.2 before) ∨
      mark = '\x7d' ∧ round = .done (Keyed.set field.1 field.2 before)) :
    (fieldsRound value before).run (blanks ++ (prettyField level field ++ behind)) = .ok (round, rest) := by
  unfold fieldsRound prettyField quotedString
  simp only [List.cons_append, List.append_assoc, List.nil_append]
  rw [run_bind_of_run (run_skipBlanks_append hblanks rfl _), run_bind_of_run (run_next_cons _ _)]
  refine (run_bind_of_run (run_string field.1 _)).trans ?_
  rw [run_bind_of_run (run_skipBlanks_cons rfl _), run_bind_of_run (run_next_cons _ _)]
  refine (run_bind_of_run (hvalue _ hends)).trans ?_
  rcases hround with ⟨rfl, rfl⟩ | ⟨rfl, rfl⟩
  all_goals
    rw [run_bind_of_run hbehind, run_bind_of_run (run_next_cons _ _)]
    rfl

variable {field : String × Json} {fields : List (String × Json)}
  (hvalue : ∀ other ∈ field :: fields, ∀ rest, Ends rest →
    value.run (' ' :: (prettyChars level other.2 ++ rest)) = .ok (other.2, rest))

include hvalue

theorem run_loop_fieldsRound_pretty (outer : Nat) (before : List (String × Json)) {blanks : List Char}
    (hblanks : ∀ c ∈ blanks, isBlank c = true) (rest : List Char) :
    (loop (fieldsRound value) (fun fields => (strict_fieldsRound value fields).advances) before).run
      (blanks ++ (prettyField level field ++ (behindField level fields ++ (newLine outer ++ '\x7d' :: rest)))) =
        .ok ((field :: fields).foldl (fun list pair => Keyed.set pair.1 pair.2 list) before, rest) := by
  induction fields generalizing field before blanks with
  | nil =>
    rw [List.forall_mem_singleton] at hvalue
    exact run_loop_of_done (run_fieldsRound_pretty hvalue before hblanks (.newLine _ _)
      (run_skipBlanks_newLine rfl _ _) (.inr ⟨rfl, rfl⟩))
  | cons field' fields ih =>
    rw [List.forall_mem_cons] at hvalue
    have hround := run_fieldsRound_pretty hvalue.1 before hblanks (.cons (by decide) _)
      (run_skipBlanks_cons (c := ',') rfl (prettyFields level (field' :: fields) ++ (newLine outer ++ '\x7d' :: rest)))
      (.inl ⟨rfl, rfl⟩)
    rw [behindField, List.cons_append, run_loop_of_again hround, prettyFields_cons, List.append_assoc,
      List.append_assoc, ih hvalue.2 _ fun _ => isBlank_of_mem_newLine]
    rfl

theorem run_fields_pretty (outer : Nat) (hnodup : ((field :: fields).map Prod.fst).Nodup) (rest : List Char) :
    (Reader.fields value).run (prettyFields level (field :: fields) ++ (newLine outer ++ '\x7d' :: rest)) =
      .ok (field :: fields, rest) := by
  have hnone : ∀ c ∈ ([] : List Char), isBlank c = true := List.forall_mem_nil _
  have hloop := run_loop_fieldsRound_pretty hvalue outer [] hnone rest
  rw [List.nil_append, Keyed.foldl_set_of_nodup [] hnodup, List.nil_append] at hloop
  obtain ⟨more, hmore⟩ : ∃ more,
      prettyField level field ++ (behindField level fields ++ (newLine outer ++ '\x7d' :: rest)) = '"' :: more :=
    ⟨_, rfl⟩
  have hfront : front.run ('"' :: more) = .ok (some '"', '"' :: more) := rfl
  unfold Reader.fields
  rw [prettyFields_cons, List.append_assoc, List.append_assoc, hmore, run_bind_of_run (run_skipBlanks_newLine rfl _ _),
    run_bind_of_run hfront, if_neg (by decide), ← hmore, hloop]

end Fields

/-! Values. -/

theorem run_value_prettyChars {depth : Nat} {d : Json} (h : Bounded depth d) (level : Nat) {rest : List Char}
    (hrest : Ends rest) : (Reader.value depth).run (prettyChars level d ++ rest) = .ok (d, rest) := by
  induction h generalizing level rest with
  | null => exact run_value_compactChars .null hrest
  | bool value => exact run_value_compactChars (.bool value) hrest
  | integer hlow hhigh => exact run_value_compactChars (.integer hlow hhigh) hrest
  | string value => exact run_value_compactChars (.string value) hrest
  | @array depth items hitems ih =>
    cases items with
    | nil => exact run_value_compactChars (.array hitems) hrest
    | cons item items =>
      have hitemsRun := run_items_pretty
        (fun other hother _ hends => ih other hother (level + 1) hends)
        (fun other hother => opens_prettyChars (hitems other hother) (level + 1)) level rest
      change (Reader.value _).run ('[' :: prettyItems (level + 1) (item :: items) ++ newLine level ++ [']'] ++ rest) = _
      simp only [List.cons_append, List.append_assoc, List.nil_append]
      unfold Reader.value
      rw [run_bind_of_run (run_skipBlanks_cons rfl _), run_bind_of_run (run_next_cons _ _)]
      exact run_bind_of_run hitemsRun
  | @object depth fields hnodup hfields ih =>
    cases fields with
    | nil => exact run_value_compactChars (.object hnodup hfields) hrest
    | cons field fields =>
      have hvalue (other : String × Json) (hother : other ∈ field :: fields) (rest : List Char) (hends : Ends rest) :
          (Reader.value depth).run (' ' :: (prettyChars (level + 1) other.2 ++ rest)) = .ok (other.2, rest) := by
        have hblank : ∀ c ∈ [' '], isBlank c = true := List.forall_mem_singleton.2 rfl
        exact (run_value_blanks depth hblank _).trans (ih other hother (level + 1) hends)
      have hfieldsRun := run_fields_pretty hvalue level hnodup rest
      change (Reader.value _).run
        ('\x7b' :: prettyFields (level + 1) (field :: fields) ++ newLine level ++ ['\x7d'] ++ rest) = _
      simp only [List.cons_append, List.append_assoc, List.nil_append]
      unfold Reader.value
      rw [run_bind_of_run (run_skipBlanks_cons rfl _), run_bind_of_run (run_next_cons _ _)]
      exact run_bind_of_run hfieldsRun

theorem parse_pretty {d : Json} (h : Bounded maxDepth d) : parse (d.pretty ++ "\n") = .ok d := by
  have hread := run_value_prettyChars h 0 (.cons (c := '\n') (by decide) [])
  have hskip : skipBlanks.run ['\n'] = .ok ((), []) := rfl
  have hfront : front.run [] = .ok (none, []) := rfl
  have hwhole : parse.whole.run (prettyChars 0 d ++ ['\n']) = .ok (d, []) := by
    unfold parse.whole
    rw [run_bind_of_run hread, run_bind_of_run hskip, run_bind_of_run hfront]
    rfl
  have htext : (d.pretty ++ "\n").toList = prettyChars 0 d ++ ['\n'] := by
    rw [String.toList_append, pretty, String.toList_ofList]
    rfl
  rw [parse, htext, hwhole]
  rfl

end LexiconAudit.Json
