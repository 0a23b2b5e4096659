import LexiconAudit.Files.Change
import Mathlib.Logic.Basic

/-!
This module contains what is at a place after something has been put into a directory: the new entry is
there, everything else in that directory is as it was, and all directories are still there.
-/

namespace LexiconAudit.Files

/-! Names that lead down. -/

namespace Entry

theorem get?_append (entry : Entry) (names more : List String) :
    entry.get? (names ++ more) = (entry.get? names).bind (get? more) := by
  induction names generalizing entry with
  | nil => rfl
  | cons name names ih =>
    cases entry with
    | file content executable => rfl
    | directory inside =>
      rw [List.cons_append, get?, get?, Option.bind_assoc]
      exact Option.bind_congr fun inner _ => ih inner

theorem get?_of_append {entry found : Entry} {names more : List String} (hmore : more ≠ [])
    (h : entry.get? (names ++ more) = some found) : ∃ inside, entry.get? names = some (.directory inside) := by
  rw [get?_append] at h
  obtain ⟨middle, hmiddle, hfound⟩ := Option.bind_eq_some_iff.1 h
  cases middle with
  | directory inside => exact ⟨inside, hmiddle⟩
  | file content executable =>
    obtain ⟨name, more, rfl⟩ := List.exists_cons_of_ne_nil hmore
    cases hfound

end Entry

namespace Directory

theorem lookup_change (f : Directory → Directory) (name : String) (names : List String) (directory : Directory)
    (other : String) : (change f (name :: names) directory).lookup other =
      (directory.lookup other).map fun
        | .directory inside => .directory (if other = name then change f names inside else inside)
        | file => file := by
  induction directory with
  | nil => rfl
  | cons pair directory ih =>
    obtain ⟨key, entry⟩ := pair
    rw [change, List.map_cons, ← change]
    by_cases hkey : other = key
    . subst hkey
      cases entry <;> simp
    . have hne : (other == key) = false := by simpa using hkey
      cases entry <;> simp [List.lookup_cons, hne, ih]

end Directory

namespace Entry

theorem get?_change {names : List String} {directory inside : Directory}
    (h : (Entry.directory directory).get? names = some (.directory inside)) (f : Directory → Directory)
    (more : List String) : (Entry.directory (Directory.change f names directory)).get? (names ++ more) =
      (Entry.directory (f inside)).get? more := by
  induction names generalizing directory with
  | nil =>
    cases h
    rfl
  | cons name names ih =>
    rw [get?, Option.bind_eq_some_iff] at h
    obtain ⟨entry, hlookup, hentry⟩ := h
    rw [List.cons_append, get?, Directory.lookup_change, hlookup]
    cases entry with
    | directory inner =>
      rw [Option.map_some, Option.bind_some]
      dsimp only
      rw [if_pos rfl]
      exact ih hentry
    | file content executable => cases names <;> cases hentry

theorem get?_change_of_not_leading {names others : List String} (hleads : ¬ names <+: others)
    {directory inside : Directory} (h : (Entry.directory directory).get? others = some (.directory inside))
    (f : Directory → Directory) :
    ∃ inside', (Entry.directory (Directory.change f names directory)).get? others = some (.directory inside') := by
  induction names generalizing directory others with
  | nil => exact absurd List.nil_prefix hleads
  | cons name names ih =>
    cases others with
    | nil => exact ⟨_, rfl⟩
    | cons other others =>
      rw [get?, Option.bind_eq_some_iff] at h
      obtain ⟨entry, hlookup, hentry⟩ := h
      rw [get?, Directory.lookup_change, hlookup]
      cases entry with
      | file content executable => exact ⟨inside, hentry⟩
      | directory inner =>
        rw [Option.map_some, Option.bind_some]
        dsimp only
        by_cases hname : other = name
        . rw [if_pos hname]
          apply ih _ hentry
          rw [List.cons_prefix_cons] at hleads
          exact fun hrest => hleads ⟨hname.symm, hrest⟩
        . rw [if_neg hname]
          exact ⟨inside, hentry⟩

end Entry

/-! Places. -/

def Place.below (place : Place) (names : List String) : Place :=
  { place with names := place.names ++ names }

namespace Tree

theorem top_eq (tree : Tree) (base? : Option Nat) :
    tree.top base? = (@List.lookup _ _ instBEqOfDecidableEq base? tree.tops).getD [] := by
  rw [lawful_beq_subsingleton (instBEqOfDecidableEq : BEq (Option Nat)) Option.instBEq]
  rfl

theorem top_change (tree : Tree) (place : Place) (f : Directory → Directory) (base? : Option Nat) :
    (tree.change place f).top base? =
      if base? = place.base? then Directory.change f place.names (tree.top base?) else tree.top base? := by
  rw [top_eq, top_eq, change]
  dsimp only
  split
  . next h =>
    rw [h, Keyed.lookup_alter_self]
    rfl
  . next h => rw [Keyed.lookup_alter_of_ne h]

theorem get?_below (tree : Tree) (place : Place) (names : List String) :
    tree.get? (place.below names) = (tree.get? place).bind (Entry.get? names) :=
  Entry.get?_append _ _ _

section Put

variable {tree : Tree} {place : Place} {inside : Directory} (h : tree.get? place = some (.directory inside))
  (name : String) (entry : Entry)

include h

theorem get?_put_below (names : List String) : (tree.put place name entry).get? (place.below names) =
    (Entry.directory (Keyed.set name entry inside)).get? names := by
  unfold get? put
  rw [top_change]
  change (Entry.directory (if place.base? = place.base? then _ else _)).get? (place.names ++ names) = _
  rw [if_pos rfl]
  exact Entry.get?_change h _ names

theorem get?_put_self :
    (tree.put place name entry).get? place = some (.directory (Keyed.set name entry inside)) := by
  have hbelow := get?_put_below h name entry []
  rwa [show place.below [] = place by simp [Place.below], Entry.get?] at hbelow

theorem get?_put_inside : (tree.put place name entry).get? (place.inside name) = some entry := by
  have hbelow := get?_put_below h name entry [name]
  rw [Entry.get?, Keyed.set, Keyed.lookup_alter_self] at hbelow
  exact hbelow

theorem get?_put_of_ne {other : String} (hne : other ≠ name) (names : List String) :
    (tree.put place name entry).get? (place.below (other :: names)) =
      tree.get? (place.below (other :: names)) := by
  rw [get?_put_below h name entry, get?_below, h, Option.bind_some, Entry.get?, Entry.get?, Keyed.set,
    Keyed.lookup_alter_of_ne hne]

end Put

def KeepsDirectories (tree tree' : Tree) : Prop :=
  ∀ place inside, tree.get? place = some (.directory inside) →
    ∃ inside', tree'.get? place = some (.directory inside')

theorem KeepsDirectories.refl (tree : Tree) : KeepsDirectories tree tree :=
  fun _ inside h => ⟨inside, h⟩

theorem KeepsDirectories.trans {tree tree' tree'' : Tree} (h : KeepsDirectories tree tree')
    (h' : KeepsDirectories tree' tree'') : KeepsDirectories tree tree'' := by
  intro place inside hplace
  obtain ⟨inside', hplace'⟩ := h place inside hplace
  exact h' place inside' hplace'

theorem keepsDirectories_put {tree : Tree} {place : Place} {inside : Directory}
    (h : tree.get? place = some (.directory inside)) {name : String}
    (hname : ∀ inner, tree.get? (place.inside name) ≠ some (.directory inner)) (entry : Entry) :
    KeepsDirectories tree (tree.put place name entry) := by
  intro other inner hother
  -- only what is below the directory can be different, and of that only what is below the name
  by_cases hleads : other.base? = place.base? ∧ place.names <+: other.names
  . obtain ⟨hbase, names, hnames⟩ := hleads
    obtain rfl : other = place.below names := by
      cases other
      simp_all [Place.below]
    cases names with
    | nil => exact ⟨_, get?_put_below h name entry []⟩
    | cons first names =>
      have hne : first ≠ name := by
        rintro rfl
        -- a directory below the name would make a directory of what was there
        have hinside : tree.get? ((place.inside first).below names) = some (.directory inner) := by
          simpa [Place.below, Place.inside] using hother
        cases names with
        | nil => exact hname inner (by simpa [Place.below] using hinside)
        | cons second names =>
          obtain ⟨inner', hinner'⟩ := Entry.get?_of_append (List.cons_ne_nil second names) hinside
          exact hname inner' hinner'
      rw [get?_put_of_ne h name entry hne]
      exact ⟨inner, hother⟩
  . unfold get? put
    rw [top_change]
    split
    . next hbase =>
      exact Entry.get?_change_of_not_leading (fun hnames => hleads ⟨hbase, hnames⟩) hother _
    . exact ⟨inner, hother⟩

end Tree

end LexiconAudit.Files
