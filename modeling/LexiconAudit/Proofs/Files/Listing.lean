import LexiconAudit.Proofs.Files.Paths
import LexiconAudit.Proofs.Files.Writing

/-!
This module contains what is read at the path of something inside a directory: it depends on that entry and the
path alone, wherever the directory is and whatever else is inside.
-/

namespace LexiconAudit.Files

structure IsListing (inside : Directory) : Prop where
  nodup : (inside.map Prod.fst).Nodup
  plain : ∀ entry ∈ inside, '/' ∉ entry.1.toList

namespace Tree

theorem way_of_follow {tree : Tree} {here goal : Place} {segments : List String} {outer inside : Directory}
    (hhere : tree.get? here = some (.directory outer))
    (h : tree.follow (here, .directory outer) segments = .ok (goal, .directory inside)) :
    Way tree here segments goal ∧ tree.get? goal = some (.directory inside) := by
  induction segments generalizing here outer with
  | nil =>
    cases h
    exact ⟨.here _, hhere⟩
  | cons segment segments ih =>
    obtain ⟨⟨there, entry⟩, hlook, hmore⟩ := bind_eq_ok_iff.1 h
    cases entry with
    | directory inner =>
      obtain ⟨hway, hgoal⟩ := ih (look_eq_ok_iff.1 hlook).2.2 hmore
      exact ⟨.step hlook hway, hgoal⟩
    | file content executable => cases segments <;> cases hmore

section Inside

variable {tree : Tree} {directory name : String} {place : Place} {inside : Directory}
  (h : tree.find directory = .ok (place, .directory inside))

include h

theorem way_of_find : Way tree (origin directory) (segments directory) place ∧
    tree.get? place = some (.directory inside) := by
  obtain ⟨hpath, hfollow⟩ := bind_unit_eq_ok_iff.1 h
  split at hfollow
  . cases hfollow
  . exact way_of_follow (get?_origin tree directory) hfollow

theorem get?_inside (name : String) : tree.get? (place.inside name) = inside.lookup name := by
  change tree.get? (place.below [name]) = _
  rw [get?_below, (way_of_find h).2]
  cases hlookup : inside.lookup name with
  | none => simp [Entry.get?, hlookup]
  | some entry => simp [Entry.get?, hlookup]

theorem find_join (hlead : lead directory = segments directory) (hplain : '/' ∉ name.toList) (hne : name ≠ "") :
    tree.find (join directory name) =
      (checkPath (join directory name)).bind fun _ => tree.look place name := by
  cases hpath : checkPath (join directory name) with
  | error fault =>
    rw [find, hpath]
    rfl
  | ok =>
    obtain ⟨hway, -⟩ := way_of_find h
    obtain ⟨inside', -, hfollow⟩ := hway.follow_eq (get?_origin tree directory) [name]
    rw [find_eq_follow hpath (join_ne_empty hplain hne directory), segments_join hplain, hlead,
      origin_join hplain, hfollow, follow]
    exact bind_pure _

theorem readText_join_congr {tree' : Tree} {place' : Place} {inside' : Directory}
    (h' : tree'.find directory = .ok (place', .directory inside')) (hlead : lead directory = segments directory)
    (hplain : '/' ∉ name.toList) (hname : isName name = true) (hentry : inside.lookup name = inside'.lookup name) :
    tree.readText (join directory name) = tree'.readText (join directory name) := by
  have hne : name ≠ "" := by
    rintro rfl
    cases hname
  unfold readText readBytes
  rw [find_join h hlead hplain hne, find_join h' hlead hplain hne]
  unfold look Place.next
  rw [if_pos hname, if_pos hname, get?_inside h, get?_inside h', hentry]
  cases checkPath (join directory name) with
  | error fault => rfl
  | ok =>
    by_cases hlong : isName name = true ∧ nameLimit < name.utf8ByteSize
    . rw [if_pos hlong, if_pos hlong]
    . rw [if_neg hlong, if_neg hlong]
      cases inside'.lookup name with
      | none => rfl
      | some entry => cases entry <;> rfl

end Inside

end Tree

end LexiconAudit.Files
