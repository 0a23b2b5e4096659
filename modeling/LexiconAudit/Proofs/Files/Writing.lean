import LexiconAudit.Proofs.Checking
import LexiconAudit.Proofs.Files.Places
import LexiconAudit.Proofs.Text.Utf8

/-!
This module contains what is read after a file has been written: paths that lead through directories do so
until one of the directories is gone, the file that was written is at the end of its path, and the files in
other directories are as they were.
-/

namespace LexiconAudit.Files.Tree

/-! Ways through directories. -/

theorem look_eq_ok_iff {tree : Tree} {here there : Place} {segment : String} {entry : Entry} :
    tree.look here segment = .ok (there, entry) ↔
      ¬ (isName segment = true ∧ nameLimit < segment.utf8ByteSize) ∧ here.next segment = there ∧
        tree.get? there = some entry := by
  unfold look
  split
  . next h => simp [h]
  . next h =>
    cases hget : tree.get? (here.next segment) with
    | none =>
      simp only [reduceCtorEq, false_iff, not_and, h, not_false_eq_true, true_implies]
      rintro rfl hentry
      cases hget.symm.trans hentry
    | some found =>
      simp only [Except.ok.injEq, Prod.mk.injEq, h, not_false_eq_true, true_and]
      refine and_congr_right ?_
      rintro rfl
      rw [hget, Option.some_inj]

/--
The parts of a path lead from one directory to another, through directories only.
-/
inductive Way (tree : Tree) : Place → List String → Place → Prop where
  | here (place : Place) : Way tree place [] place
  | step {here there goal : Place} {segment : String} {segments : List String} {inside : Directory} :
    tree.look here segment = .ok (there, .directory inside) → Way tree there segments goal →
      Way tree here (segment :: segments) goal

theorem Way.append {tree : Tree} {here there goal : Place} {segments more : List String}
    (h : Way tree here segments there) (h' : Way tree there more goal) :
    Way tree here (segments ++ more) goal := by
  induction h with
  | here => exact h'
  | step hlook _ ih => exact .step hlook (ih h')

theorem Way.of_append {tree : Tree} {here goal : Place} {segments more : List String}
    (h : Way tree here (segments ++ more) goal) :
    ∃ there, Way tree here segments there ∧ Way tree there more goal := by
  induction segments generalizing here with
  | nil => exact ⟨here, .here here, h⟩
  | cons segment segments ih =>
    cases h with
    | step hlook hway =>
      obtain ⟨there, hsegments, hmore⟩ := ih hway
      exact ⟨there, .step hlook hsegments, hmore⟩

theorem Way.mono {tree tree' : Tree} (hkeeps : KeepsDirectories tree tree') {here goal : Place}
    {segments : List String} (h : Way tree here segments goal) : Way tree' here segments goal := by
  induction h with
  | here place => exact .here place
  | step hlook _ ih =>
    obtain ⟨hname, hnext, hget⟩ := look_eq_ok_iff.1 hlook
    obtain ⟨inside', hinside'⟩ := hkeeps _ _ hget
    exact .step (look_eq_ok_iff.2 ⟨hname, hnext, hinside'⟩) ih

theorem Way.exists_directory {tree : Tree} {here goal : Place} {segments : List String} {inside : Directory}
    (h : Way tree here segments goal) (hhere : tree.get? here = some (.directory inside)) :
    ∃ inside', tree.get? goal = some (.directory inside') := by
  induction h generalizing inside with
  | here => exact ⟨inside, hhere⟩
  | step hlook _ ih => exact ih (look_eq_ok_iff.1 hlook).2.2

theorem Way.follow_eq {tree : Tree} {here goal : Place} {segments : List String} {inside : Directory}
    (h : Way tree here segments goal) (hhere : tree.get? here = some (.directory inside)) (more : List String) :
    ∃ inside', tree.get? goal = some (.directory inside') ∧
      tree.follow (here, .directory inside) (segments ++ more) =
        tree.follow (goal, .directory inside') more := by
  induction h generalizing inside with
  | here => exact ⟨inside, hhere, rfl⟩
  | step hlook _ ih =>
    obtain ⟨inside', hgoal, hfollow⟩ := ih (look_eq_ok_iff.1 hlook).2.2
    refine ⟨inside', hgoal, ?_⟩
    rw [List.cons_append, follow, hlook]
    exact hfollow

theorem Way.eq_below {tree : Tree} {here goal : Place} {names : List String}
    (h : Way tree here names goal) (hnames : ∀ name ∈ names, isName name = true) : goal = here.below names := by
  induction h with
  | here place => simp [Place.below]
  | step hlook _ ih =>
    rw [List.forall_mem_cons] at hnames
    obtain ⟨-, hnext, -⟩ := look_eq_ok_iff.1 hlook
    rw [ih hnames.2, ← hnext, Place.next, if_pos hnames.1]
    simp [Place.below, Place.inside]

/-! Making directories. -/

theorem get?_around {tree : Tree} {place : Place} {entry : Entry} (h : tree.get? place = some entry) :
    ∃ inside, tree.get? place.around = some (.directory inside) := by
  unfold Place.around
  split
  . next hempty => exact ⟨_, by rw [get?, List.isEmpty_iff.1 hempty]; rfl⟩
  . next hne =>
    have hne : place.names ≠ [] := by simpa using hne
    rw [get?, ← List.dropLast_append_getLast hne] at h
    exact Entry.get?_of_append (List.cons_ne_nil _ _) h

theorem next_of_not_found {tree : Tree} {here : Place} {segment : String} {inside : Directory}
    (hhere : tree.get? here = some (.directory inside)) (h : tree.look here segment = .error .notFound) :
    here.next segment = here.inside segment ∧ tree.get? (here.inside segment) = none ∧
      ¬ (isName segment = true ∧ nameLimit < segment.utf8ByteSize) := by
  unfold look at h
  split at h
  . cases h
  next hshort =>
  split at h
  . next hnone =>
    unfold Place.next at hnone ⊢
    split at hnone
    . next hname =>
      rw [if_pos hname]
      exact ⟨rfl, hnone, hshort⟩
    . split at hnone
      . obtain ⟨inside', hinside'⟩ := get?_around hhere
        cases hnone.symm.trans hinside'
      . cases hnone.symm.trans hhere
  . cases h

theorem makeWay_way {tree tree' : Tree} {here there : Place} {inside : Directory} {segments : List String}
    (hhere : tree.get? here = some (.directory inside))
    (h : tree.makeWay here segments = .ok (tree', there)) :
    KeepsDirectories tree tree' ∧ Way tree' here segments there := by
  induction segments generalizing tree here inside with
  | nil =>
    cases h
    exact ⟨.refl _, .here _⟩
  | cons segment segments ih =>
    unfold makeWay at h
    split at h
    . next there' inside' hlook =>
      obtain ⟨hname, hnext, hget⟩ := look_eq_ok_iff.1 hlook
      obtain ⟨hkeeps, hway⟩ := ih hget h
      obtain ⟨inside'', hinside''⟩ := hkeeps _ _ hget
      exact ⟨hkeeps, .step (look_eq_ok_iff.2 ⟨hname, hnext, hinside''⟩) hway⟩
    . cases h
    . next hlook =>
      obtain ⟨hnext, hnone, hname⟩ := next_of_not_found hhere hlook
      have hput := get?_put_inside hhere segment (.directory [])
      obtain ⟨hkeeps, hway⟩ := ih hput h
      obtain ⟨inside', hinside'⟩ := hkeeps _ _ hput
      refine ⟨.trans (keepsDirectories_put hhere (by simp [hnone]) _) hkeeps, ?_⟩
      exact .step (look_eq_ok_iff.2 ⟨hname, hnext, hinside'⟩) hway
    . cases h

theorem Way.makeWay_eq {tree : Tree} {here goal : Place} {segments : List String}
    (h : Way tree here segments goal) : tree.makeWay here segments = .ok (tree, goal) := by
  induction h with
  | here => rfl
  | step hlook _ ih =>
    rw [makeWay, hlook]
    exact ih

/-! Finding and reading. -/

theorem get?_origin (tree : Tree) (path : String) :
    tree.get? (origin path) = some (.directory (tree.top (origin path).base?)) := by
  unfold origin
  split <;> rfl

section Find

variable {tree : Tree} {path : String} (hpath : checkPath path = .ok ()) (hne : path ≠ "")

include hpath hne

theorem find_eq_follow : tree.find path =
    tree.follow (origin path, .directory (tree.top (origin path).base?)) (segments path) := by
  unfold find
  rw [hpath, if_neg (by simpa using hne)]
  rfl

theorem find_of_way {goal : Place} (h : Way tree (origin path) (segments path) goal) :
    ∃ inside, tree.get? goal = some (.directory inside) ∧ tree.find path = .ok (goal, .directory inside) := by
  obtain ⟨inside, hgoal, hfollow⟩ := h.follow_eq (get?_origin tree path) []
  rw [List.append_nil] at hfollow
  exact ⟨inside, hgoal, (find_eq_follow hpath hne).trans hfollow⟩

theorem find_of_look {around place : Place} {before : List String} {name : String} {entry : Entry}
    (hsegments : segments path = before ++ [name]) (hway : Way tree (origin path) before around)
    (hlook : tree.look around name = .ok (place, entry)) : tree.find path = .ok (place, entry) := by
  obtain ⟨inside, -, hfollow⟩ := hway.follow_eq (get?_origin tree path) [name]
  rw [find_eq_follow hpath hne, hsegments, hfollow, follow, hlook]
  rfl

end Find

theorem isFile_of_find {tree : Tree} {path : String} {place : Place} {content : Content} {executable : Bool}
    (h : tree.find path = .ok (place, .file content executable)) : tree.isFile path = true := by
  rw [isFile, h]

theorem readText_of_find {tree : Tree} {path text : String} {place : Place} {executable : Bool}
    (h : tree.find path = .ok (place, .file (.plain (Text.Utf8.encode text)) executable)) :
    tree.readText path = .ok text := by
  have hbytes : tree.readBytes path = .ok (Text.Utf8.encode text) := by
    rw [readBytes, h]
    rfl
  unfold readText
  refine bind_eq_ok_iff.2 ⟨_, hbytes, ?_⟩
  rw [Text.Utf8.decode?_encode]

theorem list_of_find {tree : Tree} {path : String} {place : Place} {inside : Directory}
    (h : tree.find path = .ok (place, .directory inside)) : tree.list path = .ok (inside.map Prod.fst) := by
  rw [list, h]
  rfl

/-! Writing. -/

structure Written (tree tree' : Tree) (around : Place) (name : String) (content : Content) : Prop where
  short : ¬ (isName name = true ∧ nameLimit < name.utf8ByteSize)
  free : ∀ inside, tree.get? (around.inside name) ≠ some (.directory inside)
  put : ∃ executable, tree' = tree.put around name (.file content executable)

theorem written_of_write {tree tree' : Tree} {path name : String} {content : Content} {before : List String}
    {around : Place} (h : tree.write path content = .ok tree') (hsegments : segments path = before ++ [name])
    (hname : isName name = true) (hway : Way tree (origin path) before around) :
    checkPath path = .ok () ∧ Written tree tree' around name content := by
  unfold write at h
  rw [bind_unit_eq_ok_iff, hsegments, List.dropLast_concat, List.getLast?_concat, hway.makeWay_eq] at h
  obtain ⟨hpath, h⟩ := h
  refine ⟨hpath, ?_⟩
  obtain ⟨⟨_, _⟩, heq, h⟩ := bind_eq_ok_iff.1 h
  cases heq
  have hnext : around.next name = around.inside name := if_pos hname
  dsimp only [Option.getD_some] at h
  split at h
  . next place _ executable hlook =>
    obtain ⟨hshort, hplace, hget⟩ := look_eq_ok_iff.1 hlook
    rw [← hplace, hnext] at hget
    cases h
    exact ⟨hshort, by simp [hget], executable, rfl⟩
  . cases h
  . next hlook =>
    obtain ⟨inside, haround⟩ := hway.exists_directory (get?_origin tree path)
    obtain ⟨-, hnone, hshort⟩ := next_of_not_found haround hlook
    cases h
    exact ⟨hshort, by simp [hnone], false, rfl⟩
  . cases h

/-! What is found after a write. -/

section Written

variable {tree tree' : Tree} {around : Place} {name : String} {content : Content} {inside : Directory}
  (h : Written tree tree' around name content) (haround : tree.get? around = some (.directory inside))

include h haround

theorem Written.keepsDirectories : KeepsDirectories tree tree' := by
  obtain ⟨executable, rfl⟩ := h.put
  exact keepsDirectories_put haround h.free _

theorem Written.find_eq {path : String} {before : List String} (hpath : checkPath path = .ok ()) (hne : path ≠ "")
    (hsegments : segments path = before ++ [name]) (hname : isName name = true)
    (hway : Way tree (origin path) before around) :
    ∃ executable, tree'.find path = .ok (around.inside name, .file content executable) := by
  have hway' := hway.mono (h.keepsDirectories haround)
  obtain ⟨executable, rfl⟩ := h.put
  refine ⟨executable, find_of_look hpath hne hsegments hway' ?_⟩
  exact look_eq_ok_iff.2 ⟨h.short, if_pos hname, get?_put_inside haround name _⟩

theorem Written.get?_of_ne {other : String} (hother : other ≠ name) (names : List String) :
    tree'.get? (around.below (other :: names)) = tree.get? (around.below (other :: names)) := by
  obtain ⟨executable, rfl⟩ := h.put
  exact get?_put_of_ne haround name _ hother names

theorem Written.get?_inside : ∃ executable,
    tree'.get? (around.inside name) = some (.file content executable) := by
  obtain ⟨executable, rfl⟩ := h.put
  exact ⟨executable, get?_put_inside haround name _⟩

theorem Written.get?_around : ∃ executable,
    tree'.get? around = some (.directory (Keyed.set name (.file content executable) inside)) := by
  obtain ⟨executable, rfl⟩ := h.put
  exact ⟨executable, get?_put_self haround name _⟩

end Written

end LexiconAudit.Files.Tree
