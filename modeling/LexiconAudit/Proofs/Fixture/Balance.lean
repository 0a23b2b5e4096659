import LexiconAudit.Proofs.Fixture.Acceptance
import LexiconAudit.Proofs.Fixture.Closing

/-!
This module contains what the phrases of the grammar do to the brackets that are open: the tokens of a value close
all brackets that they open, so that the same ones are open in front of them and behind them.
-/

namespace LexiconAudit.Fixture

open Grammar Reading
open Reader hiding lexicon notes object sense entry note reply message senses fixture

variable {α : Type}

/-! Phrases whose tokens are nested. -/

def CommentFree (ks : List Kind) : Prop :=
  ∀ k ∈ ks, k.isComment = false

theorem CommentFree.otherKinds_eq {ks : List Kind} (h : CommentFree ks) : otherKinds ks = ks :=
  List.filter_eq_self.2 fun k hk => by simp [h k hk]

theorem commentFree_append {ks ks' : List Kind} : CommentFree (ks ++ ks') ↔ CommentFree ks ∧ CommentFree ks' :=
  List.forall_mem_append

theorem commentFree_cons {k : Kind} {ks : List Kind} : CommentFree (k :: ks) ↔ k.isComment = false ∧ CommentFree ks :=
  List.forall_mem_cons

theorem CommentFree.eq_nil {bodies : List String} (h : CommentFree (bodies.map .comment)) : bodies = [] := by
  cases bodies with
  | nil => rfl
  | cons body bodies => cases (commentFree_cons.1 h).1

def Balanced (phrase : Phrase α) : Prop :=
  ∀ ⦃ks a⦄, phrase ks a → CommentFree ks → Nested 0 ks 0

theorem balanced_of_accepts {phrase : Phrase α} {r : Reader α} (h : Accepts phrase r) (hr : Spans r 0 0) :
    Balanced phrase := by
  intro ks a hphrase hfree
  have hkinds : (ks.map (⟨·, Text.Position.start⟩ : Kind → Token)).map Token.kind = ks := by
    simp [Function.comp_def]
  have hrun := h (hkinds.symm ▸ hphrase) [] Text.Position.start
  rw [List.append_nil] at hrun
  obtain ⟨ks', hks', htaken⟩ := hr hrun
  rw [Unread.whole, Unread.kinds, hkinds, List.map_nil, List.nil_append, hfree.otherKinds_eq] at htaken
  rw [htaken]
  simpa [Unread.whole, Unread.kinds, otherKinds] using hks'

theorem Balanced.separated {item : Phrase α} (hitem : Balanced item) {ks : List Kind} {as : List α}
    (h : Separated item ks as) (hfree : CommentFree ks) : Nested 1 ks 1 := by
  induction h with
  | none => exact .nil 1
  | last h => exact (hitem h hfree).succ
  | next h _ ih =>
    obtain ⟨hks, hks'⟩ := commentFree_append.1 hfree
    exact (hitem h hks).succ.append (.cons (.joining rfl) (ih (commentFree_cons.1 hks').2))

theorem Balanced.listed {item : Phrase α} (hitem : Balanced item) : Balanced (Listed item) := by
  intro ks as h hfree
  obtain ⟨h⟩ := h
  have hinner := (commentFree_append.1 (commentFree_cons.1 hfree).2).1
  exact .cons (.opening (.inr rfl)) ((hitem.separated h hinner).append (.cons (.closing (.inr rfl)) (.nil 0)))

theorem balanced_value : Balanced Value :=
  balanced_of_accepts accepts_skip spans_skip

theorem balanced_writingSystemValue : Balanced WritingSystemValue :=
  balanced_of_accepts accepts_writingSystemValue spans_writingSystemValue

theorem balanced_sense : Balanced Sense :=
  balanced_of_accepts accepts_sense spans_sense

theorem balanced_entry : Balanced Entry :=
  balanced_of_accepts accepts_entry spans_entry

theorem balanced_note : Balanced Note :=
  balanced_of_accepts accepts_note spans_note

theorem balanced_part : Balanced Grammar.Part :=
  balanced_of_accepts (r := sectionObject []) (fun _ _ h rest stop => run_sectionObject h [] rest stop)
    (spans_sectionObject [])

theorem balanced_senseProperty (name : String) : Balanced (Known SenseProperty name) := by
  rintro ks nodes ⟨p, -, h⟩ hfree
  cases h with
  | definition h => exact balanced_writingSystemValue h hfree
  | gloss h => exact balanced_writingSystemValue h hfree
  | partOfSpeech h => exact balanced_value h hfree

theorem balanced_entryProperty (name : String) : Balanced (Known EntryProperty name) := by
  rintro ks part ⟨p, -, h⟩ hfree
  cases h with
  | lexeme h => exact balanced_writingSystemValue h hfree
  | senses h => exact balanced_sense.listed h hfree

theorem balanced_sectionProperty (name : String) : Balanced (Known SectionProperty name) := by
  rintro ks node ⟨p, -, h⟩ hfree
  cases h with
  | lexicon h => exact balanced_entry.listed h hfree
  | notes h => exact balanced_note.listed h hfree

end LexiconAudit.Fixture
