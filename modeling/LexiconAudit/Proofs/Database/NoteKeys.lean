import LexiconAudit.Proofs.Database.Order
import LexiconAudit.Proofs.Database.Stored
import LexiconAudit.Proofs.Fixture.Citations
import LexiconAudit.Proofs.Text.Search
import Mathlib.Data.List.TakeWhile

/-!
This module contains which notes are looked for under what they are about. A note stores its text behind the mark
of a label, and the key is cut out of a reference between the last such mark and the next `&`. A text that has
neither of the two in it is its own key, and no other text is.
-/

namespace LexiconAudit.Database

open Fixture (noteTargets)
open Text (afterLast? afterLast?_eq_none_iff suffix_of_afterLast?)

/-! Keys. -/

def labelKey (text : String) : String :=
  String.ofList (((afterLast? Node.labelMark.toList text.toList).getD text.toList).takeWhile (· ≠ '&'))

/--
A text in which nothing can be taken for the end of a mark or of a label.
-/
def Unmistakable (text : String) : Prop :=
  '&' ∉ text.toList ∧ ¬Node.labelMark.toList <:+: text.toList

theorem afterLast?_labelMark_append (cs : List Char) :
    afterLast? Node.labelMark.toList (Node.labelMark.toList ++ cs) =
      some ((afterLast? Node.labelMark.toList cs).getD cs) := by
  rw [← Option.or_some]
  simp [Node.labelMark, afterLast?, Text.afterMark?]

theorem targetKey?_of_labelMark {note : Node} {text : String}
    (h : note.attribute? Node.referenceKey = some (Node.labelMark ++ text)) :
    note.targetKey? = some (labelKey text) := by
  unfold Node.targetKey?
  rw [h, Option.map_some]
  dsimp only
  rw [String.toList_append, afterLast?_labelMark_append]
  rfl

theorem labelKey_eq_self_iff {text : String} : labelKey text = text ↔ Unmistakable text := by
  unfold labelKey Unmistakable
  rw [← afterLast?_eq_none_iff, ← String.toList_inj, String.toList_ofList]
  cases hlast : afterLast? Node.labelMark.toList text.toList with
  | none =>
    simp only [Option.getD_none, List.takeWhile_eq_self_iff, decide_eq_true_eq, and_true]
    exact ⟨fun hall hmem => hall _ hmem rfl, fun hnot c hc heq => hnot (heq ▸ hc)⟩
  | some rest =>
    -- the mark is lost, so that the key is too short
    have hlength := (suffix_of_afterLast? hlast).length_le
    have hkey := (List.takeWhile_prefix (p := (· ≠ '&')) (l := rest)).length_le
    rw [List.length_append] at hlength
    have hmark : 0 < Node.labelMark.toList.length := by decide
    refine iff_of_false (fun heq => ?_) (by simp)
    have := congrArg List.length heq
    rw [Option.getD_some] at this
    omega

/-! Notes and the comments that they are looked for among. -/

theorem exists_mem_zipWith {r : Json → String → Prop} {documents : List Json} {keys : List String}
    (h : List.Forall₂ r documents keys) {document : Json} (hmem : document ∈ documents) :
    ∃ key, r document key ∧ ⟨key, document⟩ ∈ List.zipWith OpenComment.mk keys documents := by
  induction h with
  | nil => cases hmem
  | cons hr _ ih =>
    rcases List.mem_cons.1 hmem with rfl | hmem
    . exact ⟨_, hr, List.mem_cons_self⟩
    . obtain ⟨key, hr, hkey⟩ := ih hmem
      exact ⟨key, hr, List.mem_cons_of_mem _ hkey⟩

theorem mem_openComments_of_word {store : Store} {database : String} {comments : List OpenComment}
    (h : openComments store database = .ok comments) {documents : List Json}
    (hdocuments : fetch store database commentsCollection = .ok documents) {comment : Json}
    (hlive : comment ∈ liveDocuments documents) {word : String} (hword : HasTarget comment (.word word)) :
    ⟨word, comment⟩ ∈ comments := by
  unfold openComments at h
  rw [hdocuments] at h
  obtain ⟨ts, hts, h⟩ := bind_eq_ok_iff.1 (show (targets 0 (liveDocuments documents) >>= _) = _ from h)
  obtain ⟨index, keys, hkeys, rfl⟩ : ∃ index keys, ts.mapM (Target.key index) = .ok keys ∧
      comments = List.zipWith OpenComment.mk keys (liveDocuments documents) := by
    dsimp only at h
    split at h
    . obtain ⟨_, -, h⟩ := bind_eq_ok_iff.1 h
      obtain ⟨index, -, h⟩ := bind_eq_ok_iff.1 h
      obtain ⟨keys, hkeys, h⟩ := bind_eq_ok_iff.1 h
      cases h
      exact ⟨index, keys, hkeys, rfl⟩
    . obtain ⟨index, -, h⟩ := bind_eq_ok_iff.1 h
      obtain ⟨keys, hkeys, h⟩ := bind_eq_ok_iff.1 h
      cases h
      exact ⟨index, keys, hkeys, rfl⟩
  rw [targets_eq_ok_iff] at hts
  rw [mapM_eq_ok_iff] at hkeys
  obtain ⟨key, ⟨t, htarget, hkey⟩, hmem⟩ := exists_mem_zipWith (forall₂_exists_iff.2 ⟨ts, hts, hkeys⟩) hlive
  cases htarget.unique hword
  cases hkey
  exact hmem

/--
What a text means for the note that is about it. The key is what is left of the text, and that is the text itself
if and only if it is unmistakable. A live comment on the word that the text is has the key of the note in the same
case only.
-/
structure KeyedBy (text : Option String) (note : Node) : Prop where
  key : note.targetKey? = text.map labelKey
  same : ∀ word ∈ text, note.targetKey? = some word ↔ Unmistakable word
  found : ∀ word ∈ text, ∀ store database documents comments,
    fetch store database commentsCollection = .ok documents → openComments store database = .ok comments →
      ∀ comment ∈ liveDocuments documents, HasTarget comment (.word word) →
        ∃ c ∈ comments, c.comment = comment ∧
          ∀ key, note.targetKey? = some key → (c.fits key none = true ↔ Unmistakable word)

theorem keyedBy_of_reference {text : Option String} {note : Node}
    (h : note.attribute? Node.referenceKey = text.map (Node.labelMark ++ ·)) : KeyedBy text note := by
  have hkey : note.targetKey? = text.map labelKey := by
    cases text with
    | none =>
      unfold Node.targetKey?
      rw [h]
      rfl
    | some word => exact targetKey?_of_labelMark h
  refine ⟨hkey, ?_, ?_⟩
  . intro word hword
    rw [hkey, hword, Option.map_some, Option.some_inj, labelKey_eq_self_iff]
  . intro word hword store database documents comments hdocuments hcomments comment hlive htarget
    refine ⟨⟨word, comment⟩, mem_openComments_of_word hcomments hdocuments hlive htarget, rfl, ?_⟩
    intro key hsome
    rw [hkey, hword] at hsome
    cases hsome
    rw [← labelKey_eq_self_iff]
    simp [OpenComment.fits, eq_comm]

/--
The notes of an accepted text are those of its tokens, in order, and each is keyed by the text of its last `ref`.
-/
theorem keyedBy_of_parse {text : String} {tokens : Fixture.Tokens} {tree : Node}
    (htokens : Fixture.tokenize text = .ok tokens) (h : Fixture.parse text = .ok tree) :
    List.Forall₂ KeyedBy (noteTargets (tokens.list.map Fixture.Token.kind)) (notesOf tree) := by
  have hread : Fixture.ofTokens tokens = .ok tree := by
    unfold Fixture.parse at h
    rw [htokens] at h
    exact h
  have hreferences := Fixture.references_of_ofTokens hread
  unfold Fixture.references at hreferences
  rw [← List.forall₂_eq_eq_eq, List.forall₂_map_left_iff, List.forall₂_map_right_iff] at hreferences
  exact hreferences.flip.imp fun text note href => keyedBy_of_reference href

/-! A note on a text that does not survive, and a comment on the word that the text is. -/

def seasonedText : String :=
  "[\x7bnotes: [\x7bref: 'salt&pepper', message: \x7bvalue: 'hot'\x7d\x7d]\x7d]"

def seasonedTokens : Fixture.Tokens :=
  ⟨[⟨.leftBracket, ⟨1, 1⟩⟩, ⟨.leftBrace, ⟨1, 2⟩⟩, ⟨.word "notes", ⟨1, 3⟩⟩, ⟨.colon, ⟨1, 8⟩⟩, ⟨.leftBracket, ⟨1, 10⟩⟩,
    ⟨.leftBrace, ⟨1, 11⟩⟩, ⟨.word "ref", ⟨1, 12⟩⟩, ⟨.colon, ⟨1, 15⟩⟩, ⟨.string "salt&pepper", ⟨1, 17⟩⟩,
    ⟨.comma, ⟨1, 30⟩⟩, ⟨.word "message", ⟨1, 32⟩⟩, ⟨.colon, ⟨1, 39⟩⟩, ⟨.leftBrace, ⟨1, 41⟩⟩, ⟨.word "value", ⟨1, 42⟩⟩,
    ⟨.colon, ⟨1, 47⟩⟩, ⟨.string "hot", ⟨1, 49⟩⟩, ⟨.rightBrace, ⟨1, 54⟩⟩, ⟨.rightBrace, ⟨1, 55⟩⟩,
    ⟨.rightBracket, ⟨1, 56⟩⟩, ⟨.rightBrace, ⟨1, 57⟩⟩, ⟨.rightBracket, ⟨1, 58⟩⟩], ⟨1, 59⟩⟩

def seasonedNote : Node where
  name := Node.annotationName
  attributes := [(Node.referenceKey, Node.labelMark ++ "salt&pepper")]
  children := [.leaf Node.messageName "hot"]

def seasonedTree : Node where
  name := Node.rootName
  children := [{ name := Node.notesName, children := [seasonedNote] }]

def seasonedComment : Json :=
  .object [("regarding", .object [("word", .string "salt&pepper"), ("meaning", .string "")]),
    ("content", .string "hot")]

theorem parse_seasonedText : Fixture.parse seasonedText = .ok seasonedTree := by
  with_unfolding_all rfl

theorem keyedBy_seasoned :
    Fixture.tokenize seasonedText = .ok seasonedTokens ∧ Fixture.parse seasonedText = .ok seasonedTree ∧
      List.Forall₂ KeyedBy [some "salt&pepper"] (notesOf seasonedTree) := by
  have htokens : Fixture.tokenize seasonedText = .ok seasonedTokens := by with_unfolding_all rfl
  exact ⟨htokens, parse_seasonedText, keyedBy_of_parse htokens parse_seasonedText⟩

theorem verify_seasoned :
    Fixture.parse seasonedText = .ok seasonedTree ∧
      seasonedNote.attribute? Node.referenceKey = some (Node.labelMark ++ "salt&pepper") ∧
      HasTarget seasonedComment (.word "salt&pepper") ∧
      seasonedNote.targetKey? = some "salt" ∧
      verify (skyMemory [] [seasonedComment]).store "sf_demo" seasonedTree = .error (.noteMissing "salt" 0) := by
  refine ⟨parse_seasonedText, rfl, target_eq_ok_iff.1 ?_, ?_, ?_⟩
  . with_unfolding_all rfl
  . with_unfolding_all rfl
  . with_unfolding_all rfl

end LexiconAudit.Database
