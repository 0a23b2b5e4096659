import LexiconAudit.Proofs.Fixture.Placement
import Mathlib.Data.List.Basic

/-!
This module contains the entries and the notes of a fixture as they stand among its tokens, and what each
of them says about markers: the comments between its braces, wherever these stand, and its definitions and
glosses without a text, in the order of the tokens. Which entry or note a token belongs to is told by the
brackets that are open there, for any tokens whatsoever.
-/

namespace LexiconAudit.Fixture

open Grammar

def Grammar.Scope.isRecord : Scope → Bool
  | entry | note => true
  | part | sense | other => false

def recordScope? : List Frame → Option Scope
  | [] => none
  | .object .entry _ :: _ => some .entry
  | .object .note _ :: _ => some .note
  | _ :: frames => recordScope? frames

def inNote : List Frame → Bool
  | .object .note _ :: _ => true
  | .list _ :: frames => inNote frames
  | _ => false

def opensNext : List Kind → Bool
  | .leftBrace :: _ => true
  | .rightBrace :: _ | .colon :: _ | [] => false
  | _ :: ks => opensNext ks

/--
Whether a comment in front of these tokens is heard. An entry hears all of its comments. A note does not
hear those inside a message, nor those between the name of a property, or another message, and a message
that is about to open.
-/
def hears (frames : List Frame) (ks : List Kind) : Bool :=
  match recordScope? frames with
  | some .note => inNote frames && !opensNext ks
  | _ => true

def otherKinds (ks : List Kind) : List Kind :=
  ks.filter (!·.isComment)

/--
Whether a text in a writing system that starts here is empty.
-/
def isEmptyValue (ks : List Kind) : Bool :=
  match otherKinds ks with
  | .leftBrace :: _ :: .colon :: .leftBrace :: _ :: .colon :: .string text :: _ => text.isEmpty
  | _ => false

def Property.emptyElement? : Property → Option String
  | definition => some Node.definitionName
  | gloss => some Node.glossName
  | _ => none

/--
The element that must not be in a sense, because the value behind this colon is an empty text.
-/
def emptyElement? (frames : List Frame) (ks : List Kind) : Option String :=
  match frames with
  | .object .sense (some name) :: outer =>
    if recordScope? outer = some .entry ∧ isEmptyValue ks = true then
      (Property.ofName? name).bind Property.emptyElement?
    else
      none
  | _ => none

/--
What a marker can come from: a comment, or a definition or a gloss without a text, given by the name of its
element.
-/
inductive Origin where
  | comment (body : String) (heard : Bool)
  | empty (element : String)
  deriving DecidableEq, Repr

namespace Origin

def isComment : Origin → Bool
  | comment _ _ => true
  | empty _ => false

def comment? : Origin → Option String
  | comment body _ => some body
  | empty _ => none

def heard? : Origin → Option String
  | comment body true => some body
  | comment _ false | empty _ => none

/--
The body of an absence comment that is not heard.
-/
def lostAbsence? : Origin → Option String
  | comment body false => if (absentField? body).isSome then some body else none
  | comment _ true | empty _ => none

def marker? : Origin → Option Node
  | comment body true => (absentField? body).map fun field => Node.absent (Text.upperFirst field)
  | comment _ false => none
  | empty element => some (Node.absent element)

end Origin

structure Record where
  scope : Scope
  origins : List Origin
  deriving DecidableEq, Repr

namespace Record

def comments (record : Record) : List String :=
  record.origins.filterMap Origin.comment?

def heard (record : Record) : List String :=
  record.origins.filterMap Origin.heard?

def lost (record : Record) : List String :=
  record.origins.filterMap Origin.lostAbsence?

def marks (record : Record) : List Node :=
  record.origins.filterMap Origin.marker?

theorem markers_heard (record : Record) :
    markers record.heard = (record.origins.filter Origin.isComment).filterMap Origin.marker? := by
  rw [heard, markers, List.filterMap_filterMap, List.filterMap_filter]
  refine List.filterMap_congr fun origin _ => ?_
  obtain ⟨body, _ | _⟩ | element := origin <;> rfl

theorem length_markers_comments (record : Record) :
    (markers record.comments).length = (markers record.heard).length + record.lost.length := by
  obtain ⟨scope, origins⟩ := record
  simp only [comments, heard, lost]
  induction origins with
  | nil => rfl
  | cons origin origins ih =>
    obtain ⟨body, _ | _⟩ | element := origin
    all_goals
      simp only [List.filterMap_cons, Origin.comment?, Origin.heard?, Origin.lostAbsence?]
    . cases h : absentField? body <;> simp [markers, h] at ih ⊢ <;> omega
    . cases h : absentField? body <;> simp [markers, h] at ih ⊢ <;> omega
    . exact ih

theorem markers_heard_eq_iff (record : Record) :
    markers record.heard = markers record.comments ↔ record.lost = [] := by
  constructor
  . intro h
    have := record.length_markers_comments
    rw [h] at this
    exact List.eq_nil_of_length_eq_zero (by omega)
  . intro h
    rw [heard, comments, markers, markers, List.filterMap_filterMap, List.filterMap_filterMap]
    refine List.filterMap_congr fun origin horigin => ?_
    have hlost := List.filterMap_eq_nil_iff.1 h origin horigin
    obtain ⟨body, _ | _⟩ | element := origin
    . cases hbody : absentField? body with
      | none => simp [Origin.heard?, Origin.comment?, hbody]
      | some field => simp [Origin.lostAbsence?, hbody] at hlost
    . rfl
    . rfl

end Record

def opensRecord (frames : List Frame) (k : Kind) : Bool :=
  k = .leftBrace && (objectScope frames).isRecord

def closesRecord : List Frame → Kind → Bool
  | .object scope _ :: _, .rightBrace | .object scope _ :: _, .rightBracket => scope.isRecord
  | _, _ => false

def originsAt (frames : List Frame) : Kind → List Kind → List Origin
  | .comment body, ks => [.comment body (hears frames ks)]
  | .colon, ks => (emptyElement? frames ks).toList.map .empty
  | _, _ => []

/--
What is said up to the end of the record that is open, and the records that open in these tokens.
-/
def survey (frames : List Frame) : List Kind → List Origin × List Record
  | [] => ([], [])
  | k :: ks =>
    let rest := survey (advance frames k) ks
    if opensRecord frames k then
      ([], ⟨objectScope frames, rest.1⟩ :: rest.2)
    else if closesRecord frames k then
      ([], rest.2)
    else
      (originsAt frames k ks ++ rest.1, rest.2)

def records (ks : List Kind) : List Record :=
  (survey [] ks).2

/-! What stays the same from token to token. -/

section Advance

variable {frames : List Frame} {k : Kind}

theorem closesRecord_of_ne (hk : k ≠ .rightBrace ∧ k ≠ .rightBracket) : closesRecord frames k = false := by
  unfold closesRecord
  split
  . exact absurd rfl hk.1
  . exact absurd rfl hk.2
  . rfl

theorem recordScope?_advance (hopens : opensRecord frames k = false) (hcloses : closesRecord frames k = false) :
    recordScope? (advance frames k) = recordScope? frames := by
  cases k with
  | leftBrace =>
    simp only [opensRecord, decide_true, Bool.true_and] at hopens
    simp only [advance]
    cases h : objectScope frames <;> first | rfl | (rw [h] at hopens; cases hopens)
  | rightBrace | rightBracket =>
    obtain _ | ⟨⟨scope, name⟩ | scope, outer⟩ := frames
    . rfl
    . cases scope <;> first | rfl | cases hcloses
    . rfl
  | comma | string | word =>
    obtain _ | ⟨⟨scope, _ | name⟩ | scope, outer⟩ := frames <;> first | rfl | (cases scope <;> rfl)
  | leftBracket | number | truth | null | colon | comment => rfl

theorem recordScope?_object {scope : Scope} (hrecord : scope.isRecord = true) (name : Option String)
    (outer : List Frame) : recordScope? (.object scope name :: outer) = some scope := by
  cases scope <;> first | rfl | cases hrecord

end Advance

/-! The survey of tokens, token by token. -/

section Survey

variable {frames : List Frame} {k : Kind}

theorem survey_of_opens (hopens : opensRecord frames k = true) (ks : List Kind) :
    survey frames (k :: ks) =
      ([], ⟨objectScope frames, (survey (advance frames k) ks).1⟩ :: (survey (advance frames k) ks).2) := by
  simp only [survey, if_pos hopens]

theorem survey_of_closes (hcloses : closesRecord frames k = true) (ks : List Kind) :
    survey frames (k :: ks) = ([], (survey (advance frames k) ks).2) := by
  have hopens : opensRecord frames k = false := by
    cases k with
    | leftBrace => cases (closesRecord_of_ne (by simp)).symm.trans hcloses
    | _ => rfl
  simp [survey, hopens, hcloses]

theorem survey_cons (hopens : opensRecord frames k = false) (hcloses : closesRecord frames k = false)
    (ks : List Kind) : survey frames (k :: ks) =
      (originsAt frames k ks ++ (survey (advance frames k) ks).1, (survey (advance frames k) ks).2) := by
  simp [survey, hopens, hcloses]

theorem survey_cons_snd (hopens : opensRecord frames k = false) (ks : List Kind) :
    (survey frames (k :: ks)).2 = (survey (advance frames k) ks).2 := by
  cases hcloses : closesRecord frames k with
  | true => rw [survey_of_closes hcloses]
  | false => rw [survey_cons hopens hcloses]

theorem survey_comment (frames : List Frame) (body : String) (ks : List Kind) :
    survey frames (.comment body :: ks) =
      (.comment body (hears frames ks) :: (survey frames ks).1, (survey frames ks).2) :=
  survey_cons rfl (closesRecord_of_ne (by simp)) ks

theorem hears_comments (frames : List Frame) (bodies : List String) (ks : List Kind) :
    hears frames (bodies.map .comment ++ ks) = hears frames ks := by
  have hopens : opensNext (bodies.map .comment ++ ks) = opensNext ks := by
    induction bodies with
    | nil => rfl
    | cons body bodies ih => exact ih
  unfold hears
  rw [hopens]

theorem survey_comments (frames : List Frame) (bodies : List String) (ks : List Kind) :
    survey frames (bodies.map .comment ++ ks) =
      (bodies.map (.comment · (hears frames ks)) ++ (survey frames ks).1, (survey frames ks).2) := by
  induction bodies with
  | nil => rfl
  | cons body bodies ih =>
    rw [List.map_cons, List.cons_append, survey_comment, ih, hears_comments]
    rfl

theorem forall_survey {P : Origin → Prop} {scope : Scope}
    (hP : ∀ {frames k ks}, recordScope? frames = some scope → ∀ origin ∈ originsAt frames k ks, P origin)
    (hscope : recordScope? frames = some scope) (ks : List Kind) : ∀ origin ∈ (survey frames ks).1, P origin := by
  induction ks generalizing frames with
  | nil => nofun
  | cons k ks ih =>
    cases hopens : opensRecord frames k with
    | true =>
      rw [survey_of_opens hopens]
      nofun
    | false =>
      cases hcloses : closesRecord frames k with
      | true =>
        rw [survey_of_closes hcloses]
        nofun
      | false =>
        rw [survey_cons hopens hcloses]
        refine List.forall_mem_append.2 ⟨hP hscope, ih ?_⟩
        rw [recordScope?_advance hopens hcloses, hscope]

theorem exists_brace_of_mem_survey {ks : List Kind} {record : Record} (h : record ∈ (survey frames ks).2) :
    ∃ before behind outer, ks = before ++ .leftBrace :: behind ∧ record.scope.isRecord = true ∧
      record.origins = (survey (.object record.scope none :: outer) behind).1 := by
  induction ks generalizing frames with
  | nil => cases h
  | cons k ks ih =>
    have hbehind : record ∈ (survey (advance frames k) ks).2 → ∃ before behind outer,
        k :: ks = before ++ .leftBrace :: behind ∧ record.scope.isRecord = true ∧
          record.origins = (survey (.object record.scope none :: outer) behind).1 := by
      intro h
      obtain ⟨before, behind, outer, hks, hrecord, horigins⟩ := ih h
      exact ⟨k :: before, behind, outer, by rw [hks, List.cons_append], hrecord, horigins⟩
    cases hopens : opensRecord frames k with
    | true =>
      rw [survey_of_opens hopens] at h
      simp only [opensRecord, Bool.and_eq_true, decide_eq_true_eq] at hopens
      obtain ⟨rfl, hrecord⟩ := hopens
      rcases List.mem_cons.1 h with rfl | h
      . exact ⟨[], ks, frames, rfl, hrecord, rfl⟩
      . exact hbehind h
    | false =>
      rw [survey_cons_snd hopens] at h
      exact hbehind h

end Survey

/-! What the records of a fixture say. -/

section Records

variable {ks : List Kind} {record : Record}

theorem forall_origins {P : Origin → Prop} {scope : Scope}
    (hP : ∀ {frames k ks}, recordScope? frames = some scope → ∀ origin ∈ originsAt frames k ks, P origin)
    (h : record ∈ records ks) (hscope : record.scope = scope) : ∀ origin ∈ record.origins, P origin := by
  obtain ⟨before, behind, outer, -, hrecord, horigins⟩ := exists_brace_of_mem_survey h
  rw [horigins]
  exact forall_survey hP (hscope ▸ recordScope?_object hrecord none outer) behind

theorem heard?_eq_comment? (h : record ∈ records ks) (hscope : record.scope = .entry) :
    ∀ origin ∈ record.origins, origin.heard? = origin.comment? := by
  refine forall_origins ?_ h hscope
  intro frames k ks hframes origin horigin
  cases k <;> simp only [originsAt, List.not_mem_nil] at horigin
  case colon =>
    obtain ⟨element, -, rfl⟩ := List.mem_map.1 horigin
    rfl
  case comment body =>
    cases List.mem_singleton.1 horigin
    simp [hears, hframes, Origin.heard?, Origin.comment?]

theorem isComment_of_note (h : record ∈ records ks) (hscope : record.scope = .note) :
    ∀ origin ∈ record.origins, origin.isComment = true := by
  refine forall_origins ?_ h hscope
  intro frames k ks hframes origin horigin
  cases k <;> simp only [originsAt, List.not_mem_nil] at horigin
  case colon =>
    have hnone : emptyElement? frames ks = none := by
      unfold emptyElement?
      split
      . next outer =>
        have houter : recordScope? outer = some .note := hframes
        rw [if_neg (by simp [houter])]
      . rfl
    rw [hnone] at horigin
    cases horigin
  case comment body =>
    cases List.mem_singleton.1 horigin
    rfl

end Records

/-! The tokens between the braces of a record. -/

def Kind.comment? : Kind → Option String
  | comment body => some body
  | _ => none

/--
The tokens up to the bracket that closes what is open here; `depth` brackets are open inside it.
-/
def interior (depth : Nat) : List Kind → List Kind
  | [] => []
  | k :: ks =>
    match k with
    | .leftBrace | .leftBracket => k :: interior (depth + 1) ks
    | .rightBrace | .rightBracket =>
      match depth with
      | 0 => []
      | depth + 1 => k :: interior depth ks
    | _ => k :: interior depth ks

inductive Inside : List Frame → Nat → Prop where
  | record {scope : Scope} {name : Option String} {outer : List Frame} :
    scope.isRecord = true → Inside (.object scope name :: outer) 0
  | object {scope : Scope} {name : Option String} {frames : List Frame} {depth : Nat} :
    scope = .sense ∨ scope = .other → Inside frames depth → Inside (.object scope name :: frames) (depth + 1)
  | list {items : Scope} {frames : List Frame} {depth : Nat} :
    items = .sense ∨ items = .other → Inside frames depth → Inside (.list items :: frames) (depth + 1)

namespace Inside

variable {frames : List Frame} {depth : Nat}

theorem objectScope_eq (h : Inside frames depth) : objectScope frames = .sense ∨ objectScope frames = .other := by
  cases h with
  | record => exact .inr rfl
  | object => exact .inr rfl
  | list hitems => exact hitems

theorem listScope_eq (h : Inside frames depth) : listScope frames = .sense ∨ listScope frames = .other := by
  obtain @⟨scope, _ | name, outer, hrecord⟩ | @⟨scope, _ | name, outer, _, hscope, -⟩ | _ := h
  . exact .inr rfl
  . cases scope <;> cases hrecord
    . simp only [listScope]
      split <;> simp_all
    . exact .inr rfl
  . exact .inr rfl
  . rcases hscope with rfl | rfl <;> exact .inr rfl
  . exact .inr rfl

theorem opensRecord_eq (h : Inside frames depth) (k : Kind) : opensRecord frames k = false := by
  rcases h.objectScope_eq with h | h <;> simp [opensRecord, h, Scope.isRecord]

theorem closesRecord_zero (h : Inside frames 0) {k : Kind} (hk : k = .rightBrace ∨ k = .rightBracket) :
    closesRecord frames k = true := by
  cases h with
  | record hrecord => rcases hk with rfl | rfl <;> exact hrecord

theorem closesRecord_succ (h : Inside frames (depth + 1)) (k : Kind) : closesRecord frames k = false := by
  obtain _ | ⟨rfl | rfl, -⟩ | _ := h <;> cases k <;> rfl

theorem tail (h : Inside frames (depth + 1)) : Inside frames.tail depth := by
  cases h with
  | object _ h => exact h
  | list _ h => exact h

theorem comma (h : Inside frames depth) : Inside (advance frames .comma) depth := by
  cases h with
  | record hrecord => exact .record hrecord
  | object hscope h => exact .object hscope h
  | list hitems h => exact .list hitems h

theorem string (h : Inside frames depth) (name : String) : Inside (advance frames (.string name)) depth := by
  obtain @⟨_, _ | _, _, hrecord⟩ | @⟨_, _ | _, _, _, hscope, h⟩ | ⟨hitems, h⟩ := h
  . exact .record hrecord
  . exact .record hrecord
  . exact .object hscope h
  . exact .object hscope h
  . exact .list hitems h

end Inside

theorem comments_originsAt (frames : List Frame) (k : Kind) (ks : List Kind) :
    (originsAt frames k ks).filterMap Origin.comment? = k.comment?.toList := by
  cases k with
  | colon => cases h : emptyElement? frames ks <;> simp [originsAt, h, Origin.comment?, Kind.comment?]
  | _ => rfl

theorem comments_survey {frames : List Frame} {depth : Nat} (h : Inside frames depth) (ks : List Kind) :
    (survey frames ks).1.filterMap Origin.comment? = (interior depth ks).filterMap Kind.comment? := by
  induction ks generalizing frames depth with
  | nil => rfl
  | cons k ks ih =>
    -- A token that closes nothing says what it says, and the rest is said behind it.
    have hcons {d : Nat} (hcloses : closesRecord frames k = false) (h' : Inside (advance frames k) d) :
        (survey frames (k :: ks)).1.filterMap Origin.comment? =
          (k :: interior d ks).filterMap Kind.comment? := by
      rw [survey_cons (h.opensRecord_eq k) hcloses, List.filterMap_append, comments_originsAt, ih h']
      cases hk : k.comment? <;> simp [hk]
    cases k with
    | leftBrace => exact hcons (closesRecord_of_ne (by simp)) (.object h.objectScope_eq h)
    | leftBracket => exact hcons (closesRecord_of_ne (by simp)) (.list h.listScope_eq h)
    | rightBrace | rightBracket =>
      cases depth with
      | zero =>
        rw [survey_of_closes (h.closesRecord_zero (by simp))]
        rfl
      | succ depth => exact hcons (h.closesRecord_succ _) h.tail
    | comma => exact hcons (closesRecord_of_ne (by simp)) h.comma
    | string name | word name => exact hcons (closesRecord_of_ne (by simp)) (h.string name)
    | number | truth | null | colon | comment => exact hcons (closesRecord_of_ne (by simp)) h

/--
The braces that open an entry or a note, each given by what it opens and the tokens behind it.
-/
def openings (frames : List Frame) : List Kind → List (Scope × List Kind)
  | [] => []
  | k :: ks =>
    if opensRecord frames k then (objectScope frames, ks) :: openings (advance frames k) ks
    else openings (advance frames k) ks

theorem comments_eq_interior (frames : List Frame) (ks : List Kind) :
    (survey frames ks).2.map (fun record => (record.scope, record.comments)) =
      (openings frames ks).map fun (scope, behind) => (scope, (interior 0 behind).filterMap Kind.comment?) := by
  induction ks generalizing frames with
  | nil => rfl
  | cons k ks ih =>
    unfold openings
    cases hopens : opensRecord frames k with
    | true =>
      have hopened := hopens
      simp only [opensRecord, Bool.and_eq_true, decide_eq_true_eq] at hopened
      obtain ⟨rfl, hrecord⟩ := hopened
      rw [survey_of_opens hopens, if_pos rfl, List.map_cons, List.map_cons, ih, Record.comments]
      exact congrArg (fun comments => (_, comments) :: _) (comments_survey (.record hrecord) ks)
    | false =>
      rw [survey_cons_snd hopens, if_neg (by decide), ih]

/--
The comments of an entry or a note are those that stand, at any depth, between the brace that opens it and the bracket
that closes it.
-/
def CommentsInside (ks : List Kind) : Prop :=
  (records ks).map (fun record => (record.scope, record.comments)) =
    (openings [] ks).map fun (scope, behind) => (scope, (interior 0 behind).filterMap Kind.comment?)

theorem commentsInside (ks : List Kind) : CommentsInside ks :=
  comments_eq_interior [] ks

end LexiconAudit.Fixture
