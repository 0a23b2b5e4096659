import LexiconAudit.Database.Thread

/-!
This module contains the folding of a note whose messages come in two parts: the comment that all of them become
is put together from the comments that the parts become.
-/

namespace LexiconAudit.Database

/-! The status. -/

theorem normalStatus_ne_empty (status : String) : normalStatus status ≠ "" := by
  unfold normalStatus
  split
  . decide
  . next h => exact mt String.isEmpty_iff.2 h

theorem finalStatus_ne_empty (messages : List Message) : finalStatus messages ≠ some "" := by
  intro h
  obtain ⟨status, -, hempty⟩ := Option.map_eq_some_iff.1 h
  exact normalStatus_ne_empty status hempty

theorem finalStatus_append (messages more : List Message) :
    finalStatus (messages ++ more) = (finalStatus more).or (finalStatus messages) := by
  unfold finalStatus
  rw [List.reverse_append, List.findSome?_append, Option.map_or]

/-! The comment. -/

def repliesOf (content : String) : List String :=
  if content = "" then [] else [content]

namespace Thread

def append (first second : Thread) : Thread where
  content := first.content
  status := second.status.or first.status
  replies := first.replies ++ repliesOf second.content ++ second.replies

theorem filter_contents_cons (message : Message) (messages : List Message) :
    ((message :: messages).map Message.content).filter (fun content => !content.isEmpty) =
      repliesOf message.content ++ (messages.map Message.content).filter fun content => !content.isEmpty := by
  rw [List.map_cons, List.filter_cons, repliesOf]
  by_cases h : message.content = "" <;> simp [h]

theorem ofMessages?_append (messages more : List Message) :
    ofMessages? (messages ++ more) = (ofMessages? messages).merge append (ofMessages? more) := by
  cases messages with
  | nil => cases more <;> rfl
  | cons first rest =>
    cases more with
    | nil =>
      rw [List.append_nil]
      rfl
    | cons second others =>
      rw [List.cons_append, ofMessages?, ← List.cons_append, finalStatus_append, List.map_append, List.filter_append,
        filter_contents_cons, ← List.append_assoc]
      rfl

theorem exists_ofMessages? {messages : List Message} (h : messages ≠ []) :
    ∃ thread, ofMessages? messages = some thread ∧ thread.status ≠ some "" := by
  cases messages with
  | nil => exact absurd rfl h
  | cons first rest => exact ⟨_, rfl, finalStatus_ne_empty (first :: rest)⟩

/--
A note in two parts has the content of the first one, the status of the second one or else that of the first, and
the replies of the first, then the content of the second unless it is empty, then the replies of the second. So a
message without a status leaves the status, and one without a text leaves the replies.
-/
theorem ofMessages?_of_parts {messages more : List Message} (hmessages : messages ≠ []) (hmore : more ≠ []) :
    ∃ first second, ofMessages? messages = some first ∧ ofMessages? more = some second ∧
      ofMessages? (messages ++ more) = some {
        content := first.content
        status := second.status.or first.status
        replies := first.replies ++ (if second.content = "" then [] else [second.content]) ++ second.replies } ∧
      (∀ message, message.status = none →
        (ofMessages? (messages ++ [message])).map Thread.status = some first.status) ∧
      (∀ message, message.content = "" →
        (ofMessages? (messages ++ [message])).map Thread.replies = some first.replies) ∧
      first.status ≠ some "" := by
  obtain ⟨first, hfirst, hstatus⟩ := exists_ofMessages? hmessages
  obtain ⟨second, hsecond, -⟩ := exists_ofMessages? hmore
  refine ⟨first, second, hfirst, hsecond, ?_, fun message hnone => ?_, fun message hempty => ?_, hstatus⟩
  . rw [ofMessages?_append, hfirst, hsecond]
    rfl
  . rw [ofMessages?_append, hfirst]
    simp [ofMessages?, append, finalStatus, hnone]
  . rw [ofMessages?_append, hfirst]
    simp [ofMessages?, append, repliesOf, hempty]

theorem ofMessages?_of_parts_resolved : ∃ first second,
    ofMessages? [⟨some "", "question"⟩, ⟨none, ""⟩] = some first ∧
      ofMessages? [⟨none, "answer"⟩, ⟨some "resolved", ""⟩, ⟨none, "thanks"⟩] = some second ∧
        first.status = some "open" ∧ second.status = some "resolved" ∧
          ofMessages? ([⟨some "", "question"⟩, ⟨none, ""⟩] ++
            [⟨none, "answer"⟩, ⟨some "resolved", ""⟩, ⟨none, "thanks"⟩]) =
              some ⟨"question", some "resolved", ["answer", "thanks"]⟩ := by
  obtain ⟨first, second, hfirst, hsecond, hboth, -⟩ := ofMessages?_of_parts
    (List.cons_ne_nil (⟨some "", "question"⟩ : Message) [⟨none, ""⟩])
    (List.cons_ne_nil (⟨none, "answer"⟩ : Message) [⟨some "resolved", ""⟩, ⟨none, "thanks"⟩])
  cases hfirst
  cases hsecond
  exact ⟨_, _, rfl, rfl, by decide, by decide, hboth⟩

end Thread

end LexiconAudit.Database
