import LexiconAudit.Proofs.Database.Stores
import LexiconAudit.Proofs.Json.Streams

/-!
This module contains dumps that follow each other in a text, with a line end between them: their documents are those
of the first dump, followed by those of the second, and a failure in the second is reported on its own line.
-/

namespace LexiconAudit.Database

open Json.Reader (streamItem value)

theorem stopLine_append {unread : List Char} {more : String} (h : unread <:+ more.toList) (text : String) :
    stopLine (text ++ "\n" ++ more) unread = stopLine more unread + 1 + text.toList.count '\n' := by
  have hle := h.sublist.count_le '\n'
  have hend : "\n".toList.count '\n' = 1 := rfl
  unfold stopLine
  rw [String.toList_append, String.toList_append, List.count_append, List.count_append, hend]
  omega

theorem parseDocuments_eq_error_iff {text source : String} {fault : StoreFault} :
    parseDocuments text source = .error fault ↔ ∃ m, Json.parseStream text = .error m ∧
      fault = .malformed source (stopLine text m.unread) m.cause := by
  unfold parseDocuments
  split
  . next h =>
    rw [h]
    constructor
    . intro heq
      cases heq
    . rintro ⟨m, hm, -⟩
      cases hm
  . next m h =>
    rw [h]
    constructor
    . intro heq
      cases heq
      exact ⟨m, rfl, rfl⟩
    . rintro ⟨m', hm, rfl⟩
      cases hm
      rfl

/--
Behind a dump that is well formed and a line end, another text is read as it is on its own: its documents come behind
those of the dump, and where it fails the whole does, as many lines further down as the dump has.
-/
theorem parseDocuments_append {text source : String} {documents : List Json}
    (h : parseDocuments text source = .ok documents) (more : String) :
    (∀ others, parseDocuments more source = .ok others →
      parseDocuments (text ++ "\n" ++ more) source = .ok (documents ++ others)) ∧
    ∀ fault, parseDocuments more source = .error fault → ∃ line cause, fault = .malformed source line cause ∧
      parseDocuments (text ++ "\n" ++ more) source =
        .error (.malformed source (line + 1 + text.toList.count '\n') cause) := by
  have hstream : Json.parseStream (text ++ "\n" ++ more) = (Json.parseStream more).map (documents ++ ·) := by
    have happend := Json.stream_append (parseDocuments_eq_ok_iff.1 h) more.toList
    unfold Json.parseStream
    rw [← happend, String.toList_append, String.toList_append, List.append_assoc]
    rfl
  constructor
  . intro others hothers
    rw [parseDocuments_eq_ok_iff] at hothers ⊢
    rw [hstream, hothers]
    rfl
  . intro fault hfault
    obtain ⟨m, hm, rfl⟩ := parseDocuments_eq_error_iff.1 hfault
    refine ⟨_, _, rfl, parseDocuments_eq_error_iff.2 ⟨m, ?_, ?_⟩⟩
    . rw [hstream, hm]
      rfl
    . rw [stopLine_append (Json.unread_suffix_of_stream hm) text]

def threeDocuments : String :=
  "[\n]\x7b\x7d\n3"

def cutDocument : String :=
  "null\nnul"

theorem parseStream_threeDocuments :
    Json.parseStream threeDocuments = .ok [.array [], .object [], .number (.integer 3)] := by
  have harray : streamItem.run threeDocuments.toList = .ok (.array [], "\x7b\x7d\n3".toList) := by
    unfold streamItem value
    rfl
  have hobject : streamItem.run "\x7b\x7d\n3".toList = .ok (.object [], "\n3".toList) := by
    unfold streamItem value
    rfl
  have hnumber : streamItem.run "3".toList = .ok (.number (.integer 3), []) := by
    unfold streamItem value
    rfl
  rw [Json.parseStream, Json.stream_of_item rfl harray, Json.stream_of_item rfl hobject,
    Json.stream_of_item rfl hnumber, Json.stream_of_blank rfl]
  rfl

theorem parseStream_cutDocument : Json.parseStream cutDocument = .error ⟨.unexpectedEnd, []⟩ := by
  have hnull : streamItem.run cutDocument.toList = .ok (.null, "\nnul".toList) := by
    unfold streamItem value
    rfl
  have hcut : streamItem.run "nul".toList = .error ⟨.unexpectedEnd, []⟩ := by
    unfold streamItem value
    rfl
  rw [Json.parseStream, Json.stream_of_item rfl hnull, Json.stream_of_error rfl hcut]
  rfl

theorem parseDocuments_append_three :
    parseDocuments threeDocuments "dump" = .ok [.array [], .object [], .number (.integer 3)] ∧
      parseDocuments cutDocument "dump" = .error (.malformed "dump" 2 .unexpectedEnd) ∧
      parseDocuments (threeDocuments ++ "\n" ++ threeDocuments) "dump" =
        .ok [.array [], .object [], .number (.integer 3), .array [], .object [], .number (.integer 3)] ∧
      parseDocuments (threeDocuments ++ "\n" ++ cutDocument) "dump" = .error (.malformed "dump" 5 .unexpectedEnd) := by
  have hthree : parseDocuments threeDocuments "dump" = .ok [.array [], .object [], .number (.integer 3)] :=
    parseDocuments_eq_ok_iff.2 parseStream_threeDocuments
  have hcut : parseDocuments cutDocument "dump" = .error (.malformed "dump" 2 .unexpectedEnd) :=
    parseDocuments_eq_error_iff.2 ⟨_, parseStream_cutDocument, rfl⟩
  obtain ⟨line, cause, hfault, hline⟩ := (parseDocuments_append hthree cutDocument).2 _ hcut
  cases hfault
  exact ⟨hthree, hcut, (parseDocuments_append hthree threeDocuments).1 _ hthree, hline⟩

end LexiconAudit.Database
