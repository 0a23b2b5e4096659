import LexiconAudit.Fixture.Fault
import LexiconAudit.Text.Blank
import LexiconAudit.Text.Digit
import LexiconAudit.Text.Letter
import LexiconAudit.Text.Search

/-!
This module contains the logic to turn a text into tokens. A lexeme is the written form of one token: the
lexemes of a text and the gaps between them, put together in order, are the text.
-/

namespace LexiconAudit.Fixture

open Text (Position isBlank isLetter isNumeric breakAt)

structure Lexeme where
  kind : Kind
  source : List Char
  rest : List Char

/--
Why there is no token at the front of a text, and the characters in front of the place to blame for it.
Without them it is the front of the text.
-/
structure Misread where
  fault : Fault
  before : List Char := []

/--
The number that four hexadecimal digits at the front of a text spell, the digits, and the text behind.
-/
def hexCode? : List Char → Option (Nat × List Char × List Char)
  | a :: b :: c :: d :: rest => do
    let x ← Text.digitValue? 16 a
    let y ← Text.digitValue? 16 b
    let z ← Text.digitValue? 16 c
    let w ← Text.digitValue? 16 d
    return (((x * 16 + y) * 16 + z) * 16 + w, [a, b, c, d], rest)
  | _ => none

structure Piece where
  value : Char
  source : List Char
  rest : List Char

def shortEscape? : Char → Option Char
  | '"' => some '"'
  | '\'' => some '\''
  | '\\' => some '\\'
  | '/' => some '/'
  | 'b' => some '\x08'
  | 'f' => some '\x0c'
  | 'n' => some '\n'
  | 'r' => some '\r'
  | 't' => some '\t'
  | _ => none

def charOfCode? (n : Nat) : Option Char :=
  if n.isValidChar then some (Char.ofNat n) else none

/--
An escape by code, read behind its `u`. A code above U+FFFF is written as a pair of surrogates.
-/
def codeEscape (cs : List Char) : Except Fault Piece :=
  match hexCode? cs with
  | none => .error .invalidCodeEscape
  | some (high, digits, rest) =>
    if 0xD800 ≤ high ∧ high < 0xDC00 then
      match rest with
      | '\\' :: 'u' :: rest =>
        match hexCode? rest with
        | none => .error .invalidCodeEscape
        | some (low, digits', rest) =>
          if 0xDC00 ≤ low ∧ low < 0xE000 then
            match charOfCode? (0x10000 + (high - 0xD800) * 0x400 + (low - 0xDC00)) with
            | some c => .ok ⟨c, 'u' :: digits ++ '\\' :: 'u' :: digits', rest⟩
            | none => .error .invalidSurrogatePair
          else
            .error .unpairedSurrogate
      | _ => .error .unpairedSurrogate
    else
      match charOfCode? high with
      | some c => .ok ⟨c, 'u' :: digits, rest⟩
      | none => .error .invalidCodeEscape

def escape : List Char → Except Fault Piece
  | [] => .error .unterminatedString
  | 'u' :: cs => codeEscape cs
  | c :: cs =>
    match shortEscape? c with
    | some value => .ok ⟨value, [c], cs⟩
    | none => .error (.invalidEscape c)

theorem append_eq_of_hexCode? {cs digits rest : List Char} {n : Nat}
    (h : hexCode? cs = some (n, digits, rest)) : digits ++ rest = cs := by
  unfold hexCode? at h
  split at h
  . simp only [Option.bind_eq_bind, Option.bind_eq_some_iff, Option.pure_def] at h
    obtain ⟨x, _, y, _, z, _, w, _, heq⟩ := h
    cases heq
    rfl
  . cases h

theorem append_eq_of_codeEscape {cs : List Char} {piece : Piece} (h : codeEscape cs = .ok piece) :
    piece.source ++ piece.rest = 'u' :: cs := by
  unfold codeEscape at h
  split at h
  . cases h
  . next high digits rest hhigh =>
    have := append_eq_of_hexCode? hhigh
    split at h
    . split at h
      . next rest' =>
        split at h
        . cases h
        . next low digits' rest'' hlow =>
          have := append_eq_of_hexCode? hlow
          split at h
          . split at h
            . cases h
              simp_all
            . cases h
          . cases h
      . cases h
    . split at h
      . cases h
        simp_all
      . cases h

theorem append_eq_of_escape {cs : List Char} {piece : Piece} (h : escape cs = .ok piece) :
    piece.source ++ piece.rest = cs := by
  unfold escape at h
  split at h
  . cases h
  . exact append_eq_of_codeEscape h
  . split at h
    . cases h
      rfl
    . cases h

theorem length_rest_le_of_escape {cs : List Char} {piece : Piece} (h : escape cs = .ok piece) :
    piece.rest.length ≤ cs.length := by
  have := congrArg List.length (append_eq_of_escape h)
  simp only [List.length_append] at this
  omega

structure Body where
  value : List Char
  source : List Char
  rest : List Char

def Body.cons (c : Char) (source : List Char) (body : Body) : Body :=
  { body with value := c :: body.value, source := source ++ body.source }

def Misread.inside (source : List Char) (m : Misread) : Misread :=
  if m.fault = .unterminatedString then m else { m with before := source ++ m.before }

def stringBody (quote : Char) : List Char → Except Misread Body
  | [] => .error { fault := .unterminatedString }
  | c :: cs =>
    if c = quote then
      .ok ⟨[], [c], cs⟩
    else if c = '\\' then
      match h : escape cs with
      | .error fault => .error (Misread.inside [c] { fault })
      | .ok piece =>
        have := length_rest_le_of_escape h
        match stringBody quote piece.rest with
        | .error m => .error (m.inside (c :: piece.source))
        | .ok body => .ok (body.cons piece.value (c :: piece.source))
    else
      match stringBody quote cs with
      | .error m => .error (m.inside [c])
      | .ok body => .ok (body.cons c [c])
termination_by cs => cs.length
decreasing_by all_goals simp only [List.length_cons]; omega

/--
Read a comment behind its first slash. A block comment ends at the first star and slash, a line comment
before the end of its line.
-/
def commentLexeme : List Char → Except Misread Lexeme
  | '*' :: cs =>
    match breakAt ['*', '/'] cs with
    | none => .error { fault := .unterminatedComment }
    | some (body, rest) =>
      .ok ⟨.comment (String.ofList (Text.trim body)), '/' :: '*' :: body ++ ['*', '/'], rest⟩
  | '/' :: cs =>
    let body := cs.takeWhile (· ≠ '\n')
    .ok ⟨.comment (String.ofList (Text.trim body)), '/' :: '/' :: body, cs.dropWhile (· ≠ '\n')⟩
  | _ => .error { fault := .unexpectedCharacter '/' }

def startsNumber (c : Char) : Bool :=
  c.isDigit || c = '-' || c = '+'

def continuesNumber (c : Char) : Bool :=
  c.isDigit || c = '-' || c = '+' || c = '.' || c = 'e' || c = 'E'

def startsWord (c : Char) : Bool :=
  isLetter c || c = '_' || c = '$'

def continuesWord (c : Char) : Bool :=
  isLetter c || isNumeric c || c = '_' || c = '$'

def wordKind (name : String) : Kind :=
  if name = "true" then .truth true
  else if name = "false" then .truth false
  else if name = "null" then .null
  else .word name

def lexeme (c : Char) (cs : List Char) : Except Misread Lexeme :=
  match c with
  | '\x7b' => .ok ⟨.leftBrace, [c], cs⟩
  | '\x7d' => .ok ⟨.rightBrace, [c], cs⟩
  | '[' => .ok ⟨.leftBracket, [c], cs⟩
  | ']' => .ok ⟨.rightBracket, [c], cs⟩
  | ':' => .ok ⟨.colon, [c], cs⟩
  | ',' => .ok ⟨.comma, [c], cs⟩
  | '/' => commentLexeme cs
  | c =>
    if c = '"' ∨ c = '\'' then
      match stringBody c cs with
      | .error m => .error (m.inside [c])
      | .ok body => .ok ⟨.string (String.ofList body.value), c :: body.source, body.rest⟩
    else if startsNumber c then
      let digits := c :: cs.takeWhile continuesNumber
      .ok ⟨.number (String.ofList digits), digits, cs.dropWhile continuesNumber⟩
    else if startsWord c then
      let name := c :: cs.takeWhile continuesWord
      .ok ⟨wordKind (String.ofList name), name, cs.dropWhile continuesWord⟩
    else
      .error { fault := .unexpectedCharacter c }

theorem append_eq_of_stringBody {quote : Char} {cs : List Char} {body : Body}
    (h : stringBody quote cs = .ok body) : body.source ++ body.rest = cs := by
  fun_induction stringBody quote cs generalizing body with
  | case1 => cases h
  | case2 cs =>
    cases h
    rfl
  | case3 => cases h
  | case4 => cases h
  | case5 cs piece hpiece _ body' hbody _ ih =>
    cases h
    simp [Body.cons, ih hbody, append_eq_of_escape hpiece]
  | case6 => cases h
  | case7 c cs hne hne' body' hbody ih =>
    cases h
    simp [Body.cons, ih hbody]

theorem append_eq_of_commentLexeme {cs : List Char} {l : Lexeme} (h : commentLexeme cs = .ok l) :
    l.source ++ l.rest = '/' :: cs := by
  unfold commentLexeme at h
  split at h
  . split at h
    . cases h
    . next hbreak =>
      cases h
      simpa using Text.append_eq_of_breakAt hbreak
  . cases h
    simp
  . cases h

theorem append_eq_of_lexeme {c : Char} {cs : List Char} {l : Lexeme} (h : lexeme c cs = .ok l) :
    l.source ++ l.rest = c :: cs := by
  unfold lexeme at h
  split at h
  all_goals try (cases h; rfl)
  . exact append_eq_of_commentLexeme h
  . split at h
    . split at h
      . cases h
      . next hbody =>
        cases h
        simpa using append_eq_of_stringBody hbody
    . split at h
      . cases h
        simp
      . split at h
        . cases h
          simp
        . cases h

theorem head?_source_of_lexeme {c : Char} {cs : List Char} {l : Lexeme} (h : lexeme c cs = .ok l) :
    l.source.head? = some c := by
  unfold lexeme at h
  split at h
  all_goals try (cases h; rfl)
  . unfold commentLexeme at h
    split at h
    . split at h <;> cases h
      rfl
    . cases h
      rfl
    . cases h
  . split at h
    . split at h <;> cases h
      rfl
    . split at h
      . cases h
        rfl
      . split at h <;> cases h
        rfl

theorem length_rest_lt_of_lexeme {c : Char} {cs : List Char} {l : Lexeme} (h : lexeme c cs = .ok l) :
    l.rest.length < (c :: cs).length := by
  rw [← append_eq_of_lexeme h, List.length_append]
  have := head?_source_of_lexeme h
  cases hsource : l.source <;> simp_all

def isGap (c : Char) : Bool :=
  isBlank c || c = '\uFEFF'

def readTokens (position : Position) (cs : List Char) : Except Rejection Tokens :=
  let start := position.advance (cs.takeWhile isGap)
  match hgap : cs.dropWhile isGap with
  | [] => .ok ⟨[], start⟩
  | c :: rest =>
    match hl : lexeme c rest with
    | .error m => .error ⟨m.fault, start.advance m.before⟩
    | .ok l =>
      have : l.rest.length < cs.length := by
        have := length_rest_lt_of_lexeme hl
        have := (List.dropWhile_suffix isGap (l := cs)).length_le
        simp_all only
        omega
      match readTokens (start.advance l.source) l.rest with
      | .error e => .error e
      | .ok tokens => .ok { tokens with list := ⟨l.kind, start⟩ :: tokens.list }
termination_by cs.length

def tokenize (text : String) : Except Rejection Tokens :=
  readTokens Position.start text.toList

end LexiconAudit.Fixture
