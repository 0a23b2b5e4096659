/-!
This module contains the decoding of bytes as UTF-8. A byte sequence falls into characters and ill-formed
stretches, each stretch being as long as it could still have begun a character; strict decoding allows no
such stretch, lenient decoding puts the replacement character in the place of each.
-/

namespace LexiconAudit.Text.Utf8

/--
A character of which some bytes are still owed: the bounds of the next byte, how many bytes come after
that one, and the bits read so far.
-/
structure Partial where
  low : UInt8 := 0x80
  high : UInt8 := 0xBF
  after : Nat
  bits : Nat

inductive Lead where
  | char (c : Char)
  | opens (p : Partial)
  | illFormed

def lead (b : UInt8) : Lead :=
  let bits := b.toNat
  if b ≤ 0x7F then .char (Char.ofNat bits)
  else if b < 0xC2 then .illFormed
  else if b ≤ 0xDF then .opens { after := 0, bits := bits - 0xC0 }
  else if b = 0xE0 then .opens { low := 0xA0, after := 1, bits := 0 }
  else if b = 0xED then .opens { high := 0x9F, after := 1, bits := 0xD }
  else if b ≤ 0xEF then .opens { after := 1, bits := bits - 0xE0 }
  else if b = 0xF0 then .opens { low := 0x90, after := 2, bits := 0 }
  else if b ≤ 0xF3 then .opens { after := 2, bits := bits - 0xF0 }
  else if b = 0xF4 then .opens { high := 0x8F, after := 2, bits := 4 }
  else .illFormed

/--
Read `b` as a first byte and go on with `rest`, which takes the character that `b` has opened.
-/
def decodeLead (b : UInt8) (rest : Option Partial → List (Option Char)) : List (Option Char) :=
  match lead b with
  | .char c => some c :: rest none
  | .opens p => rest (some p)
  | .illFormed => none :: rest none

/--
The characters of a byte sequence, with `none` for each ill-formed stretch.
-/
def decode (opened : Option Partial) : List UInt8 → List (Option Char)
  | [] => if opened.isSome then [none] else []
  | b :: bs =>
    match opened with
    | none => decodeLead b fun opened => decode opened bs
    | some p =>
      if p.low ≤ b ∧ b ≤ p.high then
        let bits := p.bits * 0x40 + (b.toNat - 0x80)
        match p.after with
        | 0 => some (Char.ofNat bits) :: decode none bs
        | after + 1 => decode (some { after, bits }) bs
      else
        none :: decodeLead b fun opened => decode opened bs

def decode? (bytes : List UInt8) : Option String :=
  ((decode none bytes).mapM id).map String.ofList

def decodeLenient (bytes : List UInt8) : String :=
  String.ofList ((decode none bytes).map fun c => c.getD '\uFFFD')

def encode (s : String) : List UInt8 :=
  s.toUTF8.toList

end LexiconAudit.Text.Utf8
