import LexiconAudit.Text.Position

/-!
This module contains the tokens of the fixture language. The language extends JSON: strings take either
quote, property names may be bare words, and comments are tokens, because a comment can say that a field
must not be there.
-/

namespace LexiconAudit.Fixture

inductive Kind where
  | leftBrace
  | rightBrace
  | leftBracket
  | rightBracket
  | colon
  | comma
  | string (value : String)
  | word (name : String)
  | number (text : String)
  | truth (value : Bool)
  | null
  | comment (body : String)
  deriving DecidableEq, Repr

def Kind.describe : Kind → String
  | leftBrace => "'\x7b'"
  | rightBrace => "'\x7d'"
  | leftBracket => "'['"
  | rightBracket => "']'"
  | colon => "':'"
  | comma => "','"
  | string value => s!"string '{value}'"
  | word name => s!"identifier '{name}'"
  | number text => s!"number {text}"
  | truth true => "'true'"
  | truth false => "'false'"
  | null => "'null'"
  | comment _ => "comment"

structure Token where
  kind : Kind
  position : Text.Position
  deriving DecidableEq, Repr

structure Tokens where
  list : List Token
  stop : Text.Position
  deriving DecidableEq, Repr

def Tokens.describeStop : String := "end of input"

end LexiconAudit.Fixture
