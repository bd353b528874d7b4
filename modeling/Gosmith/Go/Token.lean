import Gosmith.Go.Name
import Gosmith.Text.Brace

namespace Gosmith.Go

open Gosmith.Text

structure Position where
  line : Nat
  column : Nat
deriving DecidableEq, Repr, Inhabited

namespace Token

inductive Kind where
  | ident | keyword | int | float | imag | char | string | op | semicolon | eof
deriving DecidableEq, Repr, Inhabited

def Kind.isLiteral : Kind → Bool
  | .int | .float | .imag | .char | .string => true
  | _ => false

end Token

structure Token where
  kind : Token.Kind
  text : String
  pos : Position
  spaceBefore : Bool := false
  newlinesBefore : Nat := 0
deriving DecidableEq, Repr, Inhabited

namespace Token

def autoText : String := "\n"

def isAuto (t : Token) : Bool :=
  t.kind == .semicolon && t.text == autoText

def isOp (t : Token) (text : String) : Bool :=
  t.kind == .op && t.text == text

def isKeyword (t : Token) (text : String) : Bool :=
  t.kind == .keyword && t.text == text

def openers : List String := ["(", "[", braceOpen]

def closers : List String := [")", "]", braceClose]

def closerOf (opener : String) : String :=
  if opener == "(" then ")" else if opener == "[" then "]" else braceClose

def isOpener (t : Token) : Bool :=
  t.kind == .op && openers.contains t.text

def isCloser (t : Token) : Bool :=
  t.kind == .op && closers.contains t.text

def describe (t : Token) : String :=
  if t.kind = .eof then "EOF"
  else if t.isAuto then "newline"
  else "'" ++ t.text ++ "'"

def endsStatement (t : Token) : Bool :=
  match t.kind with
  | .ident => true
  | .keyword => ["break", "continue", "fallthrough", "return"].contains t.text
  | .op => ["++", "--", ")", "]", braceClose].contains t.text
  | k => k.isLiteral

def endsOperand (t : Token) : Bool :=
  match t.kind with
  | .ident => true
  | .op => [")", "]", braceClose, "++", "--"].contains t.text
  | k => k.isLiteral

end Token

end Gosmith.Go
