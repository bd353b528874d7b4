import Gosmith.Text.Quoted
import Gosmith.Value.Decimal

namespace Gosmith.Template

open Gosmith.Text

inductive Token.Kind where
  | data (text : String)
  | openPrint | closePrint | openBlock | closeBlock
  | name (text : String)
  | string (text : String)
  | integer (n : Nat)
  | decimal (d : Decimal)
  | op (symbol : String)
  | finish
deriving DecidableEq, Repr, Inhabited

structure Token where
  kind : Token.Kind
  line : Nat
deriving DecidableEq, Repr, Inhabited

namespace Token.Kind

def describe : Token.Kind → String
  | data _ => "template data / text"
  | openPrint => "begin of print statement"
  | closePrint => "end of print statement"
  | openBlock => "begin of statement block"
  | closeBlock => "end of statement block"
  | name text => text
  | string _ => "string"
  | integer _ => "integer"
  | decimal _ => "float"
  | op symbol => symbol
  | finish => "end of template"

end Token.Kind

structure OpenBlock where
  tag : String
  closers : List String
deriving DecidableEq, Repr

inductive Fault where
  | unexpectedChar (c : Char) (offset : Nat)
  | unexpectedCloser (c : Char) (expected : Option Char)
  | openComment
  | openRaw
  | badIdentifier
  | badEscape (reason : String)
  | unexpected (found : Token.Kind)
  | expected (wanted : String) (found : Token.Kind)
  | noExpression (found : Token.Kind)
  | noMember
  | badArguments
  | notAssignable (kind : String)
  | noTag
  | unknownTag (tag : String) (blocks : List OpenBlock)
  | openBlocks (blocks : List OpenBlock)
  | chainedTests
  | unknownFilter (name : String)
  | unknownTest (name : String)
  | loopAssigned
  | tooDeep
deriving DecidableEq, Repr

namespace Fault

def alternatives (tags : List String) : String :=
  " or ".intercalate (tags.map quoted)

def awaited (tag : Option String) : List OpenBlock → String
  | [] => ""
  | b :: rest =>
      (if ((b :: rest).any fun c => tag.any c.closers.contains) then
          " You probably made a nesting mistake. Jinja is expecting this tag, " ++
            "but currently looking for "
        else " Jinja was looking for the following tags: ") ++
        alternatives b.closers ++ ". The innermost block that needs to be closed is " ++
        quoted b.tag ++ "."

def message : Fault → String
  | unexpectedChar c offset => "unexpected char " ++ quoted c.toString ++ " at " ++ offset.repr
  | unexpectedCloser c none => "unexpected '" ++ c.toString ++ "'"
  | unexpectedCloser c (some e) =>
      "unexpected '" ++ c.toString ++ "', expected '" ++ e.toString ++ "'"
  | openComment => "Missing end of comment tag"
  | openRaw => "Missing end of raw directive"
  | badIdentifier => "Invalid character in identifier"
  | badEscape reason => reason
  | unexpected found => "unexpected " ++ quoted found.describe
  | expected wanted .finish => "unexpected end of template, expected " ++ quoted wanted ++ "."
  | expected wanted found =>
      "expected token " ++ quoted wanted ++ ", got " ++ quoted found.describe
  | noExpression found => "Expected an expression, got " ++ quoted found.describe
  | noMember => "expected name or number"
  | badArguments => "invalid syntax for function call expression"
  | notAssignable kind => "can't assign to " ++ quoted kind
  | noTag => "tag name expected"
  | unknownTag tag blocks =>
      "Encountered unknown tag " ++ quoted tag ++ "." ++ awaited (some tag) blocks
  | openBlocks blocks => "Unexpected end of template." ++ awaited none blocks
  | chainedTests => "You cannot chain multiple tests with is"
  | unknownFilter name => "No filter named " ++ quoted name ++ "."
  | unknownTest name => "No test named " ++ quoted name ++ "."
  | loopAssigned => "Can't assign to special loop variable in for-loop target"
  | tooDeep => "template nested too deeply"

def kindName : Fault → String
  | unknownFilter _ => "TemplateAssertionError"
  | unknownTest _ => "TemplateAssertionError"
  | loopAssigned => "TemplateAssertionError"
  | _ => "TemplateSyntaxError"

end Fault

structure Located (α : Type) where
  what : α
  line : Nat
deriving DecidableEq, Repr

end Gosmith.Template
