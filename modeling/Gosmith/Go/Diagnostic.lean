import Gosmith.Go.Token
import Gosmith.Text.Quoted

namespace Gosmith.Go

open Gosmith.Text

inductive Fault where
  | openComment
  | openRawString
  | openString
  | openRune
  | illegalCharacter (c : Char)
  | expectedPackage (found : Token)
  | expectedPackageName (found : Token)
  | expectedSemicolon (found : Token)
  | expectedSpecEnd (found : Token)
  | expectedImportPath (found : Token)
  | invalidImportPath (literal : String)
  | lateImport
  | expectedDeclaration (found : Token)
  | unclosed (closer : String)
  | unexpectedCloser (closer : String)
  | expectedSpec (keyword : String) (found : Option Token)
  | incompleteSpec (keyword name : String)
  | noReceiverType
  | expectedFunctionName (found : Option Token)
  | expectedParameters (name : String)
deriving DecidableEq, Repr

namespace Fault

def message : Fault → String
  | openComment => "comment not terminated"
  | openRawString => "raw string literal not terminated"
  | openString => "string literal not terminated"
  | openRune => "rune literal not terminated"
  | illegalCharacter c => "illegal character " ++ quoted c.toString
  | expectedPackage t => "expected 'package', found " ++ t.describe
  | expectedPackageName t => "expected package name, found " ++ t.describe
  | expectedSemicolon t => "expected ';', found " ++ t.describe
  | expectedSpecEnd t => "expected ';' or ')', found " ++ t.describe
  | expectedImportPath t => "expected import path, found " ++ t.describe
  | invalidImportPath literal => "invalid import path: " ++ literal
  | lateImport => "imports must appear before other declarations"
  | expectedDeclaration t => "expected declaration, found " ++ t.describe
  | unclosed closer => "unexpected EOF, expected '" ++ closer ++ "'"
  | unexpectedCloser closer => "unexpected '" ++ closer ++ "'"
  | expectedSpec keyword none => "expected name or '(' after '" ++ keyword ++ "'"
  | expectedSpec keyword (some t) =>
      "expected name or '(' after '" ++ keyword ++ "', found " ++ t.describe
  | incompleteSpec keyword name => "incomplete " ++ keyword ++ " declaration of '" ++ name ++ "'"
  | noReceiverType => "method has no receiver type"
  | expectedFunctionName none => "expected function name, found end of declaration"
  | expectedFunctionName (some t) => "expected function name, found " ++ t.describe
  | expectedParameters name => "expected '(' after function name '" ++ name ++ "'"

end Fault

structure Diagnostic where
  fault : Fault
  pos : Position
deriving DecidableEq, Repr

def Diagnostic.report (d : Diagnostic) : String :=
  d.fault.message ++ " (line=" ++ d.pos.line.repr ++ ", column=" ++ d.pos.column.repr ++ ")"

end Gosmith.Go
