import Gosmith.Imports.Table
import Gosmith.Value.Basic

namespace Gosmith.Template

open Gosmith.Text

inductive Mismatch where
  | unexpectedName (name : String)
  | repeatedName (name : String)
  | tooMany (least most given : Nat)
  | missing (names : List String)
  | exactlyOne (given : Nat)
  | noNames
deriving DecidableEq, Repr

def plural (n : Nat) : String :=
  if n = 1 then "" else "s"

def enumeration : List String → String
  | [] => ""
  | [a] => a
  | [a, b] => a ++ " and " ++ b
  | parts => ", ".intercalate parts.dropLast ++ ", and " ++ parts.getLast?.getD ""

def Mismatch.message (function : String) : Mismatch → String
  | unexpectedName name =>
      function ++ "() got an unexpected keyword argument '" ++ name ++ "'"
  | repeatedName name =>
      function ++ "() got multiple values for argument '" ++ name ++ "'"
  | tooMany least most given =>
      function ++ "() takes " ++
        (if least = most then most.repr ++ " positional argument" ++ plural most
          else "from " ++ least.repr ++ " to " ++ most.repr ++ " positional arguments") ++
        " but " ++ given.repr ++ (if given = 1 then " was" else " were") ++ " given"
  | missing names =>
      function ++ "() missing " ++ names.length.repr ++ " required positional argument" ++
        plural names.length ++ ": " ++ enumeration (names.map fun n => "'" ++ n ++ "'")
  | exactlyOne given =>
      function ++ "() takes exactly one argument (" ++ given.repr ++ " given)"
  | noNames => function ++ "() takes no keyword arguments"

inductive FormatFault where
  | tooFew
  | noSource
  | openKey
  | unfinished
  | unknownLetter (letter : Char) (index : Nat)
  | sizeNotWhole
  | notNumber (letter : Char) (kind : String)
  | notWhole (letter : Char) (kind : String)
  | notReal (kind : String)
  | notChar
  | charTooLarge
  | infinite
  | noNumber
  | missingKey (key : String)
  | badIndex
deriving DecidableEq, Repr

def FormatFault.message : FormatFault → String
  | tooFew => "not enough arguments for format string"
  | noSource => "format requires a mapping"
  | openKey => "incomplete format key"
  | unfinished => "incomplete format"
  | unknownLetter letter index =>
      let shown := if 31 ≤ letter.toNat ∧ letter.toNat ≤ 126 then letter else '?'
      "unsupported format character '" ++ String.singleton shown ++ "' (0x" ++
        String.ofList (hexDigits 1 letter.toNat) ++ ") at index " ++ index.repr
  | sizeNotWhole => "* wants int"
  | notNumber letter kind =>
      "%" ++ String.singleton letter ++ " format: a real number is required, not " ++ kind
  | notWhole letter kind =>
      "%" ++ String.singleton letter ++ " format: an integer is required, not " ++ kind
  | notReal kind => "must be real number, not " ++ kind
  | notChar => "%c requires int or char"
  | charTooLarge => "%c arg not in range(0x110000)"
  | infinite => "cannot convert float infinity to integer"
  | noNumber => "cannot convert float NaN to integer"
  | missingKey key => quoted key
  | badIndex => "list indices must be integers or slices, not str"

def FormatFault.kindName : FormatFault → String
  | openKey => "ValueError"
  | unfinished => "ValueError"
  | unknownLetter _ _ => "ValueError"
  | noNumber => "ValueError"
  | infinite => "OverflowError"
  | charTooLarge => "OverflowError"
  | missingKey _ => "KeyError"
  | _ => "TypeError"

inductive Failure where
  | undefined (m : Missing)
  | notCallable (kind : String)
  | notRecursive
  | notIterable (kind : String)
  | notUnpackable (kind : String)
  | notSubscriptable (kind : String)
  | noLength (kind : String)
  | noMembership (kind : String)
  | notSubstring (kind : String)
  | unhashable (kind : String)
  | tooFewValues (expected got : Nat)
  | tooManyValues (expected : Nat)
  | badOperands (op left right : String)
  | badConcat (left right : String)
  | badRepeat (kind : String)
  | badSign (op kind : String)
  | notOrdered (op left right : String)
  | zeroQuotient (exact : Bool)
  | zeroRemainder (exact : Bool)
  | zeroDivisor (exact : Bool)
  | zeroPower
  | tooLarge
  | quotientTooLarge
  | outOfRange
  | zeroStep
  | badSliceIndex
  | extraOperands
  | format (f : FormatFault)
  | missingFilter (name : String)
  | missingTest (name : String)
  | notNamespace
  | badCall (function : String) (m : Mismatch)
  | notText (kind : String)
  | pathNotText (kind : String)
  | badPath (f : Imports.Fault)
  | spec (f : TypeSpec.Fault)
  | notPresence (kind : String)
  | notFlag (kind : String)
deriving DecidableEq, Repr

namespace Failure

def message : Failure → String
  | undefined m => m.message
  | notCallable kind => "'" ++ kind ++ "' object is not callable"
  | notRecursive => "The loop must have the 'recursive' marker to be called."
  | notIterable kind => "'" ++ kind ++ "' object is not iterable"
  | notUnpackable kind => "cannot unpack non-iterable " ++ kind ++ " object"
  | notSubscriptable kind => "'" ++ kind ++ "' object is not subscriptable"
  | noLength kind => "object of type '" ++ kind ++ "' has no len()"
  | noMembership kind => "argument of type '" ++ kind ++ "' is not iterable"
  | notSubstring kind => "'in <string>' requires string as left operand, not " ++ kind
  | unhashable kind => "unhashable type: '" ++ kind ++ "'"
  | tooFewValues expected got =>
      "not enough values to unpack (expected " ++ expected.repr ++ ", got " ++ got.repr ++ ")"
  | tooManyValues expected => "too many values to unpack (expected " ++ expected.repr ++ ")"
  | badOperands op left right =>
      "unsupported operand type(s) for " ++ op ++ ": '" ++ left ++ "' and '" ++ right ++ "'"
  | badConcat left right =>
      "can only concatenate " ++ left ++ " (not \"" ++ right ++ "\") to " ++ left
  | badRepeat kind => "can't multiply sequence by non-int of type '" ++ kind ++ "'"
  | badSign op kind => "bad operand type for unary " ++ op ++ ": '" ++ kind ++ "'"
  | notOrdered op left right =>
      "'" ++ op ++ "' not supported between instances of '" ++ left ++ "' and '" ++ right ++ "'"
  | zeroQuotient exact =>
      if exact then "integer division or modulo by zero" else "float floor division by zero"
  | zeroRemainder exact => if exact then "integer modulo by zero" else "float modulo"
  | zeroDivisor exact => if exact then "division by zero" else "float division by zero"
  | zeroPower => "0.0 cannot be raised to a negative power"
  | tooLarge => "int too large to convert to float"
  | quotientTooLarge => "integer division result too large for a float"
  | outOfRange => "(34, 'Numerical result out of range')"
  | zeroStep => "slice step cannot be zero"
  | badSliceIndex => "slice indices must be integers or None or have an __index__ method"
  | extraOperands => "not all arguments converted during string formatting"
  | format f => f.message
  | missingFilter name => "No filter named " ++ quoted name ++ " found."
  | missingTest name => "No test named " ++ quoted name ++ " found."
  | notNamespace => "cannot assign attribute on non-namespace object"
  | badCall function m => m.message function
  | notText kind => "go_case expects a string, got " ++ kind
  | pathNotText kind => "Import path must be a string, got " ++ kind
  | badPath f => f.message
  | spec f => f.message
  | notPresence kind => "type_reference expects Required() or Optional(), got " ++ kind
  | notFlag kind => "required() expects a bool, got " ++ kind

def kindName : Failure → String
  | undefined _ => "UndefinedError"
  | badPath _ => "ValueError"
  | spec f => f.kindName
  | tooFewValues _ _ => "ValueError"
  | tooManyValues _ => "ValueError"
  | zeroStep => "ValueError"
  | zeroQuotient _ => "ZeroDivisionError"
  | zeroRemainder _ => "ZeroDivisionError"
  | zeroDivisor _ => "ZeroDivisionError"
  | zeroPower => "ZeroDivisionError"
  | tooLarge => "OverflowError"
  | quotientTooLarge => "OverflowError"
  | outOfRange => "OverflowError"
  | format f => f.kindName
  | missingFilter _ => "TemplateRuntimeError"
  | missingTest _ => "TemplateRuntimeError"
  | notNamespace => "TemplateRuntimeError"
  | _ => "TypeError"

end Failure

def failUndefined {α : Type} : Except Missing α → Except Failure α
  | .ok a => .ok a
  | .error m => .error (.undefined m)

def printed (v : Value) : Except Failure String :=
  failUndefined v.plain

end Gosmith.Template
