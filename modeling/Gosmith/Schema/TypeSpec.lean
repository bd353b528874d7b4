import Gosmith.Go.Name
import Gosmith.Text.Brace
import Gosmith.Text.Quoted

namespace Gosmith

open Gosmith.Text

inductive Primitive where
  | bool | byte | i8 | i16 | i32 | i64 | double | string | binary
deriving DecidableEq, Repr, Inhabited

namespace Primitive

def all : List Primitive := [bool, byte, i8, i16, i32, i64, double, string, binary]

def name : Primitive → String
  | bool => "bool"
  | byte => "byte"
  | i8 => "i8"
  | i16 => "i16"
  | i32 => "i32"
  | i64 => "i64"
  | double => "double"
  | string => "string"
  | binary => "binary"

def goName : Primitive → String
  | bool => "bool"
  | byte => "int8"
  | i8 => "int8"
  | i16 => "int16"
  | i32 => "int32"
  | i64 => "int64"
  | double => "float64"
  | string => "string"
  | binary => "[]byte"

def ofName? (name : String) : Option Primitive :=
  all.find? (·.name == name)

end Primitive

inductive Presence where
  | required | optional
deriving DecidableEq, Repr, Inhabited

/-- A type description. Where one is expected, data may hold something else instead; `foreign`
carries it. Bare descriptions say nothing and are told apart by a number. -/
inductive TypeSpec (ρ : Type) where
  | primitive (p : Primitive)
  | list (value : TypeSpec ρ)
  | set (value : TypeSpec ρ)
  | map (key value : TypeSpec ρ)
  | typedef (name : String) (target : TypeSpec ρ)
  | forward (name : String)
  | enum (name : String) (items : List (String × Int))
  | struct (name : String) (fields : List (String × TypeSpec ρ × Bool))
  | user (name : String)
  | bare (serial : Nat)
  | foreign (r : ρ)
deriving Inhabited

class HasKind (ρ : Type) where
  kindName : ρ → String

namespace TypeSpec

variable {ρ : Type}

inductive Fault where
  | unknownPrimitive (name : String)
  | notSpec (caller kind : String)
  | notDeclared (name : String)
  | noAttribute (kind member : String)
  | unnameable (name : String)
deriving DecidableEq, Repr

def Fault.message : Fault → String
  | unknownPrimitive name => "Unknown primitive type: " ++ quoted name
  | notSpec caller kind => caller ++ " expects a TypeSpec, got " ++ kind
  | notDeclared name => "def_name expects a user-declared type, got " ++ quoted name
  | noAttribute kind member =>
      "'" ++ kind ++ "' object has no attribute '" ++ member ++ "'"
  | unnameable name => "Cannot convert " ++ quoted name ++ " to a Go name"

def Fault.kindName : Fault → String
  | unknownPrimitive _ => "ValueError"
  | unnameable _ => "ValueError"
  | noAttribute _ _ => "AttributeError"
  | notSpec _ _ => "TypeError"
  | notDeclared _ => "TypeError"

def ofName (name : String) : Except Fault (TypeSpec ρ) :=
  match Primitive.ofName? name with
  | some p => .ok (.primitive p)
  | none => .error (.unknownPrimitive name)

def className : TypeSpec ρ → String
  | primitive _ => "PrimitiveSpec"
  | list _ => "ListSpec"
  | set _ => "SetSpec"
  | map _ _ => "MapSpec"
  | typedef _ _ => "TypedefSpec"
  | forward _ => "TypedefSpec"
  | enum _ _ => "EnumSpec"
  | struct _ _ => "StructSpec"
  | user _ => "UserTypeSpec"
  | bare _ => "TypeSpec"
  | foreign _ => "object"

def declaredName? : TypeSpec ρ → Option String
  | typedef name _ => some name
  | forward name => some name
  | enum name _ => some name
  | struct name _ => some name
  | user name => some name
  | _ => none

def isDeclared (s : TypeSpec ρ) : Bool :=
  s.declaredName?.isSome

def name [HasKind ρ] : TypeSpec ρ → Except Fault String
  | primitive p => .ok p.name
  | list value =>
      match value.name with
      | .ok v => .ok ("list<" ++ v ++ ">")
      | .error e => .error e
  | set value =>
      match value.name with
      | .ok v => .ok ("set<" ++ v ++ ">")
      | .error e => .error e
  | map key value =>
      match key.name, value.name with
      | .ok k, .ok v => .ok ("map<" ++ k ++ ", " ++ v ++ ">")
      | .error e, _ => .error e
      | .ok _, .error e => .error e
  | typedef name _ => .ok name
  | forward name => .ok name
  | enum name _ => .ok name
  | struct name _ => .ok name
  | user name => .ok name
  | bare _ => .error (.noAttribute "TypeSpec" "name")
  | foreign r => .error (.noAttribute (HasKind.kindName r) "name")

def isDeclaredOrFail [HasKind ρ] : TypeSpec ρ → Except Fault Bool
  | foreign r => .error (.noAttribute (HasKind.kindName r) "is_user_type")
  | s => .ok s.isDeclared

def exportedName (name : String) : Except Fault String :=
  match Go.exported? name with
  | some s => .ok s
  | none => .error (.unnameable name)

def declName [HasKind ρ] (s : TypeSpec ρ) : Except Fault String :=
  match s with
  | foreign r => .error (.notSpec "def_name" (HasKind.kindName r))
  | s =>
      match s.declaredName? with
      | some name => exportedName name
      | none =>
          match s.name with
          | .ok name => .error (.notDeclared name)
          | .error e => .error e

def isNilable : TypeSpec ρ → Bool
  | primitive p => p == .binary
  | list _ => true
  | set _ => true
  | map _ _ => true
  | typedef _ target => target.isNilable
  | _ => false

def emptyStruct : String :=
  "struct" ++ braced ""

def goText [HasKind ρ] : TypeSpec ρ → Except Fault String
  | primitive p => .ok p.goName
  | list value =>
      match value.goText with
      | .ok v => .ok ("[]" ++ v)
      | .error e => .error e
  | set value =>
      match value.goText with
      | .ok v => .ok ("map[" ++ v ++ "]" ++ emptyStruct)
      | .error e => .error e
  | map key value =>
      match key.goText, value.goText with
      | .ok k, .ok v => .ok ("map[" ++ k ++ "]" ++ v)
      | .error e, _ => .error e
      | .ok _, .error e => .error e
  | typedef name _ => exportedName name
  | forward name => exportedName name
  | enum name _ => exportedName name
  | struct name _ => exportedName name
  | user name => exportedName name
  | bare _ => .error (.notSpec "type_reference" "TypeSpec")
  | foreign r => .error (.notSpec "type_reference" (HasKind.kindName r))

def reference [HasKind ρ] (s : TypeSpec ρ) (presence : Presence) : Except Fault String :=
  match s.goText with
  | .ok text => .ok (if presence = .optional ∧ !s.isNilable then "*" ++ text else text)
  | .error e => .error e

end TypeSpec

end Gosmith
