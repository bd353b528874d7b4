import Gosmith.Schema.TypeSpec
import Gosmith.Text.Brace
import Gosmith.Value.Digits
import Gosmith.Value.Number

namespace Gosmith

open Gosmith.Text

inductive Missing where
  | name (name : String)
  | member (owner name : String)
  | element (owner key : String)
  | noElse (line : Nat)
deriving DecidableEq, Repr, Inhabited

def Missing.message : Missing → String
  | name n => quoted n ++ " is undefined"
  | member owner n => quoted owner ++ " has no attribute " ++ quoted n
  | element owner key => owner ++ " has no element " ++ key
  | noElse line => "the inline if-expression on line " ++ line.repr ++
      " evaluated to false and no else section was defined."

/-- The value of what is missing. Every look-up that finds nothing gives a value of its own, known
by its number; without a number, which is zero, it is known from no other. -/
structure Undefined where
  missing : Missing
  serial : Nat := 0
deriving DecidableEq, Repr, Inhabited

def Undefined.isSame (u v : Undefined) : Bool :=
  u.serial != 0 && u.serial == v.serial

def Undefined.isStrict (u : Undefined) : Bool :=
  match u.missing with
  | .noElse _ => false
  | _ => true

def Undefined.orElse {α : Type} (u : Undefined) (a : α) : Except Missing α :=
  if u.isStrict then .error u.missing else .ok a

def Undefined.blamed (u v : Undefined) : Undefined :=
  if !u.isStrict && v.isStrict then v else u

inductive Builtin where
  | goCase | importPath | trackedImport | defName | typeReference | markRequired | markOptional
  | markFlag
  | method (name : String)
deriving DecidableEq, Repr, Inhabited

structure LoopState where
  depth : Nat
  index : Nat := 0
  length : Nat := 0
deriving DecidableEq, Repr, Inhabited

inductive Value where
  | null
  | bool (b : Bool)
  | int (n : Int)
  | float (x : Float)
  | text (s : String)
  | list (items : List Value)
  | tuple (items : List Value)
  | mapping (entries : List (Value × Value))
  | spec (s : TypeSpec Value)
  | presence (p : Presence)
  | function (f : Builtin)
  | loop (l : LoopState)
  | undefined (u : Undefined)
deriving Inhabited

namespace Value

def ofMissing (m : Missing) : Value :=
  undefined { missing := m }

def toSpec : Value → TypeSpec Value
  | spec s => s
  | v => .foreign v

def ofSpec : TypeSpec Value → Value
  | .foreign v => v
  | s => .spec s

def typedefOf (name : String) : Value → TypeSpec Value
  | null => .forward name
  | v => .typedef name v.toSpec

def kindName : Value → String
  | null => "NoneType"
  | bool _ => "bool"
  | int _ => "int"
  | float _ => "float"
  | text _ => "str"
  | list _ => "list"
  | tuple _ => "tuple"
  | mapping _ => "dict"
  | spec (.foreign v) => v.kindName
  | spec s => s.className
  | presence _ => "FieldRequired"
  | function .importPath => "method"
  | function .markFlag => "method"
  | function (.method _) => "builtin_function_or_method"
  | function _ => "function"
  | loop _ => "LoopContext"
  | undefined u => if u.isStrict then "StrictUndefined" else "Undefined"

instance : HasKind Value := ⟨kindName⟩

def ownerName : Value → String
  | null => "None"
  | spec s => "idlgen.codegen.typespec." ++ (spec s).kindName ++ " object"
  | presence p => "idlgen.codegen.typespec." ++ (presence p).kindName ++ " object"
  | loop l => "jinja2.runtime." ++ (loop l).kindName ++ " object"
  | v => v.kindName ++ " object"

def boolText (b : Bool) : String :=
  if b then "True" else "False"

def tupleText : List String → String
  | [item] => "(" ++ item ++ ",)"
  | items => "(" ++ ", ".intercalate items ++ ")"

def itemTexts : List (String × Int) → List String
  | [] => []
  | (name, n) :: rest => tupleText [Text.quoted name, n.repr] :: itemTexts rest

mutual

def quoted : Value → String
  | null => "None"
  | bool b => boolText b
  | int n => n.repr
  | float x => Floating.text x
  | text s => Text.quoted s
  | list items => "[" ++ ", ".intercalate (quotedItems items) ++ "]"
  | tuple items => tupleText (quotedItems items)
  | mapping entries => braceOpen ++ ", ".intercalate (quotedEntries entries) ++ braceClose
  | spec s => quotedSpec s
  | presence .required => "<FieldRequired.REQUIRED: 'required'>"
  | presence .optional => "<FieldRequired.OPTIONAL: 'optional'>"
  | function _ => "<function>"
  | loop l => "<LoopContext " ++ l.index.repr ++ "/" ++ l.length.repr ++ ">"
  | undefined _ => "Undefined"

def quotedItems : List Value → List String
  | [] => []
  | v :: rest => v.quoted :: quotedItems rest

def quotedEntries : List (Value × Value) → List String
  | [] => []
  | (k, v) :: rest => (k.quoted ++ ": " ++ v.quoted) :: quotedEntries rest

def quotedSpec : TypeSpec Value → String
  | .primitive p => "PrimitiveSpec(name=" ++ Text.quoted p.name ++ ")"
  | .list v => "ListSpec(value=" ++ quotedSpec v ++ ")"
  | .set v => "SetSpec(value=" ++ quotedSpec v ++ ")"
  | .map k v => "MapSpec(key=" ++ quotedSpec k ++ ", value=" ++ quotedSpec v ++ ")"
  | .typedef name t =>
      "TypedefSpec(name=" ++ Text.quoted name ++ ", target=" ++ quotedSpec t ++ ")"
  | .forward name => "TypedefSpec(name=" ++ Text.quoted name ++ ", target=None)"
  | .enum name items =>
      "EnumSpec(name=" ++ Text.quoted name ++ ", items=" ++ tupleText (itemTexts items) ++ ")"
  | .struct name fields =>
      "StructSpec(name=" ++ Text.quoted name ++ ", fields=" ++ tupleText (fieldTexts fields) ++ ")"
  | .user name => "UserTypeSpec(name=" ++ Text.quoted name ++ ")"
  | .bare _ => "<TypeSpec object>"
  | .foreign v => v.quoted

def fieldTexts : List (String × TypeSpec Value × Bool) → List String
  | [] => []
  | (name, s, required) :: rest =>
      tupleText [Text.quoted name, quotedSpec s, boolText required] :: fieldTexts rest

end

def plain : Value → Except Missing String
  | text s => .ok s
  | presence .required => .ok "FieldRequired.REQUIRED"
  | presence .optional => .ok "FieldRequired.OPTIONAL"
  | undefined u => u.orElse ""
  | v => .ok v.quoted

def truthy : Value → Except Missing Bool
  | null => .ok false
  | bool b => .ok b
  | int n => .ok (n != 0)
  | float x => .ok (!(x == 0))
  | text s => .ok (!s.isEmpty)
  | list items => .ok (!items.isEmpty)
  | tuple items => .ok (!items.isEmpty)
  | mapping entries => .ok (!entries.isEmpty)
  | undefined u => u.orElse false
  | loop l => .ok (l.length != 0)
  | _ => .ok true

def number? : Value → Option Number
  | bool b => some (.whole (if b then 1 else 0))
  | int n => some (.whole n)
  | float x => some (.float x)
  | _ => none

def ofNumber : Number → Value
  | .whole n => .int n
  | .float x => .float x

def integer? : Value → Option Int
  | bool b => some (if b then 1 else 0)
  | int n => some n
  | _ => none

def isSame : Value → Value → Bool
  | undefined u, undefined v => u.isSame v
  | _, _ => false

def equalScalar (a b : Value) : Except Missing Bool :=
  match a.number?, b.number? with
  | some x, some y => .ok (x.compare? y == some .eq)
  | _, _ =>
      match a, b with
      | undefined u, undefined v => (u.blamed v).orElse true
      | undefined u, _ => u.orElse false
      | _, undefined u => u.orElse false
      | null, null => .ok true
      | text s, text t => .ok (s == t)
      | presence p, presence q => .ok (p == q)
      | function f, function g => .ok (f == g)
      | loop l, loop m => .ok (l.depth == m.depth)
      | _, _ => .ok false

mutual

def equal : Value → Value → Except Missing Bool
  | list xs, list ys => if xs.length = ys.length then equalItems xs ys else .ok false
  | tuple xs, tuple ys => do
      if ← equalItems xs ys then return xs.length == ys.length
      else return false
  | mapping xs, mapping ys => if xs.length = ys.length then equalEntries xs ys else .ok false
  | spec s, spec t => equalSpec s t
  | a, b => equalScalar a b

def equalItems : List Value → List Value → Except Missing Bool
  | x :: xs, y :: ys => do
      let same ← if x.isSame y then .ok true else x.equal y
      if same then equalItems xs ys else return false
  | _, _ => .ok true

def equalEntries : List (Value × Value) → List (Value × Value) → Except Missing Bool
  | [], _ => .ok true
  | (k, v) :: rest, ys => do
      let found ← ys.foldr (fun (l, w) others => do
          if ← k.equal l then
            if v.isSame w then return true else v.equal w
          else others)
        (.ok false)
      if found then equalEntries rest ys else return false

def equalSpec : TypeSpec Value → TypeSpec Value → Except Missing Bool
  | .primitive p, .primitive q => .ok (p == q)
  | .list a, .list b => equalSpec a b
  | .set a, .set b => equalSpec a b
  | .map a b, .map c d => do if ← equalSpec a c then equalSpec b d else return false
  | .typedef n a, .typedef m b => if n = m then equalSpec a b else .ok false
  | .forward n, .forward m => .ok (n == m)
  | .enum n xs, .enum m ys => .ok (n == m && xs == ys)
  | .struct n xs, .struct m ys =>
      if n = m ∧ xs.length = ys.length then equalFields xs ys else .ok false
  | .user n, .user m => .ok (n == m)
  | .bare i, .bare j => .ok (i == j)
  | .foreign a, .foreign b => a.equal b
  | _, _ => .ok false

def equalFields : List (String × TypeSpec Value × Bool) → List (String × TypeSpec Value × Bool) →
    Except Missing Bool
  | (n, s, p) :: xs, (m, t, q) :: ys => do
      if n = m ∧ p = q then
        if ← equalSpec s t then equalFields xs ys else return false
      else return false
  | _, _ => .ok true

end

def sameKey (a b : Value) : Bool :=
  match a.equal b with
  | .ok b => b
  | .error _ => false

def lookup (key : Value) : List (Value × Value) → Option Value
  | [] => none
  | (k, v) :: rest => if k.sameKey key then some v else lookup key rest

def insert (key value : Value) : List (Value × Value) → List (Value × Value)
  | [] => [(key, value)]
  | (k, v) :: rest => if k.sameKey key then (k, value) :: rest else (k, v) :: insert key value rest

def get? (name : String) : Value → Option Value
  | mapping entries => lookup (text name) entries
  | _ => none

end Value

end Gosmith
