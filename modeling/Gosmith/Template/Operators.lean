import Gosmith.Template.Format

namespace Gosmith.Template

open Value

def isTrue (v : Value) : Except Failure Bool :=
  failUndefined v.truthy

def iterate : Value → Except Failure (List Value)
  | list items => .ok items
  | tuple items => .ok items
  | text s => .ok (s.toList.map fun c => .text (String.singleton c))
  | mapping entries => .ok (entries.map Prod.fst)
  | undefined u => failUndefined (u.orElse [])
  | v => .error (.notIterable v.kindName)

def length : Value → Except Failure Nat
  | list items => .ok items.length
  | tuple items => .ok items.length
  | text s => .ok s.length
  | mapping entries => .ok entries.length
  | loop l => .ok l.length
  | undefined u => failUndefined (u.orElse 0)
  | v => .error (.noLength v.kindName)

inductive BinaryOp where
  | add | sub | mul | div | floorDiv | mod | pow
deriving DecidableEq, Repr

def BinaryOp.symbol : BinaryOp → String
  | add => "+"
  | sub => "-"
  | mul => "*"
  | div => "/"
  | floorDiv => "//"
  | mod => "%"
  | pow => "** or pow()"

def repeated (items : List α) (n : Int) : List α :=
  (List.replicate n.toNat items).flatten

def isOdd (x : Float) : Bool :=
  Floating.floor x == x && Floating.floorInt x % 2 == 1

def positivePower (x y : Float) : Except Failure Float :=
  if x == 1 then .ok 1
  else
    let z := Float.pow x y
    if z.isInf then .error .outOfRange else .ok z

def finitePower (x y : Float) : Except Failure Float :=
  if x == 0 then
    if y < 0 then .error .zeroPower else .ok (if isOdd y then x else 0)
  else if x < 0 then
    if Floating.floor y == y then (positivePower (-x) y).map fun z => if isOdd y then -z else z
    else .ok (0 / 0)
  else positivePower x y

def power (x y : Float) : Except Failure Float :=
  if y == 0 then .ok 1
  else if x.isFinite && y.isFinite then finitePower x y
  else .ok (Float.pow x y)

def floatArithmetic (op : BinaryOp) (x y : Float) : Except Failure Float :=
  match op with
  | .add => .ok (x + y)
  | .sub => .ok (x - y)
  | .mul => .ok (x * y)
  | .div => if y == 0 then .error (.zeroDivisor false) else .ok (x / y)
  | .floorDiv =>
      if y == 0 then .error (.zeroQuotient false) else .ok (Floating.floorQuotient x y)
  | .mod => if y == 0 then .error (.zeroRemainder false) else .ok (Floating.floorRemainder x y)
  | .pow => power x y

def toFloat (a : Number) : Except Failure Float :=
  match a.toFloat? with
  | some x => .ok x
  | none => .error .tooLarge

def arithmetic (op : BinaryOp) (a b : Number) : Except Failure Number :=
  match op, a, b with
  | .add, .whole m, .whole n => .ok (.whole (m + n))
  | .sub, .whole m, .whole n => .ok (.whole (m - n))
  | .mul, .whole m, .whole n => .ok (.whole (m * n))
  | .floorDiv, .whole m, .whole n =>
      if n = 0 then .error (.zeroQuotient true) else .ok (.whole (m.fdiv n))
  | .mod, .whole m, .whole n =>
      if n = 0 then .error (.zeroRemainder true) else .ok (.whole (m.fmod n))
  | .div, .whole m, .whole n =>
      if n = 0 then .error (.zeroDivisor true)
      else if (Floating.ofQuotient m n).isInf then .error .quotientTooLarge
      else .ok (.float (Floating.ofQuotient m n))
  | op, a, b =>
      match op, a, b with
      | .pow, .whole m, .whole (.ofNat n) => .ok (.whole (m.pow n))
      | op, a, b => do return .float (← floatArithmetic op (← toFloat a) (← toFloat b))

def numeric (op : BinaryOp) (a b : Value) : Except Failure Value :=
  match a.number?, b.number? with
  | some x, some y => (arithmetic op x y).map ofNumber
  | _, _ => .error (.badOperands op.symbol a.kindName b.kindName)

def add : Value → Value → Except Failure Value
  | text s, text t => .ok (.text (s ++ t))
  | list xs, list ys => .ok (.list (xs ++ ys))
  | tuple xs, tuple ys => .ok (.tuple (xs ++ ys))
  | text _, b => .error (.badConcat "str" b.kindName)
  | list _, b => .error (.badConcat "list" b.kindName)
  | tuple _, b => .error (.badConcat "tuple" b.kindName)
  | a, b => numeric .add a b

def repeatBy (a n : Value) : Except Failure Value :=
  match n.integer? with
  | none => .error (.badRepeat n.kindName)
  | some k =>
      match a with
      | text s => .ok (.text (String.ofList (repeated s.toList k)))
      | list xs => .ok (.list (repeated xs k))
      | tuple xs => .ok (.tuple (repeated xs k))
      | v => .error (.badOperands "*" v.kindName n.kindName)

def isSequence : Value → Bool
  | text _ => true
  | list _ => true
  | tuple _ => true
  | _ => false

def mul (a b : Value) : Except Failure Value :=
  if isSequence a then repeatBy a b
  else if isSequence b then repeatBy b a
  else numeric .mul a b

def binary (op : BinaryOp) (a b : Value) : Except Failure Value :=
  match op, a, b with
  | .mod, text s, b => (Format.fill s b).map .text
  | _, undefined u, _ => .error (.undefined u.missing)
  | _, _, undefined u => .error (.undefined u.missing)
  | .add, a, b => add a b
  | .mul, a, b => mul a b
  | op, a, b => numeric op a b

inductive UnaryOp where
  | neg | pos
deriving DecidableEq, Repr

def UnaryOp.symbol : UnaryOp → String
  | neg => "-"
  | pos => "+"

def unary (op : UnaryOp) : Value → Except Failure Value
  | undefined u => .error (.undefined u.missing)
  | v =>
      match v.number? with
      | none => .error (.badSign op.symbol v.kindName)
      | some x =>
          match op with
          | .neg => .ok (ofNumber x.neg)
          | .pos => .ok (ofNumber x)

inductive CompareOp where
  | eq | ne | lt | le | gt | ge | isIn | notIn
deriving DecidableEq, Repr

def CompareOp.symbol : CompareOp → String
  | eq => "=="
  | ne => "!="
  | lt => "<"
  | le => "<="
  | gt => ">"
  | ge => ">="
  | isIn => "in"
  | notIn => "not in"

def CompareOp.accepts : CompareOp → Ordering → Bool
  | lt, .lt => true
  | le, .lt => true
  | le, .eq => true
  | gt, .gt => true
  | ge, .gt => true
  | ge, .eq => true
  | _, _ => false

def orderScalar (op : CompareOp) (a b : Value) : Except Failure Bool :=
  match a.number?, b.number? with
  | some x, some y => .ok ((x.compare? y).any op.accepts)
  | _, _ =>
      match a, b with
      | undefined u, undefined v => .error (.undefined (u.blamed v).missing)
      | undefined u, _ => .error (.undefined u.missing)
      | _, undefined u => .error (.undefined u.missing)
      | text s, text t => .ok (op.accepts (compare s t))
      | _, _ => .error (.notOrdered op.symbol a.kindName b.kindName)

mutual

def order (op : CompareOp) : Value → Value → Except Failure Bool
  | list xs, list ys => orderItems op xs ys
  | tuple xs, tuple ys => orderItems op xs ys
  | a, b => orderScalar op a b

def orderItems (op : CompareOp) : List Value → List Value → Except Failure Bool
  | x :: xs, y :: ys => do
      if x.isSame y then orderItems op xs ys
      else if ← failUndefined (x.equal y) then orderItems op xs ys
      else order op x y
  | [], [] => .ok (op.accepts .eq)
  | [], _ :: _ => .ok (op.accepts .lt)
  | _ :: _, [] => .ok (op.accepts .gt)

end

mutual

def checkKey : Value → Except Failure Unit
  | list _ => .error (.unhashable "list")
  | mapping _ => .error (.unhashable "dict")
  | tuple items => checkKeys items
  | spec s => checkSpecKey s
  | undefined u => failUndefined (u.orElse ())
  | _ => .ok ()

def checkKeys : List Value → Except Failure Unit
  | [] => .ok ()
  | v :: rest => do checkKey v; checkKeys rest

def checkSpecKey : TypeSpec Value → Except Failure Unit
  | .list v => checkSpecKey v
  | .set v => checkSpecKey v
  | .map k v => do checkSpecKey k; checkSpecKey v
  | .typedef _ t => checkSpecKey t
  | .struct _ fields => checkFieldKeys fields
  | .foreign v => checkKey v
  | _ => .ok ()

def checkFieldKeys : List (String × TypeSpec Value × Bool) → Except Failure Unit
  | [] => .ok ()
  | (_, s, _) :: rest => do checkSpecKey s; checkFieldKeys rest

end

def hasItem (v : Value) : List Value → Except Failure Bool
  | [] => .ok false
  | w :: rest => do
      if w.isSame v then return true
      else if ← failUndefined (w.equal v) then return true
      else hasItem v rest

def isInfix (part : List Char) : List Char → Bool
  | [] => part.isEmpty
  | c :: rest => part.isPrefixOf (c :: rest) || isInfix part rest

def contains (v : Value) : Value → Except Failure Bool
  | list items => hasItem v items
  | tuple items => hasItem v items
  | mapping entries => do
      checkKey v
      return (lookup v entries).isSome
  | text s =>
      match v with
      | text part => .ok (isInfix part.toList s.toList)
      | v => .error (.notSubstring v.kindName)
  | undefined u => failUndefined (u.orElse false)
  | w => .error (.noMembership w.kindName)

def relate (op : CompareOp) (a b : Value) : Except Failure Bool :=
  match op with
  | .eq => failUndefined (a.equal b)
  | .ne => (failUndefined (a.equal b)).map (! ·)
  | .isIn => contains a b
  | .notIn => (contains a b).map (! ·)
  | op => order op a b

def methodNames : Value → List String
  | mapping _ =>
      ["clear", "copy", "fromkeys", "get", "items", "keys", "pop", "popitem", "setdefault",
        "update", "values"]
  | list _ =>
      ["append", "clear", "copy", "count", "extend", "index", "insert", "pop", "remove",
        "reverse", "sort"]
  | tuple _ => ["count", "index"]
  | text _ =>
      ["capitalize", "casefold", "center", "count", "encode", "endswith", "expandtabs", "find",
        "format", "format_map", "index", "isalnum", "isalpha", "isascii", "isdecimal", "isdigit",
        "isidentifier", "islower", "isnumeric", "isprintable", "isspace", "istitle", "isupper",
        "join", "ljust", "lower", "lstrip", "maketrans", "partition", "removeprefix",
        "removesuffix", "replace", "rfind", "rindex", "rjust", "rpartition", "rsplit", "rstrip",
        "split", "splitlines", "startswith", "strip", "swapcase", "title", "translate", "upper",
        "zfill"]
  | float _ => ["as_integer_ratio", "conjugate", "fromhex", "hex", "is_integer"]
  | v =>
      if v.integer?.isSome then
        ["as_integer_ratio", "bit_count", "bit_length", "conjugate", "from_bytes", "to_bytes"]
      else []

def specMember? (name : String) : TypeSpec Value → Option Value
  | s =>
      match name, s with
      | "name", s => s.name.toOption.map .text
      | "is_user_type", s => some (.bool s.isDeclared)
      | "value", .list v => some (ofSpec v)
      | "value", .set v => some (ofSpec v)
      | "value", .map _ v => some (ofSpec v)
      | "key", .map k _ => some (ofSpec k)
      | "target", .typedef _ t => some (ofSpec t)
      | "target", .forward _ => some .null
      | "items", .enum _ items => some (.tuple (items.map fun (n, i) => .tuple [.text n, .int i]))
      | "fields", .struct _ fields =>
          some (.tuple (fields.map fun (n, s, r) => .tuple [.text n, ofSpec s, .bool r]))
      | _, _ => none

def ownMember? (v : Value) (name : String) : Option Value :=
  match v with
  | spec s => specMember? name s
  | presence p =>
      match name, p with
      | "name", .required => some (.text "REQUIRED")
      | "name", .optional => some (.text "OPTIONAL")
      | "value", .required => some (.text "required")
      | "value", .optional => some (.text "optional")
      | "REQUIRED", _ => some (.presence .required)
      | "OPTIONAL", _ => some (.presence .optional)
      | "from_bool", _ => some (.function .markFlag)
      | _, _ => none
  | float x =>
      match name with
      | "real" => some (.float x)
      | "imag" => some (.float 0)
      | _ => methodOf (.float x)
  | v =>
      match name, v.integer? with
      | "real", some n => some (.int n)
      | "numerator", some n => some (.int n)
      | "imag", some _ => some (.int 0)
      | "denominator", some _ => some (.int 1)
      | _, _ => methodOf v
where
  methodOf (v : Value) : Option Value :=
    if (methodNames v).contains name then some (.function (.method name)) else none

def position? (size : Nat) (i : Int) : Option Nat :=
  let j := if i < 0 then i + size else i
  if 0 ≤ j ∧ j < size then some j.toNat else none

def elementAt? (v key : Value) : Option Value :=
  match v with
  | mapping entries => if (checkKey key).isOk then lookup key entries else none
  | list items => key.integer?.bind fun i => (position? items.length i).bind (items[·]?)
  | tuple items => key.integer?.bind fun i => (position? items.length i).bind (items[·]?)
  | text s =>
      let cs := s.toList
      key.integer?.bind fun i =>
        ((position? cs.length i).bind (cs[·]?)).map fun c => .text (String.singleton c)
  | _ => none

def member (v : Value) (name : String) : Except Failure Value :=
  match v with
  | undefined u => .error (.undefined u.missing)
  | v =>
      match ownMember? v name with
      | some w => .ok w
      | none => .ok ((elementAt? v (.text name)).getD (ofMissing (.member v.ownerName name)))

def element (v key : Value) : Except Failure Value :=
  match v, key with
  | undefined u, _ => .error (.undefined u.missing)
  | v, key => do
      keyDefined v key
      match elementAt? v key with
      | some w => return w
      | none =>
          match key with
          | text name => return (ownMember? v name).getD (ofMissing (.member v.ownerName name))
          | key => return ofMissing (.element v.ownerName key.quoted)
where
  keyDefined (v key : Value) : Except Failure Unit :=
    match v, checkKey key with
    | mapping _, .error (.undefined m) => .error (.undefined m)
    | _, _ => .ok ()

def clamp (lower upper size : Int) (i : Int) : Int :=
  let j := if i < 0 then i + size else i
  if j < lower then lower else if j > upper then upper else j

def stepped (items : List α) (start stop step : Int) : Nat → List α
  | 0 => []
  | n + 1 =>
      if (if step > 0 then start < stop else start > stop) then
        match items[start.toNat]? with
        | some a => a :: stepped items (start + step) stop step n
        | none => []
      else []

def slice (items : List α) (lo hi step : Option Int) : Except Failure (List α) :=
  let size : Int := items.length
  let step := step.getD 1
  if step = 0 then .error .zeroStep
  else if step > 0 then
    .ok (stepped items ((lo.map (clamp 0 size size)).getD 0)
      ((hi.map (clamp 0 size size)).getD size) step items.length)
  else
    .ok (stepped items ((lo.map (clamp (-1) (size - 1) size)).getD (size - 1))
      ((hi.map (clamp (-1) (size - 1) size)).getD (-1)) step items.length)

def bound? : Value → Except Failure (Option Int)
  | null => .ok none
  | v =>
      match v.integer? with
      | some i => .ok (some i)
      | none => .error .badSliceIndex

def sliceOf (v lo hi step : Value) : Except Failure Value :=
  let cut {α : Type} (items : List α) : Except Failure (List α) := do
    slice items (← bound? lo) (← bound? hi) (← bound? step)
  match v with
  | list items => (cut items).map .list
  | tuple items => (cut items).map .tuple
  | text s => (cut s.toList).map fun cs => .text (String.ofList cs)
  | mapping _ => .error (.unhashable "slice")
  | undefined u => .error (.undefined u.missing)
  | v => .error (.notSubscriptable v.kindName)

end Gosmith.Template
