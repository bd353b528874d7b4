import Gosmith.Template.Operators

namespace Gosmith.Template

inductive Expr where
  | const (v : Value)
  | name (line : Nat) (name : String)
  | slot (owner name : String)
  | tuple (items : List Expr)
  | list (items : List Expr)
  | dict (entries : List (Expr × Expr))
  | member (e : Expr) (name : String)
  | item (e key : Expr)
  | slice (e lo hi step : Expr)
  | call (f : Expr) (args : List Expr) (named : List (String × Expr))
  | filter (line : Nat) (name : String) (args : List Expr) (named : List (String × Expr))
  | test (line : Nat) (name : String) (args : List Expr) (named : List (String × Expr))
  | unary (op : UnaryOp) (e : Expr)
  | binary (op : BinaryOp) (a b : Expr)
  | concat (parts : List Expr)
  | compare (e : Expr) (rest : List (CompareOp × Expr))
  | not (e : Expr)
  | and (a b : Expr)
  | or (a b : Expr)
  | cond (line : Nat) (test yes : Expr) (no : Option Expr)
deriving Inhabited

namespace Expr

def kindName : Expr → String
  | const _ => "const"
  | name _ _ => "name"
  | slot _ _ => "nsref"
  | tuple _ => "tuple"
  | list _ => "list"
  | dict _ => "dict"
  | member _ _ => "getattr"
  | item _ _ => "getitem"
  | slice _ _ _ _ => "getitem"
  | call _ _ _ => "call"
  | filter _ _ _ _ => "filter"
  | test _ _ _ _ => "test"
  | unary .neg _ => "neg"
  | unary .pos _ => "pos"
  | binary .add _ _ => "add"
  | binary .sub _ _ => "sub"
  | binary .mul _ _ => "mul"
  | binary .div _ _ => "div"
  | binary .floorDiv _ _ => "floordiv"
  | binary .mod _ _ => "mod"
  | binary .pow _ _ => "pow"
  | concat _ => "concat"
  | compare _ _ => "compare"
  | not _ => "not"
  | and _ _ => "and"
  | or _ _ => "or"
  | cond _ _ _ _ => "condexpr"

end Expr

inductive Target where
  | name (line : Nat) (name : String)
  | slot (owner name : String)
  | tuple (items : List Target)
deriving Inhabited

namespace Target

mutual

def ofExpr? : Expr → Option Target
  | .name line n => some (name line n)
  | .slot o n => some (slot o n)
  | .tuple items => (ofExprs? items).map tuple
  | _ => none

def ofExprs? : List Expr → Option (List Target)
  | [] => some []
  | e :: rest => do return (← ofExpr? e) :: (← ofExprs? rest)

end

mutual

def names : Target → List String
  | name _ n => [n]
  | slot _ _ => []
  | tuple items => namesOfAll items

def namesOfAll : List Target → List String
  | [] => []
  | t :: rest => t.names ++ namesOfAll rest

end

mutual

def owners : Target → List String
  | name _ _ => []
  | slot o _ => [o]
  | tuple items => ownersOfAll items

def ownersOfAll : List Target → List String
  | [] => []
  | t :: rest => t.owners ++ ownersOfAll rest

end

mutual

def lineOf? (wanted : String) : Target → Option Nat
  | name line n => if n = wanted then some line else none
  | slot _ _ => none
  | tuple items => lineOfAll? wanted items

def lineOfAll? (wanted : String) : List Target → Option Nat
  | [] => none
  | t :: rest => (t.lineOf? wanted).or (lineOfAll? wanted rest)

end

end Target

def Expr.captured : Expr :=
  .name 0 ""

inductive Node where
  | text (s : String)
  | print (line : Nat) (e : Expr)
  | assign (line : Nat) (target : Target) (e : Expr)
  | capture (line : Nat) (target : Target) (filter : Option Expr) (body : List Node)
  | branch (line : Nat) (test : Expr) (yes no : List Node)
  | loop (line : Nat) (target : Target) (items : Expr) (filter : Option (Nat × Expr))
      (body otherwise : List Node)
deriving Inhabited

end Gosmith.Template
