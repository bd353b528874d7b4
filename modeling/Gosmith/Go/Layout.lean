import Gosmith.Go.Declaration
import Gosmith.Text.Blank

namespace Gosmith.Go

open Gosmith.Text

inductive Gap where
  | none
  | space
  | newline (blank : Bool) (depth : Nat)
deriving DecidableEq, Repr

namespace Layout

inductive Role where
  | binary | unary
deriving DecidableEq, Repr

structure Bracket where
  text : String
  spaced : Bool
deriving DecidableEq, Repr

structure Unbalanced where
  closer : String
  line : Nat
deriving DecidableEq, Repr

def Unbalanced.message (e : Unbalanced) : String :=
  "unbalanced '" ++ e.closer ++ "' at line " ++ e.line.repr

structure Context where
  stack : List Bracket := []
  closing : Option Bracket := none
  prev : Option Token := none
  prevRole : Option Role := none
  printed : Nat := 0
deriving DecidableEq, Repr

def ambiguousOps : List String := ["*", "&", "-", "+", "^", "<-"]

def unaryOps : List String := ["!", "~"]

def binaryOps : List String :=
  ["||", "&&", "==", "!=", "<", "<=", ">", ">=", "|", "/", "%", "<<", ">>", "&^", "=", ":=", "+=",
    "-=", "*=", "/=", "%=", "&=", "|=", "^=", "<<=", ">>=", "&^="]

def isDropped (t : Token) (following : Option Token) : Bool :=
  t.kind == .semicolon &&
    (t.isAuto ||
      match following with
      | none => true
      | some u => 0 < u.newlinesBefore || u.text == braceClose || u.text == ")")

def dropSemicolons : List Token → List Token
  | [] => []
  | t :: rest => if isDropped t rest.head? then dropSemicolons rest else t :: dropSemicolons rest

def role (ctx : Context) (t : Token) (following : Option Token) : Option Role :=
  if t.kind ≠ .op then none
  else if binaryOps.contains t.text then some .binary
  else if unaryOps.contains t.text then some .unary
  else if !ambiguousOps.contains t.text then none
  else match ctx.prev with
    | none => some .unary
    | some prev =>
        if prev.isKeyword "chan" && t.text == "<-" then some .binary
        else if !prev.endsOperand || ctx.prevRole == some .unary then some .unary
        else
          let spaceAfter := match following with
            | none => true
            | some u => 0 < u.newlinesBefore || u.spaceBefore
          if t.spaceBefore && spaceAfter then some .binary else some .unary

def closesOnLine : Nat → List Token → Bool
  | _, [] => true
  | depth, t :: rest =>
      if 0 < t.newlinesBefore then false
      else if t.isOpener then closesOnLine (depth + 1) rest
      else if t.isCloser then depth == 1 || closesOnLine (depth - 1) rest
      else closesOnLine depth rest

def isTypeKeyword (t : Token) : Bool :=
  t.isKeyword "struct" || t.isKeyword "interface"

def spaceBeforeBrace (ctx : Context) (prev t : Token) (rest : List Token) : Bool :=
  if prev.kind = .keyword then
    if isTypeKeyword prev then !closesOnLine 1 rest else true
  else if prev.text == ")" then true
  else if prev.kind == .ident || prev.text == "]" || prev.text == braceClose then t.spaceBefore
  else ctx.prevRole != some .unary

def spaceBeforeParen (ctx : Context) (prev t : Token) : Bool :=
  if prev.kind = .keyword then
    if prev.text == "func" then ctx.printed == 1 else true
  else if prev.text == ")" then t.spaceBefore
  else false

def needsSpace (ctx : Context) (prev t : Token) (r : Option Role) (rest : List Token) : Bool :=
  let top := ctx.stack.head?
  if [",", ";", "++", "--", ")", "]"].contains t.text then false
  else if prev.text == "," || prev.text == ";" then true
  else if t.text == ":" then false
  else if prev.text == ":" then (top.map Bracket.text) != some "["
  else if prev.text == "(" || prev.text == "[" then false
  else if t.text == "." || prev.text == "." then false
  else if t.text == "..." then t.spaceBefore
  else if prev.text == "..." then false
  else if prev.text == braceOpen then t.text != braceClose && top.any Bracket.spaced
  else if t.text == braceOpen then spaceBeforeBrace ctx prev t rest
  else if t.text == braceClose then ctx.closing.any Bracket.spaced
  else if ctx.prevRole = some .unary then false
  else if prev.isKeyword "chan" && t.text == "<-" then false
  else if r = some .binary || ctx.prevRole = some .binary then true
  else if r = some .unary then !prev.endsOperand || t.spaceBefore
  else if t.text == "(" then spaceBeforeParen ctx prev t
  else if t.text == "[" then
    if prev.kind = .keyword then prev.text != "map" else t.spaceBefore
  else if prev.isKeyword "map" then false
  else if prev.text == "]" then t.spaceBefore
  else true

def isSpacedBlock (ctx : Context) (spaced : Bool) : Bool :=
  match ctx.prev with
  | none => spaced
  | some prev =>
      if isTypeKeyword prev then true
      else if ctx.stack.head? == some ⟨braceOpen, false⟩ && [braceOpen, ",", ":"].contains prev.text
      then false
      else spaced

/-- The indentation of a line that starts with `t`: its nesting depth, one less for the cases of a
switch, one more if the line before ends with a binary operator. -/
def indentation (ctx : Context) (t : Token) : Nat :=
  let depth := ctx.stack.length
  if (t.isKeyword "case" || t.isKeyword "default") && 0 < depth then depth - 1
  else if ctx.prevRole = some .binary then depth + 1
  else depth

def close (ctx : Context) (t : Token) : Except Unbalanced Context :=
  if t.isCloser then
    match ctx.stack with
    | [] => .error ⟨t.text, t.pos.line⟩
    | b :: below => .ok { ctx with stack := below, closing := some b }
  else .ok ctx

def gap (ctx : Context) (t : Token) (r : Option Role) (rest : List Token) : Gap :=
  match ctx.prev with
  | none => .none
  | some prev =>
      if 0 < t.newlinesBefore then .newline (1 < t.newlinesBefore) (indentation ctx t)
      else if needsSpace ctx prev t r rest then .space else .none

def after (ctx : Context) (t : Token) (r : Option Role) (g : Gap) : Context :=
  let stack := if t.isOpener then
      ⟨t.text, t.text == braceOpen && isSpacedBlock ctx (g == .space)⟩ :: ctx.stack
    else ctx.stack
  { ctx with stack, prev := some t, prevRole := r, printed := ctx.printed + 1 }

def gaps : Context → List Token → Except Unbalanced (List (Gap × Token))
  | _, [] => .ok []
  | ctx, t :: rest =>
      match close ctx t with
      | .error e => .error e
      | .ok ctx =>
          let r := role ctx t rest.head?
          let g := gap ctx t r rest
          match gaps (after ctx t r g) rest with
          | .error e => .error e
          | .ok more => .ok ((g, t) :: more)

def trimEnd (line : String) : String :=
  String.ofList (trimRight line.toList)

def tabs (n : Nat) : String :=
  String.ofList (List.replicate n '\t')

def breakLines : String → List (Gap × Token) → List String
  | line, [] => [trimEnd line]
  | line, (g, t) :: rest =>
      match g with
      | .none => breakLines (line ++ t.text) rest
      | .space => breakLines (line ++ " " ++ t.text) rest
      | .newline blank depth =>
          trimEnd line :: (if blank then [""] else []) ++ breakLines (tabs depth ++ t.text) rest

def lines (tokens : List Token) : Except Unbalanced (List String) :=
  (gaps {} (dropSemicolons tokens)).map fun
    | [] => []
    | (_, t) :: rest => breakLines t.text rest

end Layout

namespace Declaration

def format (d : Declaration) : Except Layout.Unbalanced String :=
  (Layout.lines d.tokens).map ("\n".intercalate ·)

end Declaration

end Gosmith.Go
