import Gosmith.Template.Constant
import Gosmith.Template.Token

namespace Gosmith.Template

inductive Rejection where
  | malformed (f : Located Fault)
  | failed (f : Failure)

namespace Check

abbrev Verdict := Except Rejection Unit

def reject (f : Fault) (line : Nat) : Verdict :=
  .error (.malformed ⟨f, line⟩)

def knownFilter (soft : Bool) (line : Nat) (name : String) : Verdict :=
  if soft || (Filter.ofName? name).isSome then .ok () else reject (.unknownFilter name) line

def knownTest (soft : Bool) (line : Nat) (name : String) : Verdict :=
  if soft || (Test.ofName? name).isSome then .ok () else reject (.unknownTest name) line

mutual

def names (soft : Bool) : Expr → Verdict
  | .const _ => .ok ()
  | .name _ _ => .ok ()
  | .slot _ _ => .ok ()
  | .tuple items => allNames soft items
  | .list items => allNames soft items
  | .dict entries => entryNames soft entries
  | .member e _ => names soft e
  | .item e k => do names soft e; names soft k
  | .slice e lo hi step => do names soft e; names soft lo; names soft hi; names soft step
  | .call f args kw => do names soft f; allNames soft args; namedNames soft kw
  | .filter line name args kw => do
      knownFilter soft line name
      allNames soft args
      namedNames soft kw
  | .test line name args kw => do
      knownTest soft line name
      allNames soft args
      namedNames soft kw
  | .unary _ e => names soft e
  | .binary _ a b => do names soft a; names soft b
  | .concat parts => allNames soft parts
  | .compare e rest => do names soft e; operandNames soft rest
  | .not e => names soft e
  | .and a b => do names soft a; names soft b
  | .or a b => do names soft a; names soft b
  | .cond _ _ _ _ => .ok ()

def allNames (soft : Bool) : List Expr → Verdict
  | [] => .ok ()
  | e :: rest => do names soft e; allNames soft rest

def entryNames (soft : Bool) : List (Expr × Expr) → Verdict
  | [] => .ok ()
  | (k, v) :: rest => do names soft k; names soft v; entryNames soft rest

def namedNames (soft : Bool) : List (String × Expr) → Verdict
  | [] => .ok ()
  | (_, e) :: rest => do names soft e; namedNames soft rest

def operandNames (soft : Bool) : List (CompareOp × Expr) → Verdict
  | [] => .ok ()
  | (_, e) :: rest => do names soft e; operandNames soft rest

end

def operation (soft : Bool) (e : Expr) : Verdict :=
  match e.fold with
  | .ok e => names soft e
  | .error f => .error (.failed f)

mutual

def expr (soft : Bool) : Expr → Verdict
  | .tuple items => exprs soft items
  | .list items => exprs soft items
  | .dict entries => pairs soft entries
  | e => operation soft e

def exprs (soft : Bool) : List Expr → Verdict
  | [] => .ok ()
  | e :: rest => do expr soft e; exprs soft rest

def pairs (soft : Bool) : List (Expr × Expr) → Verdict
  | [] => .ok ()
  | (k, v) :: rest => do expr soft k; expr soft v; pairs soft rest

end

def hasText (e : Expr) : Bool :=
  match e.constant with
  | .ok v => (printed v).isOk
  | .error _ => false

mutual

def loopSetLine? : Node → Option Nat
  | .assign _ target _ => target.lineOf? "loop"
  | .capture _ target _ body => (target.lineOf? "loop").or (loopSetLines? body)
  | .branch _ _ yes no => (loopSetLines? yes).or (loopSetLines? no)
  | .loop _ target _ _ body otherwise =>
      (target.lineOf? "loop").or ((loopSetLines? body).or (loopSetLines? otherwise))
  | _ => none

def loopSetLines? : List Node → Option Nat
  | [] => none
  | n :: rest => (loopSetLine? n).or (loopSetLines? rest)

end

mutual

def node (soft : Bool) : Node → Verdict
  | .text _ => .ok ()
  | .print _ e => if hasText e then .ok () else expr soft e
  | .assign _ _ e => expr soft e
  | .capture _ _ filter body => do
      nodes false body
      match filter with
      | some e => expr false e
      | none => .ok ()
  | .branch _ test yes no => do expr true test; nodes true yes; nodes true no
  | .loop line target items filter body otherwise => do
      match filter with
      | some (_, e) => expr false e
      | none => .ok ()
      match loopSetLine? (.loop line target items filter body otherwise) with
      | some l => reject .loopAssigned l
      | none => .ok ()
      expr soft items
      nodes false body
      nodes false otherwise

def nodes (soft : Bool) : List Node → Verdict
  | [] => .ok ()
  | n :: rest => do node soft n; nodes soft rest

end

end Check

end Gosmith.Template
