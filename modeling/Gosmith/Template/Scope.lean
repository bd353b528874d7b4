import Gosmith.Template.Session
import Gosmith.Template.Tree

namespace Gosmith.Template

mutual

def Expr.names : Expr → List String
  | .const _ => []
  | .name _ n => [n]
  | .slot o _ => [o]
  | .tuple items => exprNames items
  | .list items => exprNames items
  | .dict entries => entryNames entries
  | .member e _ => e.names
  | .item e k => e.names ++ k.names
  | .slice e lo hi step => e.names ++ lo.names ++ hi.names ++ step.names
  | .call f args named => f.names ++ exprNames args ++ namedNames named
  | .filter _ _ args named => exprNames args ++ namedNames named
  | .test _ _ args named => exprNames args ++ namedNames named
  | .unary _ e => e.names
  | .binary _ a b => a.names ++ b.names
  | .concat parts => exprNames parts
  | .compare e rest => e.names ++ operandNames rest
  | .not e => e.names
  | .and a b => a.names ++ b.names
  | .or a b => a.names ++ b.names
  | .cond _ test yes no => test.names ++ yes.names ++ optionNames no

def exprNames : List Expr → List String
  | [] => []
  | e :: rest => e.names ++ exprNames rest

def entryNames : List (Expr × Expr) → List String
  | [] => []
  | (k, v) :: rest => k.names ++ v.names ++ entryNames rest

def namedNames : List (String × Expr) → List String
  | [] => []
  | (_, e) :: rest => e.names ++ namedNames rest

def operandNames : List (CompareOp × Expr) → List String
  | [] => []
  | (_, e) :: rest => e.names ++ operandNames rest

def optionNames : Option Expr → List String
  | none => []
  | some e => e.names

end

inductive Start where
  | given
  | outer
  | blank
deriving DecidableEq, Repr

structure Survey where
  starts : List (String × Start) := []
  sets : List String := []

namespace Survey

variable (known : String → Bool)

def has (s : Survey) (name : String) : Bool :=
  s.starts.any fun p => p.1 == name

def read (s : Survey) (name : String) : Survey :=
  if s.has name || known name then s else { s with starts := s.starts ++ [(name, .outer)] }

def store (s : Survey) (name : String) : Survey :=
  { starts :=
      if s.has name then s.starts
      else s.starts ++ [(name, if known name then .outer else .blank)]
    sets := name :: s.sets }

def readAll (s : Survey) (names : List String) : Survey :=
  names.foldl (read known) s

def storeAll (s : Survey) (names : List String) : Survey :=
  names.foldl (store known) s

def join (s a b : Survey) : Survey :=
  let fresh := (a.sets ++ b.sets).filter fun n => !s.sets.contains n
  let starts := a.starts ++ b.starts.filter fun (n, _) => !a.has n
  { starts := starts.map fun (n, start) => (n, if fresh.contains n then .outer else start)
    sets := a.sets ++ b.sets }

mutual

def node (s : Survey) : Node → Survey
  | .text _ => s
  | .print _ e => s.readAll known e.names
  | .assign _ target e =>
      ((s.readAll known e.names).readAll known target.owners).storeAll known target.names
  | .capture _ target _ _ => (s.readAll known target.owners).storeAll known target.names
  | .branch _ test yes no =>
      let s := s.readAll known test.names
      s.join (nodes s yes) (nodes s no)
  | .loop _ _ items _ _ _ => s.readAll known items.names

def nodes (s : Survey) : List Node → Survey
  | [] => s
  | n :: rest => nodes (node s n) rest

end

end Survey

abbrev Frame := List (String × Option Value)

structure Scope where
  frames : List Frame := []
  context : List (String × Value)
  loops : List (Value → Run Bool) := []

namespace Scope

def known (s : Scope) (name : String) : Bool :=
  s.frames.any fun f => f.any fun p => p.1 == name

def find? (s : Scope) (name : String) : Option Value :=
  match s.frames.findSome? fun f => f.lookup name with
  | some v => v
  | none => s.context.lookup name

def read (s : Scope) (name : String) : Value :=
  (s.find? name).getD (.ofMissing (.name name))

def enter (s : Scope) (params : List (String × Option Value)) (body : List Node) : Frame :=
  let start : Survey :=
    { starts := params.map fun (n, _) => (n, .given), sets := params.map Prod.fst }
  ((start.nodes s.known body).starts).map fun (n, how) =>
    match how with
    | .given => (n, (params.lookup n).join)
    | .outer => (n, s.find? n)
    | .blank => (n, none)

def push (s : Scope) (f : Frame) : Scope :=
  { s with frames := f :: s.frames }

def passes (s : Scope) (depth : Nat) : Value → Run Bool :=
  (s.loops[depth]?).getD fun _ => pure true

end Scope

def Frame.set (name : String) (v : Value) : Frame → Frame
  | [] => [(name, some v)]
  | (n, w) :: rest => if n = name then (n, some v) :: rest else (n, w) :: Frame.set name v rest

end Gosmith.Template
