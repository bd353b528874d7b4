import Gosmith.Template.Library
import Gosmith.Template.Tree

namespace Gosmith.Template

inductive Obstacle where
  | unsettled
  | failed (f : Failure)

def urgent {α : Type} (r : Except Failure α) : Except Obstacle α :=
  r.mapError .failed

def postponed {α : Type} (r : Except Obstacle α) : Except Obstacle α :=
  r.mapError fun _ => .unsettled

mutual

def Expr.constant : Expr → Except Obstacle Value
  | .const v => .ok v
  | .name _ _ => .error .unsettled
  | .slot _ _ => .error .unsettled
  | .call _ _ _ => .error .unsettled
  | .tuple items => (constants items).map .tuple
  | .list items => (constants items).map .list
  | .dict entries => (constantEntries [] entries).map .mapping
  | .member e name => postponed do urgent (member (← e.constant) name)
  | .item e key => postponed do urgent (element (← e.constant) (← key.constant))
  | .slice e lo hi step => postponed do
      urgent (sliceOf (← e.constant) (← lo.constant) (← hi.constant) (← step.constant))
  | .filter _ name args named =>
      match Filter.ofName? name with
      | some f => postponed do urgent (f.apply (← constants args) (← constantNamed named))
      | none => .error .unsettled
  | .test _ name args named =>
      match Test.ofName? name with
      | some t => postponed do urgent (t.apply (← constants args) (← constantNamed named))
      | none => .error .unsettled
  | .unary op e => postponed do urgent (unary op (← e.constant))
  | .binary op a b => postponed do urgent (binary op (← a.constant) (← b.constant))
  | .concat parts => (constantText parts).map .text
  | .compare e rest => do
      let v ← e.constant
      postponed (constantChain v rest)
  | .not e => postponed do return .bool (!(← urgent (isTrue (← e.constant))))
  | .and a b => do
      let v ← a.constant
      if ← urgent (isTrue v) then b.constant else return v
  | .or a b => do
      let v ← a.constant
      if ← urgent (isTrue v) then return v else b.constant
  | .cond _ test yes no => do
      if ← urgent (isTrue (← test.constant)) then yes.constant else constantOption no

def constants : List Expr → Except Obstacle (List Value)
  | [] => .ok []
  | e :: rest => do
      let v ← e.constant
      return v :: (← constants rest)

def constantEntries (acc : List (Value × Value)) :
    List (Expr × Expr) → Except Obstacle (List (Value × Value))
  | [] => .ok acc
  | (k, e) :: rest => do
      let k ← k.constant
      let v ← e.constant
      urgent (checkKey k)
      constantEntries (Value.insert k v acc) rest

def constantNamed : List (String × Expr) → Except Obstacle (List (String × Value))
  | [] => .ok []
  | (name, e) :: rest => do
      let v ← e.constant
      return (name, v) :: (← constantNamed rest)

def constantText : List Expr → Except Obstacle String
  | [] => .ok ""
  | e :: rest => do
      let s ← urgent (printed (← e.constant))
      return s ++ (← constantText rest)

def constantChain (left : Value) : List (CompareOp × Expr) → Except Obstacle Value
  | [] => .ok (.bool true)
  | (op, e) :: rest => do
      let right ← e.constant
      if ← urgent (relate op left right) then constantChain right rest else return .bool false

def constantOption : Option Expr → Except Obstacle Value
  | none => .error .unsettled
  | some e => e.constant

end

mutual

def isLiteral : Value → Bool
  | .null => true
  | .bool _ => true
  | .int _ => true
  | .float _ => true
  | .text _ => true
  | .list items => areLiterals items
  | .tuple items => areLiterals items
  | .mapping entries => areLiteralEntries entries
  | _ => false

def areLiterals : List Value → Bool
  | [] => true
  | v :: rest => isLiteral v && areLiterals rest

def areLiteralEntries : List (Value × Value) → Bool
  | [] => true
  | (k, v) :: rest => isLiteral k && isLiteral v && areLiteralEntries rest

end

def Expr.literal (e : Expr) : Except Failure Expr :=
  match e.constant with
  | .ok v => .ok (if isLiteral v then .const v else e)
  | .error .unsettled => .ok e
  | .error (.failed f) => .error f

mutual

def Expr.fold : Expr → Except Failure Expr
  | .const v => .ok (.const v)
  | .name line n => .ok (.name line n)
  | .slot o n => .ok (.slot o n)
  | .tuple items => do Expr.literal (.tuple (← foldAll items))
  | .list items => do Expr.literal (.list (← foldAll items))
  | .dict entries => do Expr.literal (.dict (← foldEntries entries))
  | .member e name => do Expr.literal (.member (← e.fold) name)
  | .item e key => do Expr.literal (.item (← e.fold) (← key.fold))
  | .slice e lo hi step => do
      Expr.literal (.slice (← e.fold) (← lo.fold) (← hi.fold) (← step.fold))
  | .call f args named => do
      Expr.literal (.call (← f.fold) (← foldAll args) (← foldNamed named))
  | .filter line name args named => do
      Expr.literal (.filter line name (← foldAll args) (← foldNamed named))
  | .test line name args named => do
      Expr.literal (.test line name (← foldAll args) (← foldNamed named))
  | .unary op e => do Expr.literal (.unary op (← e.fold))
  | .binary op a b => do Expr.literal (.binary op (← a.fold) (← b.fold))
  | .concat parts => do Expr.literal (.concat (← foldAll parts))
  | .compare e rest => do Expr.literal (.compare (← e.fold) (← foldOperands rest))
  | .not e => do Expr.literal (.not (← e.fold))
  | .and a b => do Expr.literal (.and (← a.fold) (← b.fold))
  | .or a b => do Expr.literal (.or (← a.fold) (← b.fold))
  | .cond line test yes no => do
      Expr.literal (.cond line (← test.fold) (← yes.fold) (← foldOption no))

def foldAll : List Expr → Except Failure (List Expr)
  | [] => .ok []
  | e :: rest => do
      let e ← e.fold
      return e :: (← foldAll rest)

def foldEntries : List (Expr × Expr) → Except Failure (List (Expr × Expr))
  | [] => .ok []
  | (k, e) :: rest => do
      let k ← k.fold
      let e ← e.fold
      return (k, e) :: (← foldEntries rest)

def foldNamed : List (String × Expr) → Except Failure (List (String × Expr))
  | [] => .ok []
  | (name, e) :: rest => do
      let e ← e.fold
      return (name, e) :: (← foldNamed rest)

def foldOperands : List (CompareOp × Expr) → Except Failure (List (CompareOp × Expr))
  | [] => .ok []
  | (op, e) :: rest => do
      let e ← e.fold
      return (op, e) :: (← foldOperands rest)

def foldOption : Option Expr → Except Failure (Option Expr)
  | none => .ok none
  | some e => e.fold.map some

end

end Gosmith.Template
