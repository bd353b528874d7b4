import Gosmith.Template.Lexer
import Gosmith.Template.Tree

namespace Gosmith.Template.Parser

open Gosmith.Text

structure Input where
  current : Token
  rest : List Token
  fault : Option (Located Fault)

abbrev P := StateT Input (Except (Located Fault))

def fail {α : Type} (f : Fault) (line : Nat) : P α :=
  throw ⟨f, line⟩

def Input.next (i : Input) : Except (Located Fault) Input :=
  match i.current.kind, i.rest, i.fault with
  | .finish, _, _ => .ok i
  | _, t :: ts, _ => .ok { i with current := t, rest := ts }
  | _, [], some f => .error f
  | _, [], none => .ok { i with current := ⟨.finish, i.current.line⟩ }

def current : P Token := do
  return (← get).current

def advance : P Token := do
  let i ← get
  match i.next with
  | .ok j => set j
  | .error f => throw f
  return i.current

def ahead : P Token.Kind := do
  match (← get).next with
  | .ok j => return j.current.kind
  | .error f => throw f

def isAt (kind : Token.Kind) : P Bool := do
  return (← current).kind == kind

def isAtOp (symbol : String) : P Bool :=
  isAt (.op symbol)

def skipIf (kind : Token.Kind) : P Bool := do
  if ← isAt kind then
    let _ ← advance
    return true
  else return false

def expect (kind : Token.Kind) : P Token := do
  let t ← current
  if t.kind = kind then advance else fail (.expected kind.describe t.kind) t.line

def expectName : P (String × Nat) := do
  let t ← current
  match t.kind with
  | .name n =>
      let _ ← advance
      return (n, t.line)
  | kind => fail (.expected "name" kind) t.line

abbrev LExpr := Located Expr

def chain {α : Type} (step : α → P (Option α)) : Nat → α → P α
  | 0, _ => do fail .tooDeep (← current).line
  | n + 1, a => do
      match ← step a with
      | some b => chain step n b
      | none => return a

section

variable (sub : P LExpr) (n : Nat)

def items {α : Type} (close : String) (item : P α) : P (List α) := do
  let step (acc : List α) : P (Option (List α)) := do
    if ← isAtOp close then return none
    if !acc.isEmpty then
      let _ ← expect (.op ",")
    if ← isAtOp close then return none
    return some (acc ++ [← item])
  chain step n []

def listExpr : P LExpr := do
  let open_ ← expect (.op "[")
  let es ← items n "]" sub
  let _ ← expect (.op "]")
  return ⟨.list (es.map (·.what)), open_.line⟩

def dictEntry : P (Expr × Expr) := do
  let k ← sub
  let _ ← expect (.op ":")
  let v ← sub
  return (k.what, v.what)

def dictExpr : P LExpr := do
  let open_ ← expect (.op braceOpen)
  let es ← items n braceClose (dictEntry sub)
  let _ ← expect (.op braceClose)
  return ⟨.dict es, open_.line⟩

def endsTuple (stop : Option String) (kind : Token.Kind) : Bool :=
  kind == .closePrint || kind == .closeBlock || kind == .op ")" ||
    stop.any fun s => kind == .name s

structure TupleState where
  items : List Expr := []
  first : Option LExpr := none
  line : Nat
  isTuple : Bool := false
  ended : Bool := false

def tupleExpr (item : P LExpr) (bracketed : Bool) (stop : Option String) : P LExpr := do
  let start ← current
  let step (s : TupleState) : P (Option TupleState) := do
    if s.ended then return none
    if !s.items.isEmpty then
      let _ ← expect (.op ",")
    if endsTuple stop (← current).kind then return some { s with ended := true }
    let e ← item
    let s := { s with items := s.items ++ [e.what], first := s.first.or (some e) }
    let t ← current
    if t.kind = .op "," then return some { s with isTuple := true, line := t.line }
    else return some { s with ended := true }
  let s ← chain step n { line := start.line }
  if s.isTuple then return ⟨.tuple s.items, s.line⟩
  match s.first with
  | some e => return e
  | none =>
      if bracketed then return ⟨.tuple [], s.line⟩
      else
        let t ← current
        fail (.noExpression t.kind) t.line

def primary (slots : Bool) : P LExpr := do
  let t ← current
  match t.kind with
  | .name name =>
      let _ ← advance
      match name with
      | "true" => return ⟨.const (.bool true), t.line⟩
      | "True" => return ⟨.const (.bool true), t.line⟩
      | "false" => return ⟨.const (.bool false), t.line⟩
      | "False" => return ⟨.const (.bool false), t.line⟩
      | "none" => return ⟨.const .null, t.line⟩
      | "None" => return ⟨.const .null, t.line⟩
      | name =>
          if slots then
            if ← skipIf (.op ".") then
              let (member, _) ← expectName
              return ⟨.slot name member, t.line⟩
          return ⟨.name t.line name, t.line⟩
  | .string s =>
      let _ ← advance
      let step (acc : String) : P (Option String) := do
        match (← current).kind with
        | .string s =>
            let _ ← advance
            return some (acc ++ s)
        | _ => return none
      return ⟨.const (.text (← chain step n s)), t.line⟩
  | .integer i =>
      let _ ← advance
      return ⟨.const (.int i), t.line⟩
  | .decimal d =>
      let _ ← advance
      return ⟨.const (.float d.toFloat), t.line⟩
  | .op "(" =>
      let _ ← advance
      let e ← tupleExpr n sub true none
      let _ ← expect (.op ")")
      return e
  | .op "[" => listExpr sub n
  | .op braceOpen => dictExpr sub n
  | kind => fail (.unexpected kind) t.line

structure Arguments where
  args : List Expr := []
  named : List (String × Expr) := []

def positional (a : Arguments) (line : Nat) : P Arguments := do
  if !a.named.isEmpty then fail .badArguments line
  let e ← sub
  return { a with args := a.args ++ [e.what] }

def argument (a : Arguments) (line : Nat) : P Arguments := do
  match (← current).kind with
  | .name key =>
      if (← ahead) == .op "=" then
        let _ ← advance
        let _ ← advance
        let e ← sub
        return { a with named := a.named ++ [(key, e.what)] }
      else positional sub a line
  | _ => positional sub a line

def arguments : P Arguments := do
  let open_ ← expect (.op "(")
  let step (s : Arguments × Bool) : P (Option (Arguments × Bool)) := do
    let (a, more) := s
    if ← isAtOp ")" then return none
    if more then
      let _ ← expect (.op ",")
      if ← isAtOp ")" then return none
    return some (← argument sub a open_.line, true)
  let (a, _) ← chain step n ({}, false)
  let _ ← expect (.op ")")
  return a

inductive Subscript where
  | index (e : Expr)
  | range (lo hi step : Expr)

def rangePart : P Expr := do
  let k := (← current).kind
  if k == .op ":" || k == .op "]" || k == .op "," then return .const .null
  return (← sub).what

def rangeFrom (lo : Expr) : P Subscript := do
  let hi ← rangePart sub
  if ← skipIf (.op ":") then return .range lo hi (← rangePart sub)
  else return .range lo hi (.const .null)

def subscript : P Subscript := do
  if ← skipIf (.op ":") then rangeFrom sub (.const .null)
  else
    let e ← sub
    if ← skipIf (.op ":") then rangeFrom sub e.what else return .index e.what

def subscripts : P (List Subscript) := do
  let step (acc : List Subscript) : P (Option (List Subscript)) := do
    if ← isAtOp "]" then return none
    if !acc.isEmpty then
      let _ ← expect (.op ",")
    return some (acc ++ [← subscript sub])
  chain step n []

def Subscript.expr : Subscript → Expr
  | index e => e
  | range lo hi step => .tuple [lo, hi, step]

def postfixStep (e : LExpr) : P (Option LExpr) := do
  let t ← current
  match t.kind with
  | .op "." =>
      let _ ← advance
      let m ← advance
      match m.kind with
      | .name name => return some ⟨.member e.what name, t.line⟩
      | .integer i => return some ⟨.item e.what (.const (.int i)), t.line⟩
      | _ => fail .noMember m.line
  | .op "[" =>
      let _ ← advance
      let subs ← subscripts sub n
      let _ ← expect (.op "]")
      match subs with
      | [.index k] => return some ⟨.item e.what k, t.line⟩
      | [.range lo hi step] => return some ⟨.slice e.what lo hi step, t.line⟩
      | subs => return some ⟨.item e.what (.tuple (subs.map Subscript.expr)), t.line⟩
  | .op "(" =>
      let a ← arguments sub n
      return some ⟨.call e.what a.args a.named, t.line⟩
  | _ => return none

def withPostfix (e : LExpr) : P LExpr :=
  chain (postfixStep sub n) n e

def dottedName : P (String × Nat) := do
  let (name, line) ← expectName
  let step (acc : String) : P (Option String) := do
    if ← skipIf (.op ".") then
      let (part, _) ← expectName
      return some (acc ++ "." ++ part)
    else return none
  return (← chain step n name, line)

def filterExpr (e : Expr) : P LExpr := do
  let _ ← expect (.op "|")
  let (name, line) ← dottedName n
  let a ← if ← isAtOp "(" then arguments sub n else pure {}
  return ⟨.filter line name (e :: a.args) a.named, line⟩

def startsArgument : Token.Kind → Bool
  | .name s => !(["else", "or", "and"].contains s)
  | .string _ => true
  | .integer _ => true
  | .decimal _ => true
  | .op s => s == "[" || s == braceOpen
  | _ => false

def testArguments : P Arguments := do
  let t ← current
  if t.kind = .op "(" then arguments sub n
  else if startsArgument t.kind then
    if t.kind = .name "is" then fail .chainedTests t.line
    let arg ← withPostfix sub n (← primary sub n false)
    return { args := [arg.what] }
  else return {}

def testExpr (e : Expr) : P LExpr := do
  let is ← advance
  let negated ← skipIf (.name "not")
  let (name, _) ← dottedName n
  let a ← testArguments sub n
  let test := Expr.test is.line name (e :: a.args) a.named
  return ⟨if negated then .not test else test, is.line⟩

def filterStep (e : LExpr) : P (Option LExpr) := do
  match (← current).kind with
  | .op "|" => return some (← filterExpr sub n e.what)
  | .name "is" => return some (← testExpr sub n e.what)
  | .op "(" => postfixStep sub n e
  | _ => return none

def unaryExpr : P LExpr := do
  let step (signs : List (UnaryOp × Nat)) : P (Option (List (UnaryOp × Nat))) := do
    let t ← current
    match t.kind with
    | .op "-" =>
        let _ ← advance
        return some ((.neg, t.line) :: signs)
    | .op "+" =>
        let _ ← advance
        return some ((.pos, t.line) :: signs)
    | _ => return none
  let signs ← chain step n []
  let e ← withPostfix sub n (← primary sub n false)
  let signed := signs.foldl (fun e (op, line) => ⟨.unary op e.what, line⟩) e
  chain (filterStep sub n) n signed

def leftChain (operand : P LExpr) (op? : Token.Kind → Option (Expr → Expr → Expr)) : P LExpr := do
  let start ← current
  let first ← operand
  let step (s : LExpr × Nat) : P (Option (LExpr × Nat)) := do
    match op? (← current).kind with
    | none => return none
    | some build =>
        let _ ← advance
        let right ← operand
        return some (⟨build s.1.what right.what, s.2⟩, (← current).line)
  return (← chain step n (first, start.line)).1

def powerExpr : P LExpr :=
  leftChain n (unaryExpr sub n) fun
    | .op "**" => some (.binary .pow)
    | _ => none

def productExpr : P LExpr :=
  leftChain n (powerExpr sub n) fun
    | .op "*" => some (.binary .mul)
    | .op "/" => some (.binary .div)
    | .op "//" => some (.binary .floorDiv)
    | .op "%" => some (.binary .mod)
    | _ => none

def concatExpr : P LExpr := do
  let start ← current
  let first ← productExpr sub n
  let step (parts : List Expr) : P (Option (List Expr)) := do
    if ← skipIf (.op "~") then return some (parts ++ [(← productExpr sub n).what])
    else return none
  match ← chain step n [first.what] with
  | [_] => return first
  | parts => return ⟨.concat parts, start.line⟩

def sumExpr : P LExpr :=
  leftChain n (concatExpr sub n) fun
    | .op "+" => some (.binary .add)
    | .op "-" => some (.binary .sub)
    | _ => none

def compareOp? : Token.Kind → Option CompareOp
  | .op "==" => some .eq
  | .op "!=" => some .ne
  | .op "<" => some .lt
  | .op "<=" => some .le
  | .op ">" => some .gt
  | .op ">=" => some .ge
  | .name "in" => some .isIn
  | _ => none

def takeCompareOp : P (Option CompareOp) := do
  let kind := (← current).kind
  match compareOp? kind with
  | some op =>
      let _ ← advance
      return some op
  | none =>
      if kind == .name "not" then
        if (← ahead) == .name "in" then
          let _ ← advance
          let _ ← advance
          return some .notIn
      return none

def compareExpr : P LExpr := do
  let first ← sumExpr sub n
  let step (ops : List (CompareOp × Expr)) : P (Option (List (CompareOp × Expr))) := do
    match ← takeCompareOp with
    | none => return none
    | some op => return some (ops ++ [(op, (← sumExpr sub n).what)])
  match ← chain step n [] with
  | [] => return first
  | ops => return ⟨.compare first.what ops, (← current).line⟩

def notExpr : P LExpr := do
  let step (lines : List Nat) : P (Option (List Nat)) := do
    let t ← current
    if ← skipIf (.name "not") then return some (t.line :: lines) else return none
  let lines ← chain step n []
  let e ← compareExpr sub n
  return lines.foldl (fun e line => ⟨.not e.what, line⟩) e

def andExpr : P LExpr :=
  leftChain n (notExpr sub n) fun
    | .name "and" => some .and
    | _ => none

def orExpr : P LExpr :=
  leftChain n (andExpr sub n) fun
    | .name "or" => some .or
    | _ => none

def condExpr : P LExpr := do
  let start ← current
  let first ← orExpr sub n
  let step (s : LExpr × Nat) : P (Option (LExpr × Nat)) := do
    if ← skipIf (.name "if") then
      let test ← orExpr sub n
      let no ← if ← skipIf (.name "else") then (do return some (← sub).what) else pure none
      return some (⟨.cond s.2 test.what s.1.what no, s.2⟩, (← current).line)
    else return none
  return (← chain step n (first, start.line)).1

end

def expr : Nat → P LExpr
  | 0 => do fail .tooDeep (← current).line
  | n + 1 => condExpr (expr n) n

def plainExpr (n : Nat) : P LExpr :=
  orExpr (expr n) n

def assignTarget (n : Nat) (slots : Bool) (stop : Option String) : P Target := do
  let e ← tupleExpr n (primary (expr n) n slots) false stop
  match Target.ofExpr? e.what with
  | some t => return t
  | none => fail (.notAssignable e.what.kindName) e.line

def endOfTag : P Unit := do
  let _ ← skipIf (.op ":")
  let _ ← expect .closeBlock

section

variable (body : List OpenBlock → P (List Node)) (n : Nat)

def section_ (blocks : List OpenBlock) (tag : String) (closers : List String) :
    P (List Node) := do
  endOfTag
  let inner := ⟨tag, closers⟩ :: blocks
  let nodes ← body inner
  let t ← current
  if t.kind = .finish then fail (.openBlocks inner) t.line
  return nodes

def lastSection (blocks : List OpenBlock) (tag closer : String) : P (List Node) := do
  let nodes ← section_ body blocks tag [closer]
  let _ ← advance
  return nodes

def loopFilter : P (Option (Nat × Expr)) := do
  if ← skipIf (.name "if") then
    let e ← expr n
    return some (e.line, e.what)
  else return none

def loopSections (blocks : List OpenBlock) : P (List Node × List Node) := do
  let nodes ← section_ body blocks "for" ["endfor", "else"]
  let close ← advance
  if close.kind = .name "endfor" then return (nodes, [])
  else return (nodes, ← lastSection body blocks "for" "endfor")

def forStatement (blocks : List OpenBlock) : P Node := do
  let tag ← expect (.name "for")
  let target ← assignTarget n false (some "in")
  let _ ← expect (.name "in")
  let items ← tupleExpr n (plainExpr n) false (some "recursive")
  let filter ← loopFilter n
  let _ ← skipIf (.name "recursive")
  let (nodes, otherwise) ← loopSections body blocks
  return .loop tag.line target items.what filter nodes otherwise

abbrev Arm := Nat × Expr × List Node

structure ArmState where
  line : Nat
  arms : List Arm := []
  otherwise : Option (List Node) := none

def arm (blocks : List OpenBlock) (s : ArmState) : P (Option ArmState) := do
  if s.otherwise.isSome then return none
  let test ← tupleExpr n (plainExpr n) false none
  let nodes ← section_ body blocks "if" ["elif", "else", "endif"]
  let arms := s.arms ++ [(s.line, test.what, nodes)]
  let close ← advance
  if close.kind = .name "elif" then
    return some { line := (← current).line, arms := arms }
  else if close.kind = .name "else" then
    return some { s with arms := arms, otherwise := some (← lastSection body blocks "if" "endif") }
  else return some { s with arms := arms, otherwise := some [] }

def nestArms (otherwise : List Node) : List Arm → List Node
  | [] => otherwise
  | (line, test, nodes) :: rest => [.branch line test nodes (nestArms otherwise rest)]

def ifStatement (blocks : List OpenBlock) : P (List Node) := do
  let tag ← expect (.name "if")
  let s ← chain (arm body n blocks) n { line := tag.line }
  return nestArms (s.otherwise.getD []) s.arms

def captureFilter : P (Option Expr) := do
  let step (e : Option Expr) : P (Option (Option Expr)) := do
    if ← isAtOp "|" then
      let next ← filterExpr (expr n) n (e.getD .captured)
      return some (some next.what)
    else return none
  chain step n none

def setStatement (blocks : List OpenBlock) : P Node := do
  let tag ← advance
  let target ← assignTarget n true none
  if ← skipIf (.op "=") then
    let e ← tupleExpr n (expr n) false none
    return .assign tag.line target e.what
  else
    let filter ← captureFilter n
    return .capture tag.line target filter (← lastSection body blocks "set" "endset")

def statement (blocks : List OpenBlock) : P (List Node) := do
  let t ← current
  match t.kind with
  | .name "for" => return [← forStatement body n blocks]
  | .name "if" => ifStatement body n blocks
  | .name "set" => return [← setStatement body n blocks]
  | .name tag => fail (.unknownTag tag blocks) t.line
  | _ => fail .noTag t.line

def closes : List OpenBlock → Token.Kind → Bool
  | b :: _, .name tag => b.closers.contains tag
  | _, _ => false

structure BodyState where
  nodes : List Node := []
  ended : Bool := false

def bodyStep (blocks : List OpenBlock) (s : BodyState) : P (Option BodyState) := do
  if s.ended then return none
  let t ← current
  match t.kind with
  | .finish => return none
  | .data text =>
      let _ ← advance
      return some { s with nodes := s.nodes ++ [.text text] }
  | .openPrint =>
      let _ ← advance
      let e ← tupleExpr n (expr n) false none
      let _ ← expect .closePrint
      return some { s with nodes := s.nodes ++ [.print e.line e.what] }
  | _ =>
      let _ ← advance
      if closes blocks (← current).kind then return some { s with ended := true }
      let nodes ← statement body n blocks
      let _ ← expect .closeBlock
      return some { s with nodes := s.nodes ++ nodes }

end

def body : Nat → List OpenBlock → P (List Node)
  | 0, _ => do fail .tooDeep (← current).line
  | n + 1, blocks => do
      return (← chain (bodyStep (body n) n blocks) (n + 1) {}).nodes

end Parser

def parse (opts : Options) (source : String) : Except (Located Fault) (List Node) :=
  let (ts, fault) := tokens opts source
  let start : Parser.Input := ⟨⟨.data "", 1⟩, ts, fault⟩
  match start.next with
  | .error f => .error f
  | .ok input => ((Parser.body (ts.length + 2) []).run input).map Prod.fst

end Gosmith.Template
