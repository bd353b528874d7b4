import Gosmith.Template.Library
import Gosmith.Template.Loop
import Gosmith.Template.Scope
import Gosmith.Template.Token

namespace Gosmith.Template

def settled (s : Scope) : Value → Run Value
  | .loop l => do return .loop (← Loop.state (s.passes l.depth) l.depth)
  | v => pure v

def settledAll (s : Scope) : List Value → Run (List Value)
  | [] => return []
  | v :: rest => do
      let v ← settled s v
      return v :: (← settledAll s rest)

def truth (s : Scope) (v : Value) : Run Bool := do
  Run.ofExcept (isTrue (← settled s v))

def text (s : Scope) (v : Value) : Run String := do
  Run.ofExcept (printed (← settled s v))

def memberOf (s : Scope) (v : Value) (name : String) : Run Value :=
  match v with
  | .loop l => Loop.member (s.passes l.depth) l name
  | v => Run.ofExcept (member v name)

def elementOf (s : Scope) (v key : Value) : Run Value :=
  match v, key with
  | .loop l, .text name => Loop.member (s.passes l.depth) l name
  | v, key => Run.ofExcept (element v key)

def buildMapping : List (Value × Value) → Except Failure Value
  | pairs => do
      let _ ← pairs.mapM fun (k, _) => checkKey k
      return .mapping (pairs.foldl (fun m (k, v) => Value.insert k v m) [])

mutual

def Expr.eval (s : Scope) : Expr → Run Value
  | .const v => return v
  | .name _ n => Run.found (s.read n)
  | .slot o _ => Run.found (s.read o)
  | .tuple items => do return .tuple (← evalItems s items)
  | .list items => do return .list (← evalItems s items)
  | .dict entries => do Run.ofExcept (buildMapping (← evalEntries s entries))
  | .member e name => do Run.found (← memberOf s (← e.eval s) name)
  | .item e key => do
      let v ← e.eval s
      let k ← key.eval s
      Run.found (← elementOf s v k)
  | .slice e lo hi step => do
      let v ← e.eval s
      let lo ← lo.eval s
      let hi ← hi.eval s
      let step ← step.eval s
      Run.ofExcept (sliceOf v lo hi step)
  | .call f args named => do
      let f ← f.eval s
      let args ← evalItems s args
      let named ← evalNamed s named
      Template.call f args named
  | .filter _ name args named => do
      let args ← evalItems s args
      let named ← evalNamed s named
      match Filter.ofName? name with
      | some f => Run.ofExcept (f.apply (← settledAll s args) named)
      | none => Run.fail (.missingFilter name)
  | .test _ name args named => do
      let args ← evalItems s args
      let named ← evalNamed s named
      match Test.ofName? name with
      | some t => Run.ofExcept (t.apply args named)
      | none => Run.fail (.missingTest name)
  | .unary op e => do Run.ofExcept (Template.unary op (← e.eval s))
  | .binary op a b => do
      let a ← a.eval s
      let b ← b.eval s
      Run.ofExcept (Template.binary op a b)
  | .concat parts => do
      let vs ← evalItems s parts
      return .text ("".intercalate (← vs.mapM (text s)))
  | .compare e rest => do evalChain s (← e.eval s) rest
  | .not e => do return .bool (!(← truth s (← e.eval s)))
  | .and a b => do
      let v ← a.eval s
      if ← truth s v then b.eval s else return v
  | .or a b => do
      let v ← a.eval s
      if ← truth s v then return v else b.eval s
  | .cond line test yes no => do
      if ← truth s (← test.eval s) then yes.eval s else evalOption s line no

def evalItems (s : Scope) : List Expr → Run (List Value)
  | [] => return []
  | e :: rest => do
      let v ← e.eval s
      return v :: (← evalItems s rest)

def evalEntries (s : Scope) : List (Expr × Expr) → Run (List (Value × Value))
  | [] => return []
  | (k, e) :: rest => do
      let k ← k.eval s
      let v ← e.eval s
      return (k, v) :: (← evalEntries s rest)

def evalNamed (s : Scope) : List (String × Expr) → Run (List (String × Value))
  | [] => return []
  | (name, e) :: rest => do
      let v ← e.eval s
      return (name, v) :: (← evalNamed s rest)

def evalChain (s : Scope) (left : Value) : List (CompareOp × Expr) → Run Value
  | [] => return .bool true
  | (op, e) :: rest => do
      let right ← e.eval s
      if ← Run.ofExcept (relate op left right) then evalChain s right rest else return .bool false

def evalOption (s : Scope) (line : Nat) : Option Expr → Run Value
  | none => Run.found (.ofMissing (.noElse line))
  | some e => e.eval s

end

mutual

def Target.bind (v : Value) : Target → Except Failure (List (String × Value))
  | .name _ n => .ok [(n, v)]
  | .slot _ _ => .error .notNamespace
  | .tuple targets =>
      match iterate v with
      | .error (.notIterable kind) => .error (.notUnpackable kind)
      | .error e => .error e
      | .ok items =>
          if items.length < targets.length then
            .error (.tooFewValues targets.length items.length)
          else if items.length > targets.length then .error (.tooManyValues targets.length)
          else bindAll items targets

def bindAll : List Value → List Target → Except Failure (List (String × Value))
  | v :: vs, t :: ts => do return (← t.bind v) ++ (← bindAll vs ts)
  | _, _ => .ok []

end

def given (pairs : List (String × Value)) : Frame :=
  (Assoc.ofList pairs).map fun (n, v) => (n, some v)

def Frame.setAll (f : Frame) (pairs : List (String × Value)) : Frame :=
  pairs.foldl (fun f (n, v) => Frame.set n v f) f

def passesFilter (s : Scope) (target : Target) (filter : Option (Nat × Expr)) (item : Value) :
    Run Bool :=
  match filter with
  | none => return true
  | some (line, test) =>
      Run.onLine line do
        let bound ← Run.ofExcept (target.bind item)
        let inner := s.push (given bound)
        truth inner (← test.eval inner)

def filtered (scope : Scope) (captured : String) : Option Expr → Run Value
  | none => return .text captured
  | some e => e.eval (scope.push [("", some (.text captured))])

mutual

def Node.run (outer : Scope) (frame : Frame) : Node → Run (String × Frame)
  | .text s => return (s, frame)
  | .print line e => do
      let scope := outer.push frame
      let s ← Run.onLine line do text scope (← e.eval scope)
      return (s, frame)
  | .assign line target e => do
      let bound ← Run.onLine line do
        if !target.owners.isEmpty then Run.fail .notNamespace
        Run.ofExcept (target.bind (← e.eval (outer.push frame)))
      return ("", frame.setAll bound)
  | .capture line target filter body => do
      let scope := outer.push frame
      let (s, inner) ← runNodes scope (scope.enter [] body) body
      let bound ← Run.onLine line do
        Run.ofExcept (target.bind (← filtered (scope.push inner) s filter))
      return ("", frame.setAll bound)
  | .branch line test yes no => do
      let scope := outer.push frame
      let b ← Run.onLine line do truth scope (← test.eval scope)
      if b then runNodes outer frame yes else runNodes outer frame no
  | .loop line target items filter body otherwise => do
      let scope := outer.push frame
      let items ← Run.onLine line (items.eval scope)
      let items ← Run.onLine (filter.elim line Prod.fst) (Run.ofExcept (iterate items))
      let depth := scope.loops.length
      let passes := passesFilter scope target filter
      let inner := { scope with loops := scope.loops ++ [passes] }
      let round (item : Value) : Run String := do
        let bound ← Run.onLine line (Run.ofExcept (target.bind item))
        let params := ("loop", some (.loop { depth })) :: given bound
        return (← runNodes inner (inner.enter params body) body).1
      Loop.begin (if filter.isSome then { untested := items } else { ready := items })
      let (s, count) ← Loop.runAll (Loop.next passes depth) round items.length
      Loop.finish
      if count = 0 then
        let (s, _) ← runNodes scope (scope.enter [] otherwise) otherwise
        return (s, frame)
      else return (s, frame)

def runNodes (outer : Scope) (frame : Frame) : List Node → Run (String × Frame)
  | [] => return ("", frame)
  | n :: rest => do
      let (s, frame) ← n.run outer frame
      let (more, frame) ← runNodes outer frame rest
      return (s ++ more, frame)

end

def run (context : List (String × Value)) (nodes : List Node) : Run String := do
  let scope : Scope := { context := context }
  return (← runNodes scope (scope.enter [] nodes) nodes).1

end Gosmith.Template
