import Gosmith.Template.Operators
import Gosmith.Template.Session

namespace Gosmith.Template.Loop

variable (passes : Value → Run Bool)

def here (depth : Nat) : Run Rounds := do
  return ((← get).loops[depth]?).getD {}

def put (depth : Nat) (c : Rounds) : Run Unit :=
  modify fun s => { s with loops := s.loops.set depth c }

def begin (c : Rounds) : Run Unit :=
  modify fun s => { s with loops := s.loops ++ [c] }

def finish : Run Unit :=
  modify fun s => { s with loops := s.loops.dropLast }

def draw : List Value → Run (Option (Value × List Value))
  | [] => return none
  | item :: rest => do if ← passes item then return some (item, rest) else draw rest

def drawAll : List Value → Run (List Value)
  | [] => return []
  | item :: rest => do
      if ← passes item then return item :: (← drawAll rest) else drawAll rest

def hasNext (depth : Nat) : Run Bool := do
  let c ← here depth
  if !c.ready.isEmpty then return true
  match ← draw passes c.untested with
  | some (item, rest) =>
      put depth { c with ready := [item], untested := rest }
      return true
  | none =>
      put depth { c with untested := [] }
      return false

def size (depth : Nat) : Run Nat := do
  let c ← here depth
  let ready := c.ready ++ (← drawAll passes c.untested)
  put depth { c with ready := ready, untested := [] }
  return c.index + ready.length

def next (depth : Nat) : Run (Option Value) := do
  if !(← hasNext passes depth) then return none
  let c ← here depth
  match c.ready with
  | [] => return none
  | item :: rest =>
      put depth { c with index := c.index + 1, ready := rest }
      return some item

def runAll (next : Run (Option Value)) (round : Value → Run String) : Nat → Run (String × Nat)
  | 0 => return ("", 0)
  | n + 1 => do
      match ← next with
      | none => return ("", 0)
      | some item =>
          let text ← round item
          let (more, count) ← runAll next round n
          return (text ++ more, count + 1)

def state (depth : Nat) : Run LoopState := do
  let length ← size passes depth
  return { depth, index := (← here depth).index, length }

def member (l : LoopState) (name : String) : Run Value := do
  let index : Int := (← here l.depth).index
  match name with
  | "index" => return .int index
  | "index0" => return .int (index - 1)
  | "first" => return .bool (index == 1)
  | "last" => return .bool (!(← hasNext passes l.depth))
  | "length" => return .int (← size passes l.depth)
  | "revindex" => return .int ((← size passes l.depth) - index + 1)
  | "revindex0" => return .int ((← size passes l.depth) - index)
  | "depth" => return .int 1
  | "depth0" => return .int 0
  | name => return .ofMissing (.member (Value.loop l).ownerName name)

end Gosmith.Template.Loop
