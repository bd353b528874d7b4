import Gosmith.Template.Failure

namespace Gosmith.Template

structure Parameter where
  name : String
  default? : Option Value := none

structure Signature where
  function : String
  implicit : List String := []
  params : List Parameter

namespace Signature

abbrev Slot := Parameter × Option Value

def fill : List Parameter → List Value → List Slot
  | [], _ => []
  | p :: ps, [] => (p, none) :: fill ps []
  | p :: ps, v :: vs => (p, some v) :: fill ps vs

def fillNamed (name : String) (value : Value) : List Slot → Except Mismatch (List Slot)
  | [] => .error (.unexpectedName name)
  | (p, v) :: rest =>
      if p.name = name then
        match v with
        | some _ => .error (.repeatedName name)
        | none => .ok ((p, some value) :: rest)
      else (fillNamed name value rest).map ((p, v) :: ·)

def fillAllNamed (taken : List String) (slots : List Slot) :
    List (String × Value) → Except Mismatch (List Slot)
  | [] => .ok slots
  | (name, value) :: rest => do
      if taken.contains name then throw (.repeatedName name)
      fillAllNamed taken (← fillNamed name value slots) rest

def finished (slots : List Slot) : List (Option Value) :=
  slots.map fun (p, v) => v.or p.default?

def unfilled (slots : List Slot) : List String :=
  slots.filterMap fun (p, v) => if (v.or p.default?).isNone then some p.name else none

def required (s : Signature) : Nat :=
  (s.params.filter fun p => p.default?.isNone).length

def bind (s : Signature) (args : List Value) (named : List (String × Value)) :
    Except Failure (List Value) :=
  let result : Except Mismatch (List Value) := do
    let slots ← fillAllNamed s.implicit (fill s.params args) named
    if args.length > s.params.length then
      let more := s.implicit.length
      throw (.tooMany (more + s.required) (more + s.params.length) (more + args.length))
    if unfilled slots ≠ [] then throw (.missing (unfilled slots))
    return (finished slots).filterMap id
  match result with
  | .ok values => .ok values
  | .error m => .error (.badCall s.function m)

end Signature

end Gosmith.Template
