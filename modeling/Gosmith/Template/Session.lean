import Gosmith.Assoc
import Gosmith.Template.Failure

namespace Gosmith.Template

open Gosmith.Imports Gosmith.Journal

structure Session where
  imports : Table := {}
  requested : List (String × String) := []
  events : List Event := []

-- only a tracked request is noted under the name it was answered with
def Session.request (s : Session) (tracked : Bool) (path : String) :
    Except Imports.Fault (String × Session) :=
  match s.imports.request path with
  | .error e => .error e
  | .ok (name, imports, events) =>
      .ok (name,
        { imports := imports
          requested := if tracked then Assoc.set name path s.requested else s.requested
          events := s.events ++ events })

structure Rounds where
  index : Nat := 0
  ready : List Value := []
  untested : List Value := []

structure State extends Session where
  loops : List Rounds := []
  misses : Nat := 0

structure Raised where
  failure : Failure
  line? : Option Nat := none

abbrev Run := ExceptT Raised (StateM State)

namespace Run

def fail {α : Type} (f : Failure) : Run α :=
  throw { failure := f }

def ofExcept {α : Type} : Except Failure α → Run α
  | .ok a => pure a
  | .error f => fail f

-- each look-up that finds nothing gives a value unlike those before, so misses are counted
def found : Value → Run Value
  | .undefined u => do
      if u.serial = 0 then
        let misses := (← get).misses + 1
        modify fun s => { s with misses }
        return .undefined { u with serial := misses }
      else return .undefined u
  | v => return v

def onLine {α : Type} (line : Nat) (m : Run α) : Run α :=
  fun state =>
    match m state with
    | (.ok a, state) => (.ok a, state)
    | (.error r, state) => (.error { r with line? := r.line?.or (some line) }, state)

end Run

end Gosmith.Template
