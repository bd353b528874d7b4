import Gosmith.Go.Declaration

namespace Gosmith.Generator

open Gosmith.Go

def kindRank : Declaration.Kind → Nat
  | .const => 0
  | .var => 1
  | .type => 2
  | .func => 3

def sortByKind (ds : List Declaration) : List Declaration :=
  ds.mergeSort fun a b => decide (kindRank a.kind ≤ kindRank b.kind)

def typeNames (ds : List Declaration) : List String :=
  (ds.filter fun d => d.kind == .type).flatMap (·.names)

def isMethodOf (types : List String) (d : Declaration) : Bool :=
  d.receiver.any types.contains

/-- Puts the methods of each type behind the first declaration of it. `pending` holds the methods
that are still to be placed. -/
def placeMethods (pending : List Declaration) : List Declaration → List Declaration
  | [] => []
  | d :: rest =>
      if d.kind = .type then
        let (mine, others) := take d.names pending
        d :: mine ++ placeMethods others rest
      else d :: placeMethods pending rest
where
  take : List String → List Declaration → List Declaration × List Declaration
    | [], ms => ([], ms)
    | name :: names, ms =>
        let (mine, others) := ms.partition fun m => isMethodOf [name] m
        let (more, others) := take names others
        (mine ++ more, others)

def groupMethods (ds : List Declaration) : List Declaration :=
  let types := typeNames ds
  let (methods, rest) := ds.partition (isMethodOf types)
  placeMethods methods rest

end Gosmith.Generator
