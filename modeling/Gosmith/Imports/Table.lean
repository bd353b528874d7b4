import Gosmith.Go.Declaration
import Gosmith.Go.ImportPath
import Gosmith.Journal.Event
import Gosmith.Text.Quoted

namespace Gosmith.Imports

open Gosmith.Go Gosmith.Journal Gosmith.Text

inductive Origin where
  | requested | literal
deriving DecidableEq, Repr, Inhabited

def Origin.text : Origin → String
  | .requested => "programmatic"
  | .literal => "literal"

structure Binding where
  path : String
  name : String
  origin : Origin
deriving DecidableEq, Repr, Inhabited

structure Table where
  bindings : List Binding := []
  names : List (String × String) := []
deriving DecidableEq, Repr, Inhabited

inductive Fault where
  | invalidPath (path : String)
deriving DecidableEq, Repr

def Fault.message : Fault → String
  | .invalidPath path => "Invalid import path: " ++ quoted path

namespace Table

def size (t : Table) : Nat :=
  t.bindings.length

def find? (t : Table) (path : String) : Option Binding :=
  t.bindings.find? (·.path == path)

def contains (t : Table) (path : String) : Bool :=
  (t.find? path).isSome

def nameOf? (t : Table) (path : String) : Option String :=
  (t.find? path).map Binding.name

def put (b : Binding) : List Binding → List Binding
  | [] => [b]
  | a :: rest => if a.path = b.path then b :: rest else a :: put b rest

def reserve (t : Table) (path wanted : String) (origin : Origin) : String × Table × List Event :=
  let name := uniqueName wanted (t.names.map Prod.fst)
  (name,
    { bindings := put ⟨path, name, origin⟩ t.bindings, names := t.names ++ [(name, path)] },
    if name = wanted then [] else [.nameTaken path wanted name])

def defaultName (path : String) : Except Fault String :=
  match ImportPath.baseName? path with
  | some name => .ok name
  | none => .error (.invalidPath path)

def request (t : Table) (path : String) : Except Fault (String × Table × List Event) :=
  if !ImportPath.isValid path then .error (.invalidPath path)
  else match t.find? path with
    | some b =>
        if b.name ≠ blankName then .ok (b.name, t, [])
        else (defaultName path).map fun name => t.reserve path name .requested
    | none => (defaultName path).map fun name => t.reserve path name .requested

def merge (t : Table) (path : String) (name : Option String) :
    Except Fault (String × Table × List Event) :=
  if !ImportPath.isValid path then .error (.invalidPath path)
  else
    let reserved := match name with
      | some wanted => .ok (t.reserve path wanted .literal)
      | none => (defaultName path).map fun wanted => t.reserve path wanted .literal
    match t.find? path with
    | some b =>
        if b.name ≠ blankName ∨ name = some blankName then .ok (b.name, t, []) else reserved
    | none =>
        if name = some blankName then
          .ok (blankName, { t with bindings := put ⟨path, blankName, .literal⟩ t.bindings }, [])
        else reserved

def block (t : Table) : List ImportSpec :=
  (t.bindings.mergeSort fun a b => decide (a.path ≤ b.path)).map fun b =>
    { path := b.path, name := some b.name }

end Table

end Gosmith.Imports
