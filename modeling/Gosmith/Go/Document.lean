import Gosmith.Go.ImportPath
import Gosmith.Go.Layout
import Gosmith.Text.Quoted

namespace Gosmith.Go

open Gosmith.Text

namespace Document

inductive Fault where
  | packageNotText (kind : String)
  | badPackage (name : String)
  | badPath (path : String)
  | unbalanced (e : Layout.Unbalanced)
deriving DecidableEq, Repr

def Fault.message : Fault → String
  | packageNotText kind => "expected string or bytes-like object, got '" ++ kind ++ "'"
  | badPackage name => "invalid package name: " ++ quoted name
  | badPath path => "Invalid import path: " ++ quoted path
  | unbalanced e => e.message

def isPackageName (name : String) : Bool :=
  isIdentifier name && name != blankName

def importSpec (spec : ImportSpec) : Except Fault String :=
  let path := "\"" ++ spec.path ++ "\""
  match spec.name with
  | none => .ok path
  | some name =>
      if name = ImportPath.lastSegment spec.path then
        match ImportPath.baseName? spec.path with
        | none => .error (.badPath spec.path)
        | some base => .ok (if base = name then path else name ++ " " ++ path)
      else .ok (name ++ " " ++ path)

def importLines : List ImportSpec → Except Fault (List String)
  | [] => .ok []
  | spec :: rest =>
      match importSpec spec with
      | .error e => .error e
      | .ok line => (importLines rest).map (("\t" ++ line) :: ·)

def importBlock (specs : List ImportSpec) : Except Fault String :=
  (importLines specs).map fun lines => "\n".intercalate ("import (" :: lines ++ [")"])

def declTexts : List Declaration → Except Fault (List String)
  | [] => .ok []
  | d :: rest =>
      match d.format with
      | .error e => .error (.unbalanced e)
      | .ok text => (declTexts rest).map (text :: ·)

def blocks (imports : List ImportSpec) (decls : List Declaration) (blankLines : Bool) :
    Except Fault (List String) :=
  let importPart := if imports.isEmpty then .ok [] else (importBlock imports).map ([·])
  match importPart, declTexts decls with
  | .error e, _ => .error e
  | .ok _, .error e => .error e
  | .ok importPart, .ok texts =>
      let body := (if blankLines then "\n\n" else "\n").intercalate texts
      .ok (if body.isEmpty then importPart else importPart ++ [body])

def render (package : String) (imports : List ImportSpec) (decls : List Declaration)
    (blankLines : Bool) : Except Fault String :=
  if isPackageName package then
    (blocks imports decls blankLines).map fun parts =>
      "package " ++ package ++ "\n" ++
        if parts.isEmpty then "" else "\n" ++ "\n\n".intercalate parts ++ "\n"
  else .error (.badPackage package)

end Document

end Gosmith.Go
