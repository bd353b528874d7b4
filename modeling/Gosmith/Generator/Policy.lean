import Gosmith.Go.Document
import Gosmith.Report

namespace Gosmith.Generator

open Gosmith.Go

structure Policy where
  packageName : Value := .text "gen"
  blankLines : Value := .bool true
  sortByKind : Value := .bool false
  groupMethods : Value := .bool false

namespace Policy

inductive Fault where
  | notIdentifier (name : Value)
  | blankPackage

def Fault.message : Fault → String
  | notIdentifier name => "Package name must be a valid Go identifier: " ++ name.quoted
  | blankPackage => "Package name cannot be the blank identifier"

def Fault.details (_ : Fault) : List (String × Value) :=
  [("field", .text "package_name")]

def validate (p : Policy) : Except Fault Unit :=
  match p.packageName with
  | .text name =>
      if !isIdentifier name then .error (.notIdentifier p.packageName)
      else if name = blankName then .error .blankPackage
      else .ok ()
  | v => .error (.notIdentifier v)

def packageText (name : Value) : Except Document.Fault String :=
  match name with
  | .text s => .ok s
  | v => .error (.packageNotText v.kindName)

def isOn (v : Value) : Bool :=
  match v.truthy with
  | .ok b => b
  | .error _ => false

end Policy

end Gosmith.Generator
