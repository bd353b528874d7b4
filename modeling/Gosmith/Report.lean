import Gosmith.Text.Split
import Gosmith.Value.Basic

namespace Gosmith.Report

open Gosmith.Text

def detailText : Value → String
  | .text s => s
  | v => v.quoted

def withDetails (message : String) (details : List (String × Value)) : String :=
  if details.isEmpty then message
  else message ++ " (" ++
    ", ".intercalate (details.map fun (k, v) => k ++ "=" ++ detailText v) ++ ")"

def lineDetail : Option Int → List (String × Value)
  | none => []
  | some line => [("line", .int line)]

def padLeft (width : Nat) (s : String) : String :=
  String.ofList (List.replicate (width - s.length) ' ') ++ s

def excerptLine (marked : Option Int) (number : Nat) (line : String) : String :=
  (if marked = some (number : Int) then ">" else " ") ++ padLeft 4 number.repr ++ " | " ++ line

def excerptRange (size : Nat) (line : Option Int) (context : Int) : Int × Int :=
  match line with
  | none => (0, min size (2 * context + 1))
  | some n => (max 0 (n - 1 - context), min size (n + context))

def excerpt (source : String) (line : Option Int) (context : Int) : String :=
  if source.isEmpty then ""
  else
    let all := lines source
    let (start, stop) := excerptRange all.length line context
    let shown := (all.zipIdx 1).take stop.toNat |>.drop start.toNat
    "\n".intercalate (shown.map fun (l, n) => excerptLine line n l)

def withExcerpt (report excerpt : String) : String :=
  if excerpt.isEmpty then report else report ++ "\n" ++ excerpt

end Gosmith.Report
