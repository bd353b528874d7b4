import Gosmith.Text.Split

namespace Gosmith

open Gosmith.Text

abbrev Place := List String

namespace Path

def parts (path : String) : List (List Char) :=
  (splitWhen (· == '/') path.toList).filter fun p => !p.isEmpty && p != ['.']

-- two slashes are a root of their own, three are one
def root (path : String) : String :=
  match path.toList with
  | '/' :: '/' :: '/' :: _ => "/"
  | '/' :: '/' :: _ => "//"
  | '/' :: _ => "/"
  | _ => ""

def join (root : String) (ps : List (List Char)) : String :=
  match ps with
  | [] => if root.isEmpty then "." else root
  | ps => root ++ "/".intercalate (ps.map String.ofList)

def normal (path : String) : String :=
  join (root path) (parts path)

def parent (path : String) : String :=
  join (root path) (parts path).dropLast

def start (cwd : Place) (path : String) : Place :=
  if (root path).isEmpty then cwd else []

def move (at_ : Place) (part : List Char) : Place :=
  if part = ['.', '.'] then at_.dropLast else at_ ++ [String.ofList part]

/-- Where a path leads if every name on the way is a directory. -/
def place (cwd : Place) (path : String) : Place :=
  (parts path).foldl move (start cwd path)

def text (p : Place) : String :=
  "/" ++ "/".intercalate p

end Path

end Gosmith
