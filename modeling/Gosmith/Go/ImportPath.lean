import Gosmith.Go.Name
import Gosmith.Text.Blank

namespace Gosmith.Go.ImportPath

open Gosmith.Text

def segments (path : String) : List (List Char) :=
  (splitWhen (· == '/') path.toList).filter (fun s => !s.isEmpty)

def lastSegment (path : String) : String :=
  let cs := (path.toList.reverse.dropWhile (· == '/')).reverse
  String.ofList (cs.reverse.takeWhile (· != '/')).reverse

def isVersion (segment : List Char) : Bool :=
  match chomp segment with
  | 'v' :: digits => !digits.isEmpty && digits.all Char.isDigit
  | _ => false

def nameOfSegment (segment : List Char) : String :=
  String.ofList (sanitize (segment.takeWhile (· != '.')))

/-- The default local name of a path: its last segment, a version at the end skipped, up to the
first dot, made an identifier. `none` if the path has no segment. -/
def baseName? (path : String) : Option String :=
  match (segments path).reverse with
  | [] => none
  | [segment] => some (nameOfSegment segment)
  | segment :: parent :: _ => some (nameOfSegment (if isVersion segment then parent else segment))

def isWritable (path : String) : Bool :=
  !path.isEmpty && !path.toList.contains '\\' && !path.toList.any isBlank

def isValid (path : String) : Bool :=
  isWritable path && !path.toList.contains '"'

end Gosmith.Go.ImportPath
