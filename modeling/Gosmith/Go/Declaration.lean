import Gosmith.Go.Token

namespace Gosmith.Go

structure ImportSpec where
  path : String
  name : Option String := none
  line : Nat := 0
deriving DecidableEq, Repr, Inhabited

def blankName : String := "_"

def dotName : String := "."

namespace Declaration

inductive Kind where
  | const | var | type | func
deriving DecidableEq, Repr, Inhabited

def Kind.text : Kind → String
  | .const => "const"
  | .var => "var"
  | .type => "type"
  | .func => "func"

def Kind.ofText? (text : String) : Option Kind :=
  [Kind.const, .var, .type, .func].find? (·.text == text)

end Declaration

structure Declaration where
  kind : Declaration.Kind
  tokens : List Token
  names : List String := []
  receiver : Option String := none
  line : Nat := 0
  order : Nat := 0
deriving DecidableEq, Repr, Inhabited

namespace Declaration

def isMethod (d : Declaration) : Bool :=
  d.receiver.isSome

/-- Whether the token at the head is a qualifier: an identifier before a dot and not after one.
`before` is the text of the token before it. -/
def isQualifier (before : Option String) : List Token → Bool
  | t :: u :: _ => t.kind == .ident && u.text == "." && before != some "."
  | _ => false

def renameTokens (renames : List (String × String)) : Option String → List Token → List Token
  | _, [] => []
  | before, t :: rest =>
      let t' := match renames.lookup t.text with
        | some new => if isQualifier before (t :: rest) then { t with text := new } else t
        | none => t
      t' :: renameTokens renames (some t'.text) rest

def renameQualifiers (renames : List (String × String)) (d : Declaration) : Declaration :=
  { d with tokens := renameTokens renames none d.tokens }

end Declaration

end Gosmith.Go
