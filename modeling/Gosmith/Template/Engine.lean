import Gosmith.Report
import Gosmith.Template.Library

namespace Gosmith.Template

structure Options where
  trimBlocks : Bool := true
  lstripBlocks : Bool := true
  keepTrailingNewline : Bool := true
deriving DecidableEq, Repr

structure Problem where
  kind : String
  message : String
  line? : Option Nat := none
deriving DecidableEq, Repr

inductive Refusal where
  | malformed (p : Problem)
  | escaped (p : Problem)
deriving DecidableEq, Repr

structure Context where
  data : Value
  names : List (String × Value)

/-- What running a template comes to: its text or a problem, and what has become of the session and
of the data, which a template can change. -/
structure Outcome where
  result : Except Problem String
  session : Session
  data : Value

abbrev Program := Context → Session → Outcome

structure Engine where
  compile : Options → String → Except Refusal Program

inductive RenderError where
  | notText (kind : String)
  | escaped (p : Problem)
  | malformed (p : Problem)
  | failed (p : Problem)

namespace RenderError

def message : RenderError → String
  | notText kind => "Template must be a string, got " ++ kind
  | escaped p => p.message
  | malformed p => "Invalid template: " ++ p.message
  | failed p => "Template execution failed: " ++ p.message

def line? : RenderError → Option Nat
  | notText _ => none
  | escaped _ => none
  | malformed p => p.line?
  | failed p => p.line?

def isNoted : RenderError → Bool
  | notText _ => false
  | escaped _ => false
  | malformed _ => true
  | failed _ => true

def report (e : RenderError) : String :=
  Report.withDetails e.message (Report.lineDetail (e.line?.map Int.ofNat))

end RenderError

-- later entries win: the functions over the data, and `data` over an entry of that name
def Context.of (data : Value) (functions : List (String × Builtin)) : Context :=
  let own := match data with
    | .mapping entries =>
        entries.filterMap fun
          | (.text k, v) => some (k, v)
          | _ => none
    | _ => []
  { data := data
    names := Assoc.ofList
      (own ++ [("data", data)] ++ functions.map fun (n, f) => (n, .function f)) }

def snippetHeader : String := "package idlgen\n\n"

structure Rendering where
  result : Except RenderError String
  session : Session
  data : Value

namespace Engine

def render (engine : Engine) (opts : Options) (tracked : Bool) (template data : Value)
    (session : Session) : Rendering :=
  match template with
  | .text source =>
      match engine.compile opts source with
      | .error (.malformed p) => ⟨.error (.malformed p), session, data⟩
      | .error (.escaped p) => ⟨.error (.escaped p), session, data⟩
      | .ok program =>
          let out := program (.of data (functions tracked)) session
          match out.result with
          | .error p => ⟨.error (.failed p), out.session, out.data⟩
          | .ok text => ⟨.ok (snippetHeader ++ text), out.session, out.data⟩
  | v => ⟨.error (.notText v.kindName), session, data⟩

end Engine

end Gosmith.Template
