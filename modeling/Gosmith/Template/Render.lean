import Gosmith.Template.Check
import Gosmith.Template.Eval
import Gosmith.Template.Parser

namespace Gosmith.Template

def Fault.problem (f : Located Fault) : Problem :=
  ⟨f.what.kindName, f.what.message, some f.line⟩

def Failure.problem (f : Failure) (line? : Option Nat) : Problem :=
  ⟨f.kindName, f.message, line?⟩

def compile (opts : Options) (source : String) : Except Refusal (List Node) :=
  match parse opts source with
  | .error f => .error (.malformed (Fault.problem f))
  | .ok nodes =>
      match Check.nodes false nodes with
      | .error (.malformed f) => .error (.malformed (Fault.problem f))
      | .error (.failed f) => .error (.escaped (f.problem none))
      | .ok () => .ok nodes

def program (nodes : List Node) : Program :=
  fun context session =>
    match run context.names nodes { toSession := session } with
    | (.ok text, state) => ⟨.ok text, state.toSession, context.data⟩
    | (.error r, state) =>
        ⟨.error (r.failure.problem (some (r.line?.getD 1))), state.toSession, context.data⟩

/-- The engine that is used if no other is given. -/
def engine : Engine where
  compile opts source := (compile opts source).map program

end Gosmith.Template
