import Gosmith.Proofs.Template.Keeps
import Gosmith.Proofs.Template.Requests
import Gosmith.Template.Render

namespace Gosmith.Template

variable {I : Session → Prop}

theorem requestImport_keeps (hI : Session.Steady I) (tracked : Bool) (v : Value) :
    Run.Keeps I (requestImport tracked v) := by
  cases v with
  | text path =>
      refine Run.Keeps.get_bind fun s hs => ?_
      cases h : s.toSession.request tracked path with
      | error e => exact hs
      | ok r => exact hI hs h
  | _ => exact Run.Keeps.fail _

theorem runBuiltin_keeps (hI : Session.Steady I) (f : Builtin) (args : List Value) :
    Run.Keeps I (runBuiltin f args) := by
  unfold runBuiltin
  split
  case h_2 => exact requestImport_keeps hI false _
  case h_3 => exact requestImport_keeps hI true _
  case h_6 | h_7 => exact Run.Keeps.pure _
  case h_9 => exact Run.Keeps.fail _
  all_goals exact Run.Keeps.ofExcept _

theorem call_keeps (hI : Session.Steady I) (f : Value) (args : List Value)
    (named : List (String × Value)) : Run.Keeps I (call f args named) := by
  cases f with
  | function b =>
      exact (Run.Keeps.ofExcept _).bind fun bound => runBuiltin_keeps hI b bound
  | loop l => exact (Run.Keeps.ofExcept _).bind fun _ => Run.Keeps.fail _
  | _ => exact Run.Keeps.fail _

def Scope.Keeps (I : Session → Prop) (s : Scope) : Prop :=
  ∀ p ∈ s.loops, ∀ v, Run.Keeps I (p v)

variable {s : Scope}

theorem Scope.Keeps.passes (hs : s.Keeps I) (depth : Nat) (v : Value) :
    Run.Keeps I (s.passes depth v) := by
  unfold Scope.passes
  cases h : s.loops[depth]? with
  | none => exact Run.Keeps.pure true
  | some p => exact hs p (List.mem_of_getElem? h) v

theorem settled_keeps (hs : s.Keeps I) (v : Value) :
    Run.Keeps I (settled s v) := by
  cases v with
  | loop l => exact (Loop.state_keeps (hs.passes l.depth) l.depth).bind fun _ => Run.Keeps.pure _
  | _ => exact Run.Keeps.pure _

theorem settledAll_keeps (hs : s.Keeps I) (vs : List Value) :
    Run.Keeps I (settledAll s vs) := by
  induction vs with
  | nil => exact Run.Keeps.pure []
  | cons v vs ih =>
      exact (settled_keeps hs v).bind fun w => ih.bind fun ws => Run.Keeps.pure (w :: ws)

theorem truth_keeps (hs : s.Keeps I) (v : Value) :
    Run.Keeps I (truth s v) :=
  (settled_keeps hs v).bind fun _ => Run.Keeps.ofExcept _

theorem text_keeps (hs : s.Keeps I) (v : Value) :
    Run.Keeps I (text s v) :=
  (settled_keeps hs v).bind fun _ => Run.Keeps.ofExcept _

theorem memberOf_keeps (hs : s.Keeps I) (v : Value) (name : String) :
    Run.Keeps I (memberOf s v name) := by
  cases v with
  | loop l => exact Loop.member_keeps (hs.passes l.depth) l name
  | _ => exact Run.Keeps.ofExcept _

theorem elementOf_keeps (hs : s.Keeps I) (v key : Value) :
    Run.Keeps I (elementOf s v key) := by
  unfold elementOf
  split
  · rename_i l name
    exact Loop.member_keeps (hs.passes l.depth) l name
  · exact Run.Keeps.ofExcept _

mutual

theorem Expr.eval_keeps (hI : Session.Steady I) (hs : s.Keeps I) :
    ∀ e : Expr, Run.Keeps I (e.eval s)
  | .const v => Run.Keeps.pure v
  | .name _ n => Run.Keeps.found _
  | .slot o _ => Run.Keeps.found _
  | .tuple items => (evalItems_keeps hI hs items).bind fun _ => Run.Keeps.pure _
  | .list items => (evalItems_keeps hI hs items).bind fun _ => Run.Keeps.pure _
  | .dict entries => (evalEntries_keeps hI hs entries).bind fun _ => Run.Keeps.ofExcept _
  | .member e name =>
      (Expr.eval_keeps hI hs e).bind fun v =>
        (memberOf_keeps hs v name).bind fun w => Run.Keeps.found w
  | .item e key => by
      refine (Expr.eval_keeps hI hs e).bind fun v => (Expr.eval_keeps hI hs key).bind fun k => ?_
      exact (elementOf_keeps hs v k).bind fun w => Run.Keeps.found w
  | .slice e lo hi step =>
      (Expr.eval_keeps hI hs e).bind fun _ => (Expr.eval_keeps hI hs lo).bind fun _ =>
        (Expr.eval_keeps hI hs hi).bind fun _ => (Expr.eval_keeps hI hs step).bind fun _ =>
          Run.Keeps.ofExcept _
  | .call f args named =>
      (Expr.eval_keeps hI hs f).bind fun v => (evalItems_keeps hI hs args).bind fun vs =>
        (evalNamed_keeps hI hs named).bind fun ns => call_keeps hI v vs ns
  | .filter _ name args named => by
      refine (evalItems_keeps hI hs args).bind fun vs =>
        (evalNamed_keeps hI hs named).bind fun ns => ?_
      cases Filter.ofName? name with
      | some f => exact (settledAll_keeps hs vs).bind fun _ => Run.Keeps.ofExcept _
      | none => exact Run.Keeps.fail _
  | .test _ name args named => by
      refine (evalItems_keeps hI hs args).bind fun vs =>
        (evalNamed_keeps hI hs named).bind fun ns => ?_
      cases Test.ofName? name with
      | some t => exact Run.Keeps.ofExcept _
      | none => exact Run.Keeps.fail _
  | .unary op e => (Expr.eval_keeps hI hs e).bind fun _ => Run.Keeps.ofExcept _
  | .binary op a b =>
      (Expr.eval_keeps hI hs a).bind fun _ => (Expr.eval_keeps hI hs b).bind fun _ =>
        Run.Keeps.ofExcept _
  | .concat parts =>
      (evalItems_keeps hI hs parts).bind fun vs =>
        (Run.Keeps.mapM (text_keeps hs) vs).bind fun _ => Run.Keeps.pure _
  | .compare e rest => (Expr.eval_keeps hI hs e).bind fun v => evalChain_keeps hI hs v rest
  | .not e =>
      (Expr.eval_keeps hI hs e).bind fun v =>
        (truth_keeps hs v).bind fun _ => Run.Keeps.pure _
  | .and a b =>
      (Expr.eval_keeps hI hs a).bind fun v => (truth_keeps hs v).bind fun _ =>
        Run.Keeps.ite (Expr.eval_keeps hI hs b) (Run.Keeps.pure v)
  | .or a b =>
      (Expr.eval_keeps hI hs a).bind fun v => (truth_keeps hs v).bind fun _ =>
        Run.Keeps.ite (Run.Keeps.pure v) (Expr.eval_keeps hI hs b)
  | .cond line test yes no =>
      (Expr.eval_keeps hI hs test).bind fun v => (truth_keeps hs v).bind fun _ =>
        Run.Keeps.ite (Expr.eval_keeps hI hs yes) (evalOption_keeps hI hs line no)

theorem evalItems_keeps (hI : Session.Steady I) (hs : s.Keeps I) :
    ∀ items : List Expr, Run.Keeps I (evalItems s items)
  | [] => Run.Keeps.pure []
  | e :: rest =>
      (Expr.eval_keeps hI hs e).bind fun _ => (evalItems_keeps hI hs rest).bind fun _ =>
        Run.Keeps.pure _

theorem evalEntries_keeps (hI : Session.Steady I) (hs : s.Keeps I) :
    ∀ entries : List (Expr × Expr), Run.Keeps I (evalEntries s entries)
  | [] => Run.Keeps.pure []
  | (k, e) :: rest =>
      (Expr.eval_keeps hI hs k).bind fun _ => (Expr.eval_keeps hI hs e).bind fun _ =>
        (evalEntries_keeps hI hs rest).bind fun _ => Run.Keeps.pure _

theorem evalNamed_keeps (hI : Session.Steady I) (hs : s.Keeps I) :
    ∀ named : List (String × Expr), Run.Keeps I (evalNamed s named)
  | [] => Run.Keeps.pure []
  | (_, e) :: rest =>
      (Expr.eval_keeps hI hs e).bind fun _ => (evalNamed_keeps hI hs rest).bind fun _ =>
        Run.Keeps.pure _

theorem evalChain_keeps (hI : Session.Steady I) (hs : s.Keeps I) :
    ∀ (left : Value) (rest : List (CompareOp × Expr)), Run.Keeps I (evalChain s left rest)
  | _, [] => Run.Keeps.pure _
  | _, (_, e) :: rest =>
      (Expr.eval_keeps hI hs e).bind fun right => (Run.Keeps.ofExcept _).bind fun _ =>
        Run.Keeps.ite (evalChain_keeps hI hs right rest) (Run.Keeps.pure _)

theorem evalOption_keeps (hI : Session.Steady I) (hs : s.Keeps I) (line : Nat) :
    ∀ e : Option Expr, Run.Keeps I (evalOption s line e)
  | none => Run.Keeps.found _
  | some e => Expr.eval_keeps hI hs e

end

theorem Scope.Keeps.push (hs : s.Keeps I) (f : Frame) : (s.push f).Keeps I :=
  hs

theorem passesFilter_keeps (hI : Session.Steady I) (hs : s.Keeps I) (target : Target)
    (filter : Option (Nat × Expr)) (item : Value) :
    Run.Keeps I (passesFilter s target filter item) := by
  cases filter with
  | none => exact Run.Keeps.pure true
  | some filter =>
      obtain ⟨line, test⟩ := filter
      refine Run.Keeps.onLine ?_ line
      refine (Run.Keeps.ofExcept _).bind fun bound => ?_
      have hinner := hs.push (given bound)
      exact (test.eval_keeps hI hinner).bind fun v => truth_keeps hinner v

theorem filtered_keeps (hI : Session.Steady I) (hs : s.Keeps I) (captured : String)
    (filter : Option Expr) : Run.Keeps I (filtered s captured filter) := by
  cases filter with
  | none => exact Run.Keeps.pure _
  | some e => exact e.eval_keeps hI (hs.push _)

theorem Scope.Keeps.loop (hs : s.Keeps I) {p : Value → Run Bool} (hp : ∀ v, Run.Keeps I (p v)) :
    Scope.Keeps I { s with loops := s.loops ++ [p] } := by
  intro q hq
  rcases List.mem_append.1 hq with hq | hq
  · exact hs q hq
  · rw [List.mem_singleton.1 hq]
    exact hp

mutual

theorem Node.run_keeps (hI : Session.Steady I) :
    ∀ (n : Node) {s : Scope} (_ : s.Keeps I) (f : Frame), Run.Keeps I (n.run s f)
  | .text _, _, _, _ => Run.Keeps.pure _
  | .print line e, _, hs, f => by
      have hscope := hs.push f
      refine Run.Keeps.bind (Run.Keeps.onLine ?_ line) fun _ => Run.Keeps.pure _
      exact (e.eval_keeps hI hscope).bind fun v => text_keeps hscope v
  | .assign line target e, _, hs, f => by
      refine Run.Keeps.bind (Run.Keeps.onLine ?_ line) fun _ => Run.Keeps.pure _
      have hbind := (e.eval_keeps hI (hs.push f)).bind fun v => Run.Keeps.ofExcept (target.bind v)
      exact Run.Keeps.ite ((Run.Keeps.fail _).bind fun _ => hbind) hbind
  | .capture line target filter body, _, hs, f => by
      have hscope := hs.push f
      refine (runNodes_keeps hI body hscope _).bind fun r => ?_
      refine Run.Keeps.bind (Run.Keeps.onLine ?_ line) fun _ => Run.Keeps.pure _
      exact (filtered_keeps hI (hscope.push r.2) r.1 filter).bind fun _ => Run.Keeps.ofExcept _
  | .branch line test yes no, _, hs, f => by
      have hscope := hs.push f
      refine Run.Keeps.bind (Run.Keeps.onLine ?_ line) fun b => ?_
      · exact (test.eval_keeps hI hscope).bind fun v => truth_keeps hscope v
      · exact Run.Keeps.ite (runNodes_keeps hI yes hs f) (runNodes_keeps hI no hs f)
  | .loop line target items filter body otherwise, s, hs, f => by
      have hscope := hs.push f
      have hpasses := passesFilter_keeps hI hscope target filter
      have hinner := hscope.loop hpasses
      refine (Run.Keeps.onLine (items.eval_keeps hI hscope) line).bind fun v => ?_
      refine (Run.Keeps.onLine (Run.Keeps.ofExcept _) _).bind fun vs => ?_
      refine (Loop.begin_keeps _).bind fun _ => ?_
      refine Run.Keeps.bind (Loop.runAll_keeps (Loop.next_keeps hpasses _) ?_ _) fun r => ?_
      · intro item
        refine (Run.Keeps.onLine (Run.Keeps.ofExcept _) line).bind fun bound => ?_
        exact (runNodes_keeps hI body hinner _).bind fun _ => Run.Keeps.pure _
      · refine (Loop.finish_keeps).bind fun _ => Run.Keeps.ite ?_ (Run.Keeps.pure _)
        exact (runNodes_keeps hI otherwise hscope _).bind fun _ => Run.Keeps.pure _

theorem runNodes_keeps (hI : Session.Steady I) :
    ∀ (ns : List Node) {s : Scope} (_ : s.Keeps I) (f : Frame), Run.Keeps I (runNodes s f ns)
  | [], _, _, _ => Run.Keeps.pure _
  | n :: rest, _, hs, f =>
      (Node.run_keeps hI n hs f).bind fun r => (runNodes_keeps hI rest hs r.2).bind fun _ =>
        Run.Keeps.pure _

end

theorem run_keeps (hI : Session.Steady I) (context : List (String × Value)) (nodes : List Node) :
    Run.Keeps I (run context nodes) := by
  have hscope : Scope.Keeps I { context := context } := by
    intro p hp
    simp at hp
  exact (runNodes_keeps hI nodes hscope _).bind fun _ => Run.Keeps.pure _

theorem exists_nodes {opts : Options} {source : String} {prog : Program}
    (h : engine.compile opts source = .ok prog) : ∃ nodes, program nodes = prog := by
  cases hnodes : compile opts source with
  | error r => simp [engine, hnodes, Except.map] at h
  | ok nodes =>
      simp only [engine, hnodes, Except.map, Except.ok.injEq] at h
      exact ⟨nodes, h⟩

theorem engine_onlyAsks : engine.OnlyAsks := by
  intro opts source prog hcompile data tracked s
  obtain ⟨nodes, rfl⟩ := exists_nodes hcompile
  have hrun := run_keeps (Session.steady_asks s) (Context.of data (functions tracked)).names nodes
    { toSession := s } .refl
  unfold program
  rcases hr : run (Context.of data (functions tracked)).names nodes { toSession := s } with ⟨r, state⟩
  rw [hr] at hrun
  cases r with
  | ok text => exact hrun
  | error e => exact hrun

end Gosmith.Template
