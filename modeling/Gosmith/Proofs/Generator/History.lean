import Gosmith.Proofs.Generator.References

namespace Gosmith.Generator

open Gosmith.Go Gosmith.Imports Gosmith.Journal
open Gosmith.Text (braced)

/-- A generator and the data of its caller, which a template can change. -/
structure World where
  generator : Generator
  data : Nat → Value

inductive Step where
  | declare (template : Value) (slot : Nat)
  | render
  | write (sink : Sink)

inductive Outcome where
  | declared (result : Except DeclareError Unit) (events : List Event)
  | rendered (result : Except Document.Fault String)
  | written (result : Except WriteError (Payload × Event))

def World.call (w : World) (template : Value) (slot : Nat) : Call :=
  ⟨template, w.data slot⟩

namespace Step

def outcome (w : World) : Step → Outcome
  | declare template slot =>
      .declared (w.generator.declare template (w.data slot)).1
        (w.generator.declare template (w.data slot)).2.2
  | render => .rendered w.generator.render
  | write sink => .written (w.generator.writeTo sink)

def run (w : World) : Step → World
  | declare template slot =>
      { generator := (w.call template slot).run w.generator
        data := fun i =>
          if i = slot then ((w.call template slot).rendering w.generator).data else w.data i }
  | render => w
  | write _ => w

end Step

structure Entry where
  step : Step
  before : World
  outcome : Outcome
  after : World

def Entry.isDeclared (e : Entry) : Bool :=
  match e.outcome with
  | .declared (.ok _) _ => true
  | _ => false

def entry (w : World) (s : Step) : Entry :=
  ⟨s, w, s.outcome w, s.run w⟩

def history (w : World) : List Step → List Entry
  | [] => []
  | s :: steps => entry w s :: history (s.run w) steps

def SparesData (w : World) (steps : List Step) : Prop :=
  ∀ e ∈ history w steps, e.isDeclared = false → e.after.data = e.before.data

def InOrder (g : Generator) : Prop :=
  ∀ (i : Nat) (d : Declaration), g.decls[i]? = some d → d.order = i

theorem InOrder.call {g : Generator} (h : InOrder g) (c : Call) : InOrder (c.run g) := by
  rcases declare_cases g c with ⟨-, hg⟩ | ⟨-, source, file, m, hd⟩
  · rw [hg]
    exact h
  · intro i d hi
    rw [hd.result] at hi
    by_cases hlt : i < g.decls.length
    · rw [List.getElem?_append_left hlt] at hi
      exact h i d hi
    · rw [List.getElem?_append_right (by omega), getElem?_numbered] at hi
      obtain ⟨d', -, rfl⟩ := Option.map_eq_some_iff.1 hi
      simp only
      omega

end Gosmith.Generator
