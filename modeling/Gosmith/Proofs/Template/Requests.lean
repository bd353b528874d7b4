import Gosmith.Proofs.Imports.Sound
import Gosmith.Template.Engine

namespace Gosmith.Template

open Gosmith.Go Gosmith.Imports Gosmith.Journal

namespace Session

inductive Asks (s : Session) : Session → Prop
  | refl : Asks s s
  | request {s' s'' : Session} {tracked : Bool} {path name : String} (h : Asks s s')
      (hr : s'.request tracked path = .ok (name, s'')) : Asks s s''

def Steady (I : Session → Prop) : Prop :=
  ∀ {s s' : Session} {tracked : Bool} {path name : String}, I s →
    s.request tracked path = .ok (name, s') → I s'

theorem Asks.keeps {I : Session → Prop} (hI : Steady I) {s s' : Session} (h : s.Asks s')
    (hs : I s) : I s' := by
  induction h with
  | refl => exact hs
  | request _ hr ih => exact hI ih hr

theorem steady_asks (s : Session) : Steady s.Asks :=
  fun h hr => h.request hr

theorem request_eq_ok {s s' : Session} {tracked : Bool} {path name : String}
    (h : s.request tracked path = .ok (name, s')) :
    ∃ events, s.imports.request path = .ok (name, s'.imports, events) ∧
      ∀ p ∈ s'.requested, p = (name, path) ∨ p ∈ s.requested := by
  unfold request at h
  cases hr : s.imports.request path with
  | error e => simp [hr] at h
  | ok r =>
      obtain ⟨n, imports, events⟩ := r
      simp only [hr, Except.ok.injEq, Prod.mk.injEq] at h
      obtain ⟨rfl, rfl⟩ := h
      refine ⟨events, rfl, fun p hp => ?_⟩
      cases tracked with
      | true => exact Assoc.mem_set hp
      | false => exact .inr hp

structure Tracks (t : Table) (s : Session) : Prop where
  sound : s.imports.Sound
  extend : t.Extends s.imports
  given : ∀ name path, (name, path) ∈ s.requested → s.imports.contains path = true ∧
    (name ≠ blankName → s.imports.nameOf? path = some name) ∧
    (name = blankName → ImportPath.baseName? path = some blankName)

theorem steady_tracks (t : Table) : Steady (Tracks t) := by
  intro s s' tracked path name h hr
  obtain ⟨events, htable, hrequested⟩ := request_eq_ok hr
  have hreg := Table.request_registers htable
  refine ⟨hreg.sound h.sound (by simp), h.extend.trans hreg.extends, fun n p hp => ?_⟩
  rcases hrequested _ hp with heq | hold
  · simp only [Prod.mk.injEq] at heq
    obtain ⟨rfl, rfl⟩ := heq
    refine ⟨Table.contains_of_nameOf? hreg.nameOf?, fun _ => hreg.nameOf?, fun hblank => ?_⟩
    by_contra hbase
    exact hreg.name_ne_blank (by simp) (fun _ => hbase) hblank
  · obtain ⟨hin, hname, hblank⟩ := h.given n p hold
    exact ⟨hreg.extends.contains hin, fun hn => hreg.extends.nameOf? (hname hn) hn, hblank⟩

theorem Asks.tracks {t : Table} {s : Session} (h : Asks { imports := t } s) (ht : t.Sound) :
    s.Tracks t :=
  h.keeps (steady_tracks t) ⟨ht, .refl t, by simp⟩

end Session

namespace Engine

theorem render_cases (e : Engine) (opts : Options) (tracked : Bool) (template data : Value)
    (s : Session) :
    ((e.render opts tracked template data s).session = s ∧
      (e.render opts tracked template data s).data = data) ∨
    ∃ source program, e.compile opts source = .ok program ∧
      (e.render opts tracked template data s).session =
        (program (.of data (functions tracked)) s).session ∧
      (e.render opts tracked template data s).data =
        (program (.of data (functions tracked)) s).data := by
  cases template with
  | text source =>
      cases hcompile : e.compile opts source with
      | error r => cases r <;> simp only [Engine.render, hcompile, and_self, true_or]
      | ok program =>
          refine .inr ⟨source, program, hcompile, ?_⟩
          simp only [Engine.render, hcompile]
          cases (program (.of data (functions tracked)) s).result <;> exact ⟨rfl, rfl⟩
  | _ => exact .inl ⟨rfl, rfl⟩

/-- Running a template changes the imports of a session by asking for them, and by nothing else. -/
def OnlyAsks (e : Engine) : Prop :=
  ∀ (opts : Options) (source : String) (program : Program), e.compile opts source = .ok program →
    ∀ (data : Value) (tracked : Bool) (s : Session),
      s.Asks (program (.of data (functions tracked)) s).session

theorem OnlyAsks.render {e : Engine} (h : e.OnlyAsks) (opts : Options) (tracked : Bool)
    (template data : Value) (s : Session) :
    s.Asks (e.render opts tracked template data s).session := by
  rcases e.render_cases opts tracked template data s with
    ⟨hsession, -⟩ | ⟨source, program, hcompile, hsession, -⟩
  · rw [hsession]
    exact .refl
  · rw [hsession]
    exact h opts source program hcompile data tracked s

/-- Running a template leaves the data as they are. -/
def SparesData (e : Engine) : Prop :=
  ∀ (opts : Options) (source : String) (program : Program), e.compile opts source = .ok program →
    ∀ (context : Context) (s : Session), (program context s).data = context.data

theorem SparesData.render {e : Engine} (h : e.SparesData) (opts : Options) (tracked : Bool)
    (template data : Value) (s : Session) :
    (e.render opts tracked template data s).data = data := by
  rcases e.render_cases opts tracked template data s with
    ⟨-, hdata⟩ | ⟨source, program, hcompile, -, hdata⟩
  · exact hdata
  · rw [hdata, h opts source program hcompile]
    rfl

end Engine

end Gosmith.Template
