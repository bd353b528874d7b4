import Gosmith.Generator.Basic
import Gosmith.Proofs.Grammar.File
import Gosmith.Proofs.Imports.Registration
import Gosmith.Proofs.Layout.Document

namespace Gosmith.Generator

open Gosmith.Go Gosmith.Imports

def DeclareError.isDocumented : DeclareError → Bool
  | render (.malformed _) => true
  | render (.failed _) => true
  | render _ => false
  | invalidGo _ _ => true
  | dotImport _ _ => true
  | badImport _ => false

def isRefused (spec : ImportSpec) : Bool :=
  spec.path.toList.contains '"' || (spec.name.isNone && spec.path.toList.all (· == '/'))

def specFault? (source : String) (spec : ImportSpec) : Option DeclareError :=
  if spec.name = some dotName then some (.dotImport spec source)
  else if isRefused spec then some (.badImport (.invalidPath spec.path))
  else none

theorem isRefused_iff {spec : ImportSpec} (h : ImportPath.isWritable spec.path = true) :
    isRefused spec = true ↔ ImportPath.isValid spec.path = false ∨
      spec.name = none ∧ ImportPath.baseName? spec.path = none := by
  simp [isRefused, ImportPath.isValid, h, ImportPath.baseName?_eq_none_iff]

theorem localName_error {spec : ImportSpec} {f : Imports.Fault} (h : localName spec = .error f) :
    f = .invalidPath spec.path ∧ spec.name = none ∧ ImportPath.baseName? spec.path = none := by
  cases hname : spec.name with
  | some name => simp [localName, hname] at h
  | none =>
      simp only [localName, hname] at h
      obtain ⟨hf, hbase⟩ := Table.defaultName_error h
      exact ⟨hf, rfl, hbase⟩

theorem mergeImports_cons (requested : List (String × String)) (source : String) (m : Merge)
    {spec : ImportSpec} (hspec : ImportPath.isWritable spec.path = true) (rest : List ImportSpec) :
    ∃ m', (mergeImports requested source m (spec :: rest)).1 =
      (specFault? source spec).elim (mergeImports requested source m' rest).1 .error := by
  have hrefused := isRefused_iff hspec
  by_cases hdot : spec.name = some dotName
  · exact ⟨m, by simp [mergeImports, specFault?, hdot]⟩
  cases hmerge : m.imports.merge spec.path spec.name with
  | error f =>
      obtain ⟨rfl, hcause⟩ := Table.merge_error hmerge
      exact ⟨m, by simp [mergeImports, specFault?, hdot, hmerge, hrefused.2 hcause]⟩
  | ok r =>
      obtain ⟨resolved, imports, events⟩ := r
      have hvalid := Table.isValid_of_merge hmerge
      by_cases hblank : spec.name = some blankName
      · have hkept : ¬ isRefused spec = true := by
          simp [hrefused, hvalid, hblank]
        refine ⟨⟨imports, m.renames, m.paths, m.events ++ events⟩, ?_⟩
        simp only [mergeImports, specFault?, if_neg hdot, hmerge, if_pos hblank, if_neg hkept,
          Option.elim_none]
      · cases hlocal : localName spec with
        | error f =>
            obtain ⟨rfl, hcause⟩ := localName_error hlocal
            exact ⟨m, by simp [mergeImports, specFault?, hdot, hmerge, hblank, hlocal,
              hrefused.2 (.inr hcause)]⟩
        | ok name =>
            have hkept : ¬ isRefused spec = true := by
              rw [hrefused, hvalid]
              rintro (hfalse | ⟨hname, hbase⟩)
              · simp at hfalse
              · simp [localName, hname, Table.defaultName, hbase] at hlocal
            refine ⟨Merge.note requested ⟨imports, m.renames, m.paths, m.events ++ events⟩
              spec.path name resolved, ?_⟩
            simp only [mergeImports, specFault?, if_neg hdot, hmerge, if_neg hblank, hlocal,
              if_neg hkept, Option.elim_none]

theorem mergeImports_fst (requested : List (String × String)) (source : String) (m : Merge)
    {specs : List ImportSpec} (h : ∀ spec ∈ specs, ImportPath.isWritable spec.path = true) :
    (mergeImports requested source m specs).1 =
      (specs.findSome? (specFault? source)).elim (.ok ()) .error := by
  induction specs generalizing m with
  | nil => rfl
  | cons spec rest ih =>
      obtain ⟨hspec, hrest⟩ := List.forall_mem_cons.1 h
      obtain ⟨m', hm⟩ := mergeImports_cons requested source m hspec rest
      rw [hm, List.findSome?_cons]
      cases specFault? source spec with
      | none => exact ih m' hrest
      | some e => rfl

theorem elim_eq_error {o : Option DeclareError} {e : DeclareError} :
    o.elim (.ok ()) .error = (.error e : Except DeclareError Unit) ↔ o = some e := by
  cases o with
  | none => simp
  | some e' => simp

theorem absorb_fst (g : Generator) (session : Template.Session) {source : String}
    {file : SourceFile} (h : SourceFile.ofSource source = .ok file) :
    (g.absorb session source).1 =
      (file.imports.findSome? (specFault? source)).elim (.ok ()) .error := by
  have hwritable : ∀ spec ∈ file.imports, ImportPath.isWritable spec.path = true := by
    intro spec hspec
    obtain ⟨ts, vs, -, -, hv⟩ := Grammar.spec_of_ofSource h hspec
    exact hv.isWritable
  rw [← mergeImports_fst session.requested source { imports := session.imports } hwritable]
  simp only [absorb, h]
  split
  · rename_i hm
    rw [hm]
  · rename_i hm
    rw [hm]

theorem specFault?_undocumented {source : String} {spec : ImportSpec} {e : DeclareError} :
    specFault? source spec = some e ∧ e.isDocumented = false ↔
      spec.name ≠ some dotName ∧ isRefused spec = true ∧
        e = .badImport (.invalidPath spec.path) := by
  unfold specFault?
  split
  · rename_i hdot
    constructor
    · rintro ⟨⟨⟩, hdocumented⟩
      simp [DeclareError.isDocumented] at hdocumented
    · rintro ⟨hname, -⟩
      exact absurd hdot hname
  · rename_i hdot
    split
    · rename_i hrefused
      constructor
      · rintro ⟨⟨⟩, -⟩
        exact ⟨hdot, hrefused, rfl⟩
      · rintro ⟨-, -, rfl⟩
        exact ⟨rfl, rfl⟩
    · rename_i hkept
      simp [hkept]

theorem specFault?_eq_none {source : String} {spec : ImportSpec} :
    specFault? source spec = none ↔ spec.name ≠ some dotName ∧ isRefused spec = false := by
  by_cases hdot : spec.name = some dotName
  · simp [specFault?, hdot]
  · simp [specFault?, hdot]

theorem render_undocumented_iff (engine : Template.Engine) (opts : Template.Options)
    (template : String) (data : Value) (session : Template.Session) (e : Template.RenderError) :
    (engine.render opts true (.text template) data session).result = .error e ∧
      (DeclareError.render e).isDocumented = false ↔
      ∃ p, engine.compile opts template = .error (.escaped p) ∧ e = .escaped p := by
  simp only [Template.Engine.render]
  cases hcompile : engine.compile opts template with
  | error r =>
      cases r with
      | malformed p =>
          constructor
          · rintro ⟨⟨⟩, hundocumented⟩
            simp [DeclareError.isDocumented] at hundocumented
          · rintro ⟨q, ⟨⟩, -⟩
      | escaped p =>
          constructor
          · rintro ⟨⟨⟩, -⟩
            exact ⟨p, rfl, rfl⟩
          · rintro ⟨q, ⟨⟩, rfl⟩
            exact ⟨rfl, rfl⟩
  | ok program =>
      cases hrun : (program (.of data (Template.functions true)) session).result with
      | ok text => simp [hrun]
      | error p =>
          simp only [hrun, Except.error.injEq, reduceCtorEq, false_and, exists_false, iff_false,
            not_and]
          rintro rfl
          simp [DeclareError.isDocumented]

theorem absorb_undocumented_iff (g : Generator) (session : Template.Session) (source : String)
    (e : DeclareError) :
    (g.absorb session source).1 = .error e ∧ e.isDocumented = false ↔
      ∃ file before spec after, SourceFile.ofSource source = .ok file ∧
        file.imports = before ++ spec :: after ∧
        (∀ i ∈ before, i.name ≠ some dotName ∧ isRefused i = false) ∧
        spec.name ≠ some dotName ∧ isRefused spec = true ∧
        e = .badImport (.invalidPath spec.path) := by
  cases hfile : SourceFile.ofSource source with
  | error d =>
      simp only [absorb, hfile, Except.error.injEq, reduceCtorEq, false_and, exists_false, iff_false,
        not_and]
      rintro rfl
      simp [DeclareError.isDocumented]
  | ok file =>
      rw [absorb_fst g session hfile, elim_eq_error, List.findSome?_eq_some_iff]
      constructor
      · rintro ⟨⟨before, spec, after, himports, hfault, hbefore⟩, hundocumented⟩
        refine ⟨file, before, spec, after, rfl, himports, ?_, ?_⟩
        · exact fun i hi => specFault?_eq_none.1 (hbefore i hi)
        · exact specFault?_undocumented.1 ⟨hfault, hundocumented⟩
      · rintro ⟨_, before, spec, after, ⟨⟩, himports, hbefore, hspec⟩
        obtain ⟨hfault, hundocumented⟩ := specFault?_undocumented.2 hspec
        refine ⟨⟨before, spec, after, himports, hfault, ?_⟩, hundocumented⟩
        exact fun i hi => specFault?_eq_none.2 (hbefore i hi)

theorem declare_undocumented_iff (g : Generator) (template : String) (data : Value)
    (e : DeclareError) :
    (g.declare (.text template) data).1 = .error e ∧ e.isDocumented = false ↔
      (∃ p, g.engine.compile g.options template = .error (.escaped p) ∧ e = .render (.escaped p)) ∨
      ∃ source file before spec after,
        (g.rendering (.text template) data).result = .ok source ∧
        SourceFile.ofSource source = .ok file ∧ file.imports = before ++ spec :: after ∧
        (∀ i ∈ before, i.name ≠ some dotName ∧ isRefused i = false) ∧
        spec.name ≠ some dotName ∧ isRefused spec = true ∧
        e = .badImport (.invalidPath spec.path) := by
  have hrender := render_undocumented_iff g.engine g.options template data { imports := g.imports }
  cases hr : (g.rendering (.text template) data).result with
  | error r =>
      have hdeclare : (g.declare (.text template) data).1 = .error (.render r) := by
        simp [declare, hr]
      rw [hdeclare]
      constructor
      · rintro ⟨⟨⟩, hundocumented⟩
        obtain ⟨p, hcompile, rfl⟩ := (hrender r).1 ⟨hr, hundocumented⟩
        exact .inl ⟨p, hcompile, rfl⟩
      · rintro (⟨p, hcompile, rfl⟩ | ⟨source, _, _, _, _, ⟨⟩, -⟩)
        obtain ⟨hescaped, hundocumented⟩ := (hrender (.escaped p)).2 ⟨p, hcompile, rfl⟩
        obtain rfl : r = .escaped p := Except.error.inj (hr.symm.trans hescaped)
        exact ⟨rfl, hundocumented⟩
  | ok source =>
      have hdeclare : (g.declare (.text template) data).1 =
          (g.absorb (g.rendering (.text template) data).session source).1 := by
        simp [declare, hr]
      rw [hdeclare, absorb_undocumented_iff]
      constructor
      · rintro ⟨file, before, spec, after, hfile⟩
        exact .inr ⟨source, file, before, spec, after, rfl, hfile⟩
      · rintro (⟨p, hcompile, -⟩ | ⟨_, file, before, spec, after, ⟨⟩, hfile⟩)
        · obtain ⟨hescaped, -⟩ := (hrender (.escaped p)).2 ⟨p, hcompile, rfl⟩
          exact absurd (hr.symm.trans hescaped) (by simp)
        · exact ⟨file, before, spec, after, hfile⟩

theorem declare_import_of_slash :
    (Generator.declare {} (.text "import \"/\"\n") .null).1.mapError
      (fun e => (e.isDocumented, e.report)) = .error (false, "Invalid import path: '/'") := by
  decide +kernel

end Gosmith.Generator
