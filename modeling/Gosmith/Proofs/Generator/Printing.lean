import Gosmith.Proofs.Generator.References
import Gosmith.Proofs.Layout.Document

namespace Gosmith.Go

theorem Layout.balanced_cons_of_ident {t : Token} (h : t.kind = .ident) (depth : Nat)
    (ts : List Token) : balanced depth (t :: ts) = balanced depth ts := by
  simp [balanced, Token.isCloser, Token.isOpener, h]

theorem Layout.balanced_renameTokens (renames : List (String × String)) (before : Option String)
    (depth : Nat) (ts : List Token) :
    balanced depth (Declaration.renameTokens renames before ts) = balanced depth ts := by
  induction ts generalizing before depth with
  | nil => rfl
  | cons t ts ih =>
      rw [Declaration.renameTokens_cons]
      -- Only identifiers get new names, so every bracket stays.
      by_cases hq : Declaration.isQualifier before (t :: ts) = true
      · have hkind := Declaration.kind_of_isQualifier hq
        have hrenamed : (Declaration.renamed renames t).kind = .ident := hkind
        rw [if_pos hq, balanced_cons_of_ident hrenamed, balanced_cons_of_ident hkind, ih]
      · rw [if_neg hq]
        simp only [balanced, ih]

end Gosmith.Go

namespace Gosmith.Generator

open Gosmith.Go Gosmith.Imports
open Gosmith.Text (braced)

theorem take_perm (names : List String) (ms : List Declaration) :
    ((placeMethods.take names ms).1 ++ (placeMethods.take names ms).2).Perm ms := by
  induction names generalizing ms with
  | nil => exact .refl _
  | cons name names ih =>
      simp only [placeMethods.take, List.partition_eq_filter_filter, List.append_assoc]
      refine ((ih _).append_left _).trans ?_
      exact List.filter_append_perm _ ms

theorem mem_of_mem_placeMethods {pending ds : List Declaration} {d : Declaration}
    (h : d ∈ placeMethods pending ds) : d ∈ pending ∨ d ∈ ds := by
  induction ds generalizing pending with
  | nil => simp [placeMethods] at h
  | cons a rest ih =>
      rw [placeMethods] at h
      split at h
      · have hperm := take_perm a.names pending
        simp only [List.cons_append, List.mem_cons, List.mem_append] at h
        rcases h with rfl | h | h
        · exact .inr List.mem_cons_self
        · exact .inl (hperm.subset (List.mem_append_left _ h))
        · rcases ih h with h | h
          · exact .inl (hperm.subset (List.mem_append_right _ h))
          · exact .inr (List.mem_cons_of_mem _ h)
      · rcases List.mem_cons.1 h with rfl | h
        · exact .inr List.mem_cons_self
        · exact (ih h).imp_right (List.mem_cons_of_mem _)

theorem mem_of_mem_groupMethods {ds : List Declaration} {d : Declaration}
    (h : d ∈ groupMethods ds) : d ∈ ds := by
  simp only [groupMethods, List.partition_eq_filter_filter] at h
  rcases mem_of_mem_placeMethods h with h | h
  · exact List.mem_of_mem_filter h
  · exact List.mem_of_mem_filter h

theorem mem_of_mem_arranged {g : Generator} {d : Declaration} (h : d ∈ g.arranged) :
    d ∈ g.decls := by
  have hsorted : d ∈ if Policy.isOn g.policy.sortByKind then sortByKind g.decls else g.decls := by
    unfold arranged at h
    by_cases hgroup : Policy.isOn g.policy.groupMethods = true
    · simp only [if_pos hgroup] at h
      exact mem_of_mem_groupMethods h
    · simpa only [if_neg hgroup] using h
  split at hsorted
  · exact List.mem_mergeSort.1 hsorted
  · exact hsorted

structure Printable (g : Generator) : Prop extends Sound g where
  decls : ∀ d ∈ g.decls, Layout.balanced 0 d.tokens = true

theorem printable_new {policy : Policy} {options : Template.Options} {engine : Template.Engine}
    {g : Generator} (h : Generator.new policy options engine = .ok g)
    (hengine : engine.OnlyAsks) : Printable g := by
  refine ⟨new_sound h hengine, ?_⟩
  rw [new_eq_ok h]
  simp

theorem balanced_of_mem_numbered {base : Nat} {renames : List (String × String)}
    {ds : List Declaration} (h : ∀ d ∈ ds, Layout.balanced 0 d.tokens = true) :
    ∀ d ∈ numbered base (ds.map (·.renameQualifiers renames)),
      Layout.balanced 0 d.tokens = true := by
  intro d hd
  obtain ⟨k, hk⟩ := List.mem_iff_getElem?.1 hd
  have hlt : k < ds.length := by
    have := (List.getElem?_eq_some_iff.1 hk).1
    rwa [length_numbered, List.length_map] at this
  have hwritten : ds[k]? = some ds[k] := List.getElem?_eq_getElem hlt
  rw [tokens_of_stored hwritten hk, Layout.balanced_renameTokens]
  exact h _ (List.getElem_mem hlt)

theorem Printable.run {g : Generator} (h : Printable g) (c : Call) : Printable (c.run g) := by
  rcases declare_cases g c with ⟨-, hg⟩ | ⟨-, source, file, m, hdeclares⟩
  · rw [hg]
    exact h
  · have hwritten : ∀ d ∈ file.decls, Layout.balanced 0 d.tokens = true := by
      intro d hd
      obtain ⟨ts, -, -, hdecl⟩ := Grammar.decl_of_ofSource hdeclares.parsed hd
      exact Layout.balanced_of_decl hdecl
    rw [hdeclares.result]
    refine ⟨⟨hdeclares.sound h.toSound, h.engine⟩, ?_⟩
    intro d hd
    rcases List.mem_append.1 hd with hd | hd
    · exact h.decls d hd
    · exact balanced_of_mem_numbered hwritten d hd

theorem Printable.play {g : Generator} (h : Printable g) (calls : List Call) :
    Printable (play g calls) := by
  induction calls generalizing g with
  | nil => exact h
  | cons c calls ih => exact ih (h.run c)

theorem importSpec_of_sound {t : Table} (h : t.Sound) :
    ∀ spec ∈ t.block, ∃ line, Document.importSpec spec = .ok line := by
  intro spec hspec
  obtain ⟨b, hb, rfl⟩ := List.mem_map.1 hspec
  have hbound : b ∈ t.bindings := List.mem_mergeSort.1 hb
  refine Document.importSpec_of_named ?_
  rintro name ⟨rfl⟩
  by_cases hblank : b.name = blankName
  · rw [hblank]
    decide
  · exact Token.isName_ne_empty (h.spelled b hbound hblank)

theorem Printable.format {g : Generator} (h : Printable g) :
    ∀ d ∈ g.decls, ∃ text, d.format = .ok text :=
  fun d hd => Declaration.format_of_balanced (h.decls d hd)

theorem Printable.render_cases {g : Generator} (h : Printable g) :
    (∃ name, g.policy.packageName = .text name ∧ Document.isPackageName name = true ∧
      ∃ text, g.render = .ok text) ∨
    (∃ name, g.policy.packageName = .text name ∧ Document.isPackageName name = false ∧
      g.render = .error (.badPackage name)) ∨
    ((∀ name, g.policy.packageName ≠ .text name) ∧
      ∃ kind, g.render = .error (.packageNotText kind)) := by
  have hspecs := importSpec_of_sound h.imports
  have hds : ∀ d ∈ g.arranged, ∃ text, d.format = .ok text :=
    fun d hd => h.format d (mem_of_mem_arranged hd)
  cases hp : g.policy.packageName with
  | text name =>
      have hrender : g.render = Document.render name g.imports.block g.arranged
          (Policy.isOn g.policy.blankLines) := by
        simp only [render, hp]
        rfl
      rw [hrender]
      rcases Document.render_of_formats hspecs hds name (Policy.isOn g.policy.blankLines) with
        ⟨hname, htext⟩ | ⟨hname, herror⟩
      · exact .inl ⟨name, rfl, hname, htext⟩
      · exact .inr (.inl ⟨name, rfl, hname, herror⟩)
  | _ => exact .inr (.inr ⟨by simp, _, by simp only [render, hp]; rfl⟩)

theorem Printable.render_error {g : Generator} (h : Printable g) {f : Document.Fault}
    (hf : g.render = .error f) :
    (∃ name, f = .badPackage name) ∨ ∃ kind, f = .packageNotText kind := by
  rcases h.render_cases with ⟨-, -, -, text, hr⟩ | ⟨name, -, -, hr⟩ | ⟨-, kind, hr⟩
  · simp [hr] at hf
  · rw [hr, Except.error.injEq] at hf
    exact .inl ⟨name, hf.symm⟩
  · rw [hr, Except.error.injEq] at hf
    exact .inr ⟨kind, hf.symm⟩

theorem Printable.render_iff {g : Generator} (h : Printable g) :
    (∃ text, g.render = .ok text) ↔
      ∃ name, g.policy.packageName = .text name ∧ isIdentifier name = true ∧ name ≠ blankName := by
  rcases h.render_cases with ⟨name, hp, hgood, htext⟩ | ⟨name, hp, hbad, herror⟩ |
    ⟨hp, kind, herror⟩
  · exact iff_of_true htext ⟨name, hp, Document.isPackageName_iff.1 hgood⟩
  · refine iff_of_false (by simp [herror]) ?_
    rintro ⟨name', hp', hgood⟩
    obtain rfl : name = name' := by simpa [hp] using hp'
    simp [Document.isPackageName_iff.2 hgood] at hbad
  · refine iff_of_false (by simp [herror]) ?_
    rintro ⟨name, hp', -⟩
    exact hp name hp'

def withPolicy (g : Generator) (p : Policy) : Generator :=
  { g with policy := p }

theorem Printable.withPolicy {g : Generator} (h : Printable g) (p : Policy) :
    Printable (g.withPolicy p) :=
  ⟨⟨h.imports, h.engine⟩, h.decls⟩

theorem render_iff_package_name (engine : Template.Engine) (hengine : engine.OnlyAsks)
    (policy : Policy) (options : Template.Options) (g₀ : Generator)
    (hnew : Generator.new policy options engine = .ok g₀) (calls : List Call) (p : Policy) :
    ((∃ text, ((play g₀ calls).withPolicy p).render = .ok text) ↔
      ∃ name, p.packageName = .text name ∧ isIdentifier name = true ∧ name ≠ blankName) ∧
    (∀ path, ((play g₀ calls).withPolicy p).render ≠ .error (.badPath path)) ∧
    (∀ e, ((play g₀ calls).withPolicy p).render ≠ .error (.unbalanced e)) ∧
    (∀ d ∈ (play g₀ calls).decls, ∃ text, d.format = .ok text) ∧
    ∀ spec ∈ (play g₀ calls).imports.block, ∃ line, Document.importSpec spec = .ok line := by
  have hplay := (printable_new hnew hengine).play calls
  have hpolicy := hplay.withPolicy p
  refine ⟨hpolicy.render_iff, ?_, ?_, hplay.format, importSpec_of_sound hplay.imports⟩
  · intro path hrender
    simpa using hpolicy.render_error hrender
  · intro e hrender
    simpa using hpolicy.render_error hrender

def slashCalls : List Call :=
  [⟨.text ("import x \"a/x\"\nfunc (t T) F() " ++ braced " x.A[0]() "), .null⟩,
    ⟨.text ("import x \"///\"\nvar v = f(x.B)\ntype T struct " ++ braced " x.C "), .null⟩]

def packedPolicy : Policy where
  packageName := .text "p"
  blankLines := .bool false
  sortByKind := .bool true
  groupMethods := .bool true

theorem render_iff_package_name_slashes :
    Generator.new {} {} Template.engine = .ok {} ∧ Template.engine.OnlyAsks ∧
    (∃ text, ((play {} slashCalls).withPolicy packedPolicy).render = .ok text) ∧
    (∀ path, ((play {} slashCalls).withPolicy packedPolicy).render ≠ .error (.badPath path)) ∧
    (∀ e, ((play {} slashCalls).withPolicy packedPolicy).render ≠ .error (.unbalanced e)) ∧
    ImportPath.baseName? "///" = none ∧
    (play {} slashCalls).imports.bindings.map (fun b => (b.path, b.name)) =
      [("a/x", "x"), ("///", "x2")] ∧
    (play {} slashCalls).decls.map (fun d => d.format.toOption) =
      [some ("func (t T) F() " ++ braced " x.A[0]() "), some "var v = f(x2.B)",
        some ("type T struct" ++ braced " x2.C ")] := by
  obtain ⟨hiff, hpath, hbalanced, -, -⟩ :=
    render_iff_package_name Template.engine Template.engine_onlyAsks {} {} {} rfl slashCalls
      packedPolicy
  have hname : ∃ name, packedPolicy.packageName = .text name ∧ isIdentifier name = true ∧
      name ≠ blankName := ⟨"p", rfl, by decide, by decide⟩
  exact ⟨rfl, Template.engine_onlyAsks, hiff.2 hname, hpath, hbalanced, by decide +kernel⟩

end Gosmith.Generator
