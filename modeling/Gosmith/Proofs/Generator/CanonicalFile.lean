import Gosmith.Proofs.Generator.PackageName
import Gosmith.Proofs.Imports.RoundTrip
import Gosmith.Proofs.Layout.FileText
import Gosmith.Proofs.Layout.Spacing

namespace Gosmith

open Gosmith.Go Gosmith.Imports Gosmith.Journal
open Gosmith.Text (braced)

namespace Imports.Table

theorem Registers.printable {t t' : Table} {path name : String} {written : Option String}
    {origin : Origin} (h : Registers t path written origin name t') (ht : t.Printable)
    (hwritten : ∀ w ∈ written, w ≠ blankName → Token.isName w = true)
    (hvalid : ImportPath.isValid path = true) : t'.Printable := by
  refine ⟨h.sound ht.sound hwritten, h.paired ht.paired, fun b hb => ?_⟩
  rcases h.mem hb with hold | rfl
  · exact ht.valid b hold
  · exact hvalid

theorem Sound.isName_of_nameOf? {t : Table} (h : t.Sound) {path name : String}
    (hname : t.nameOf? path = some name) : Token.isName name = true := by
  obtain ⟨b, hb, rfl⟩ := Option.map_eq_some_iff.1 hname
  exact h.isName (mem_of_find? hb)

theorem block_ne_nil {t : Table} (h : t.bindings ≠ []) : t.block ≠ [] := by
  obtain ⟨b, hb⟩ := List.exists_mem_of_ne_nil _ h
  exact List.ne_nil_of_mem (Table.mem_block.2 ⟨b, hb, rfl⟩)

end Imports.Table

theorem Template.Session.steady_printable :
    Template.Session.Steady fun s => s.imports.Printable := by
  intro s s' tracked path name h hr
  obtain ⟨events, htable, -⟩ := Template.Session.request_eq_ok hr
  exact (Table.request_registers htable).printable h (by simp) (Table.isValid_of_request htable)

theorem Assoc.erase_sublist {α : Type} (key : String) (l : List (String × α)) :
    (Assoc.erase key l).Sublist l := by
  induction l with
  | nil => exact .slnil
  | cons a l ih =>
      obtain ⟨k, v⟩ := a
      rw [Assoc.erase]
      split
      · exact (List.Sublist.refl l).cons _
      · exact ih.cons_cons _

namespace Go.Declaration

def NamesOnly (renames : List (String × String)) : Prop :=
  ∀ p ∈ renames, Token.isName p.2 = true

theorem mem_of_mem_renameTokens {renames : List (String × String)} {before : Option String}
    {ts : List Token} {t' : Token} (h : t' ∈ renameTokens renames before ts) :
    ∃ t ∈ ts, t' = t ∨ t.kind = .ident ∧ t' = renamed renames t := by
  induction ts generalizing before with
  | nil => simp [renameTokens] at h
  | cons t ts ih =>
      rw [renameTokens_cons] at h
      rcases List.mem_cons.1 h with rfl | h
      · refine ⟨t, List.mem_cons_self, ?_⟩
        split
        · rename_i hq
          exact .inr ⟨kind_of_isQualifier hq, rfl⟩
        · exact .inl rfl
      · obtain ⟨u, hu, hcases⟩ := ih h
        exact ⟨u, List.mem_cons_of_mem _ hu, hcases⟩

theorem lexed_renamed {renames : List (String × String)} (h : NamesOnly renames) {t : Token}
    (ht : t.Lexed) (hkind : t.kind = .ident) : (renamed renames t).Lexed := by
  cases hlookup : renames.lookup t.text with
  | none => rwa [renamed_eq_self hlookup]
  | some new =>
      have hname : (Token.plain .ident new).Lexed :=
        Token.lexed_name (h _ (Generator.mem_of_lookup hlookup))
      refine hname.congr ?_
      simp [Token.key, Token.plain, renamed, hlookup, hkind]

theorem Regular.renameTokens {d d' : Declaration} (h : d.Regular)
    {renames : List (String × String)} (hnames : NamesOnly renames) (hkind : d'.kind = d.kind)
    (htokens : d'.tokens = Declaration.renameTokens renames none d.tokens) : d'.Regular := by
  refine ⟨?_, ?_, ?_⟩
  · rw [htokens, Layout.balanced_renameTokens]
    exact h.balanced
  · rw [htokens]
    intro t' ht'
    obtain ⟨t, ht, rfl | ⟨hident, rfl⟩⟩ := mem_of_mem_renameTokens ht'
    · exact h.tokens t' ht
    · have hauto : t.isAuto = false := by simp [Token.isAuto, hident]
      exact .inr (lexed_renamed hnames ((h.tokens t ht).resolve_left (by simp [hauto])) hident)
  · obtain ⟨k, rest, hrest, hk⟩ := h.start
    have hplain : isQualifier none (k :: rest) = false := by
      refine Bool.eq_false_iff.2 fun hq => ?_
      simpa [(Grammar.kind_of_isKeyword hk).1] using kind_of_isQualifier hq
    rw [htokens, hrest, renameTokens_cons, hplain, hkind]
    exact ⟨k, _, rfl, hk⟩

theorem regular_of_ofSource {source : String} {file : SourceFile}
    (h : SourceFile.ofSource source = .ok file) {d : Declaration} (hd : d ∈ file.decls) :
    d.Regular := by
  obtain ⟨ts, hts, hsub, hdecl⟩ := Grammar.decl_of_ofSource h hd
  refine ⟨Layout.balanced_of_decl hdecl, fun t ht => ?_, ?_⟩
  · cases hauto : t.isAuto with
    | true => exact .inl rfl
    | false =>
        refine .inr (Token.lexed_of_mem_written hts ?_)
        simp [Token.written, hsub ht, hauto, hdecl.kind_ne_eof t ht]
  · obtain ⟨k, rest, hrest, hk, -⟩ := hdecl.exists_cons
    exact ⟨k, rest, hrest, hk⟩

end Go.Declaration

namespace Generator

theorem mem_renames_note {requested : List (String × String)} {m : Merge}
    {path name resolved : String} {p : String × String}
    (h : p ∈ (m.note requested path name resolved).renames) :
    p = (name, resolved) ∨ p ∈ m.renames := by
  simp only [Merge.note] at h
  split at h
  · exact .inr ((Assoc.erase_sublist name m.renames).subset h)
  · split at h
    · exact .inr h
    · split at h
      · exact .inr h
      · exact Assoc.mem_set h

theorem namesOnly_note {m : Merge} (h : Declaration.NamesOnly m.renames) {resolved : String}
    (hresolved : Token.isName resolved = true) (requested : List (String × String))
    (path name : String) : Declaration.NamesOnly (m.note requested path name resolved).renames := by
  intro p hp
  rcases mem_renames_note hp with rfl | hp
  · exact hresolved
  · exact h p hp

theorem mergeImports_names {requested : List (String × String)} {source : String}
    {specs : List ImportSpec} {m m' : Merge}
    (h : mergeImports requested source m specs = (.ok (), m')) (hs : m.imports.Sound)
    (hnames : Declaration.NamesOnly m.renames) (hspelled : Spelled specs) :
    Declaration.NamesOnly m'.renames := by
  induction specs generalizing m with
  | nil =>
      cases h
      exact hnames
  | cons spec rest ih =>
      obtain ⟨hdot, resolved, imports, events, m₁, hm, rfl, -, hrenames, hrest⟩ :=
        mergeImports_cases h
      have hreg := Table.merge_registers hm
      have hsound := hreg.sound hs (written_of_spelled hspelled hdot)
      have hold : Declaration.NamesOnly m₁.renames := hrenames ▸ hnames
      have hlater : Spelled rest := fun i hi => hspelled i (List.mem_cons_of_mem _ hi)
      rcases hrest with ⟨-, hrest⟩ | ⟨name, -, hrest⟩
      · exact ih hrest hsound hold hlater
      · refine ih hrest (by rwa [note_imports]) ?_ hlater
        exact namesOnly_note hold (hsound.isName_of_nameOf? hreg.nameOf?) requested spec.path name

theorem mergeImports_printable {requested : List (String × String)} {source : String}
    {specs : List ImportSpec} {m m' : Merge}
    (h : mergeImports requested source m specs = (.ok (), m')) (ht : m.imports.Printable)
    (hspelled : Spelled specs) : m'.imports.Printable := by
  induction specs generalizing m with
  | nil =>
      cases h
      exact ht
  | cons spec rest ih =>
      obtain ⟨hdot, resolved, imports, events, m₁, hm, rfl, -, -, hrest⟩ := mergeImports_cases h
      have hprintable := (Table.merge_registers hm).printable ht
        (written_of_spelled hspelled hdot) (Table.isValid_of_merge hm)
      have hlater : Spelled rest := fun i hi => hspelled i (List.mem_cons_of_mem _ hi)
      rcases hrest with ⟨-, hrest⟩ | ⟨name, -, hrest⟩
      · exact ih hrest hprintable hlater
      · exact ih hrest (by rwa [note_imports]) hlater

theorem stored_of_mem {base : Nat} {renames : List (String × String)} {ds : List Declaration}
    {d' : Declaration} (h : d' ∈ numbered base (ds.map (·.renameQualifiers renames))) :
    ∃ d ∈ ds, d'.kind = d.kind ∧ d'.tokens = Declaration.renameTokens renames none d.tokens := by
  obtain ⟨k, hk⟩ := List.mem_iff_getElem?.1 h
  rw [getElem?_numbered, List.getElem?_map] at hk
  cases hd : ds[k]? with
  | none => simp [hd] at hk
  | some d =>
      simp only [hd, Option.map_some, Option.some.injEq] at hk
      refine ⟨d, List.mem_of_getElem? hd, ?_⟩
      rw [← hk]
      exact ⟨rfl, rfl⟩

structure Regular (g : Generator) : Prop where
  imports : g.imports.Printable
  engine : g.engine.OnlyAsks
  decls : ∀ d ∈ g.decls, d.Regular

theorem regular_new {policy : Policy} {options : Template.Options} {engine : Template.Engine}
    {g : Generator} (h : Generator.new policy options engine = .ok g)
    (hengine : engine.OnlyAsks) : Regular g := by
  rw [new_eq_ok h]
  exact ⟨Table.printable_empty, hengine, by simp⟩

theorem Regular.session {g : Generator} (h : Regular g) (c : Call) :
    (c.rendering g).session.imports.Printable := by
  have hasks := h.engine.render g.options true c.template c.data { imports := g.imports }
  exact hasks.keeps Template.Session.steady_printable h.imports

theorem Regular.run {g : Generator} (h : Regular g) (c : Call) : Regular (c.run g) := by
  rcases declare_cases g c with ⟨-, hg⟩ | ⟨-, source, file, m, hdeclares⟩
  · rw [hg]
    exact h
  · have hspelled := spelled_ofSource hdeclares.parsed
    have hprintable := mergeImports_printable hdeclares.merged (h.session c) hspelled
    have hnames := mergeImports_names hdeclares.merged (h.session c).sound
      (by simp [Declaration.NamesOnly])
      hspelled
    rw [hdeclares.result]
    refine ⟨hprintable, h.engine, fun d hd => ?_⟩
    rcases List.mem_append.1 hd with hd | hd
    · exact h.decls d hd
    · obtain ⟨d₀, hd₀, hkind, htokens⟩ := stored_of_mem hd
      have hparsed := Declaration.regular_of_ofSource hdeclares.parsed hd₀
      exact hparsed.renameTokens hnames hkind htokens

theorem Regular.play {g : Generator} (h : Regular g) (calls : List Call) :
    Regular (play g calls) := by
  induction calls generalizing g with
  | nil => exact h
  | cons c calls ih => exact ih (h.run c)

theorem lexed_of_isIdentifier {name : String} (h : isIdentifier name = true)
    (hline : '\n' ∉ name.toList) : (Token.plain .ident name).Lexed := by
  have hkey := isKeyword_of_isIdentifier h
  obtain ⟨base, rfl | rfl, htext⟩ := isNameText_of_isIdentifier h
  · simpa [hkey] using htext.lexed
  · simp at hline

theorem render_canonical_file (engine : Template.Engine) (hengine : engine.OnlyAsks)
    (policy : Policy) (options : Template.Options) (g₀ : Generator)
    (hnew : Generator.new policy options engine = .ok g₀) (calls : List Call) (p : Policy)
    (name : String) (hname : p.packageName = .text name) (hident : isIdentifier name = true)
    (hline : '\n' ∉ name.toList) (hblank : name ≠ blankName)
    (hstrings : ∀ d ∈ (play g₀ calls).decls, d.OneLined) :
    ∃ text, ((play g₀ calls).withPolicy p).render = .ok text ∧
      (∃ more, text = "package " ++ name ++ "\n" ++ more) ∧ Text.Canonical text ∧
      ((play g₀ calls).imports.bindings ≠ [] →
        Document.HasBlock name (play g₀ calls).imports.block
          ((play g₀ calls).withPolicy p).arranged (Policy.isOn p.blankLines) text ∧
        ∀ file, SourceFile.ofSource text = .ok file → file.package = name ∧
          file.imports.map Document.view = (play g₀ calls).imports.block.map fun spec =>
            (spec.path, Document.writtenName spec)) := by
  have hregular := (regular_new hnew hengine).play calls
  have hspecs := hregular.imports.writable
  have hlexed := lexed_of_isIdentifier hident hline
  have hflat : (Token.plain .ident name).Flat := hlexed.flat (by simp [Token.plain])
  have hds : ∀ d ∈ ((play g₀ calls).withPolicy p).arranged,
      ∃ text, d.Prints text ∧ Text.IsNeat text := by
    intro d hd
    have hmem : d ∈ ((play g₀ calls).withPolicy p).decls := mem_of_mem_arranged hd
    exact (hregular.decls d hmem).prints (hstrings d hmem)
  obtain ⟨text, htext, hcanonical, hclause, hblock⟩ := Document.render_canonical
    (Policy.isOn p.blankLines) (Document.isPackageName_iff.2 ⟨hident, hblank⟩) hflat hspecs hds
  have hrender : ((play g₀ calls).withPolicy p).render = .ok text := by
    rw [← htext]
    simp only [render, withPolicy, hname]
    rfl
  refine ⟨text, hrender, hclause, hcanonical, fun hne => ?_⟩
  have hhas := hblock (Table.block_ne_nil hne)
  exact ⟨hhas, fun file hfile => hhas.imports hlexed hspecs hfile⟩

def scatteredCalls : List Call :=
  [⟨.text ("// one\n\n\nimport y \"a/x\";\n\n\n\n" ++
      "func F() " ++ braced "\n\n\n  a() ; \n\n\n\n// two\n  y.B();;\n \n" ++ ";  "), .null⟩,
    ⟨.text "\n\n var /* three\n four */ v = (1 +\n\n\n 2);\n\n", .null⟩]

def scatteredFile : String :=
  "package p\n\nimport (\n\ty \"a/x\"\n)\n\n" ++
    "func F() " ++ braced "\n\n\ta()\n\n\ty.B();\n\n" ++ "\n\nvar\nv = (1 +\n\n\t\t2)\n"

theorem render_canonical_file_scattered :
    Generator.new {} {} Template.engine = .ok {} ∧ Template.engine.OnlyAsks ∧
    isIdentifier "p" = true ∧
    (∀ d ∈ (play {} scatteredCalls).decls, d.OneLined) ∧
    (play {} scatteredCalls).imports.bindings ≠ [] ∧
    ∃ text, ((play {} scatteredCalls).withPolicy { packageName := .text "p" }).render = .ok text ∧
      text = scatteredFile ∧ Text.Canonical text ∧
      Document.HasBlock "p" (play {} scatteredCalls).imports.block
        ((play {} scatteredCalls).withPolicy { packageName := .text "p" }).arranged true text := by
  have hview : (∀ d ∈ (play {} scatteredCalls).decls, ∀ t ∈ d.tokens, t.kind = .string →
        '\n' ∉ t.text.toList) ∧ (play {} scatteredCalls).imports.bindings ≠ [] ∧
      ((play {} scatteredCalls).withPolicy { packageName := .text "p" }).render.toOption =
        some scatteredFile := by decide +kernel
  obtain ⟨hlines, hbound, hprinted⟩ := hview
  obtain ⟨text, hrender, -, hcanonical, hblock⟩ :=
    render_canonical_file Template.engine Template.engine_onlyAsks {} {} {} rfl scatteredCalls
      { packageName := .text "p" } "p" rfl (by decide) (by decide) (by decide) hlines
  rw [hrender] at hprinted
  exact ⟨rfl, Template.engine_onlyAsks, by decide, hlines, hbound, text, hrender,
    Option.some.inj hprinted, hcanonical, (hblock hbound).1⟩

end Generator

end Gosmith
