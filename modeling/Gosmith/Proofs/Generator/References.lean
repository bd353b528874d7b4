import Gosmith.Proofs.Generator.Merging
import Gosmith.Proofs.Generator.Renaming
import Gosmith.Proofs.Grammar.File
import Gosmith.Proofs.Template.Rendering

namespace Gosmith.Generator

open Gosmith.Go Gosmith.Imports Gosmith.Journal
open Gosmith.Text (braced)

structure Call where
  template : Value
  data : Value

def Call.run (c : Call) (g : Generator) : Generator :=
  (g.declare c.template c.data).2.1

def Call.rendering (c : Call) (g : Generator) : Template.Rendering :=
  g.rendering c.template c.data

def play (g : Generator) (calls : List Call) : Generator :=
  calls.foldl (fun g c => c.run g) g

theorem play_cons (g : Generator) (c : Call) (calls : List Call) :
    play g (c :: calls) = play (c.run g) calls := rfl

theorem play_append (g : Generator) (calls more : List Call) :
    play g (calls ++ more) = play (play g calls) more :=
  List.foldl_append

structure Declares (g : Generator) (c : Call) (source : String) (file : SourceFile) (m : Merge) :
    Prop where
  rendered : (c.rendering g).result = .ok source
  parsed : SourceFile.ofSource source = .ok file
  merged : mergeImports (c.rendering g).session.requested source
    { imports := (c.rendering g).session.imports } file.imports = (.ok (), m)
  result : c.run g = { g with
    imports := m.imports
    decls := g.decls ++
      numbered g.decls.length (file.decls.map (·.renameQualifiers m.renames)) }

theorem absorb_cases (g : Generator) (session : Template.Session) (source : String) :
    (∃ e, (g.absorb session source).1 = .error e ∧ (g.absorb session source).2.1 = g) ∨
    ∃ file m, (g.absorb session source).1 = .ok () ∧ SourceFile.ofSource source = .ok file ∧
      mergeImports session.requested source { imports := session.imports } file.imports =
        (.ok (), m) ∧
      (g.absorb session source).2.1 = { g with
        imports := m.imports
        decls := g.decls ++
          numbered g.decls.length (file.decls.map (·.renameQualifiers m.renames)) } := by
  cases hf : SourceFile.ofSource source with
  | error d => exact .inl ⟨.invalidGo d source, by simp [absorb, hf]⟩
  | ok file =>
      rcases hm : mergeImports session.requested source { imports := session.imports } file.imports
        with ⟨r, m⟩
      cases r with
      | error e => exact .inl ⟨e, by simp [absorb, hf, hm]⟩
      | ok u => exact .inr ⟨file, m, by simp [absorb, hf, hm], rfl, hm, by simp [absorb, hf, hm]⟩

theorem declare_of_rendered {g : Generator} {c : Call} {source : String}
    (h : (c.rendering g).result = .ok source) :
    (g.declare c.template c.data).1 = (g.absorb (c.rendering g).session source).1 ∧
      c.run g = (g.absorb (c.rendering g).session source).2.1 := by
  simp only [Call.rendering] at h
  simp only [Call.run, Call.rendering, declare, h, and_self]

theorem declare_of_failed {g : Generator} {c : Call} {e : Template.RenderError}
    (h : (c.rendering g).result = .error e) :
    (g.declare c.template c.data).1 = .error (.render e) ∧ c.run g = g := by
  simp only [Call.rendering] at h
  simp only [Call.run, declare, h, and_self]

theorem declare_cases (g : Generator) (c : Call) :
    ((∃ e, (g.declare c.template c.data).1 = .error e) ∧ c.run g = g) ∨
    ((g.declare c.template c.data).1 = .ok () ∧
      ∃ source file m, Declares g c source file m) := by
  cases hr : (c.rendering g).result with
  | error e =>
      obtain ⟨hdeclare, hrun⟩ := declare_of_failed hr
      exact .inl ⟨⟨.render e, hdeclare⟩, hrun⟩
  | ok source =>
      obtain ⟨hdeclare, hrun⟩ := declare_of_rendered hr
      rcases g.absorb_cases (c.rendering g).session source with ⟨e, he, hg⟩ |
        ⟨file, m, hok, hf, hm, hg⟩
      · exact .inl ⟨⟨e, hdeclare.trans he⟩, hrun.trans hg⟩
      · exact .inr ⟨hdeclare.trans hok, source, file, m, hr, hf, hm, hrun.trans hg⟩

theorem declare_eq_ok {g : Generator} {c : Call}
    (h : (g.declare c.template c.data).1.isOk = true) :
    (g.declare c.template c.data).1 = .ok () := by
  rcases declare_cases g c with ⟨⟨e, he⟩, -⟩ | ⟨hok, -⟩
  · rw [he] at h
    simp [Except.isOk, Except.toBool] at h
  · exact hok

theorem spelled_ofSource {source : String} {file : SourceFile}
    (h : SourceFile.ofSource source = .ok file) : Spelled file.imports := by
  intro i hmem
  obtain ⟨ts, vs, hts, hsub, hspec⟩ := Grammar.spec_of_ofSource h hmem
  exact hspec.isName hts hsub

structure Sound (g : Generator) : Prop where
  imports : g.imports.Sound
  engine : g.engine.OnlyAsks

theorem Sound.tracks {g : Generator} (hg : Sound g) (c : Call) :
    (c.rendering g).session.Tracks g.imports :=
  (hg.engine.render g.options true c.template c.data { imports := g.imports }).tracks hg.imports

namespace Declares

variable {g : Generator} {c : Call} {source : String} {file : SourceFile} {m : Merge}

theorem sound (h : Declares g c source file m) (hg : Sound g) : m.imports.Sound :=
  mergeImports_sound h.merged (hg.tracks c).sound (spelled_ofSource h.parsed)

theorem keeps (h : Declares g c source file m) (hg : Sound g) : g.imports.Extends m.imports :=
  (hg.tracks c).extend.trans (mergeImports_extends h.merged).1

end Declares

structure Grows (g g' : Generator) : Prop where
  sound : Sound g'
  keeps : g.imports.Extends g'.imports
  decls : ∃ more, g'.decls = g.decls ++ more

theorem Grows.refl {g : Generator} (hg : Sound g) : Grows g g :=
  ⟨hg, .refl _, [], by simp⟩

theorem Grows.trans {g₁ g₂ g₃ : Generator} (h : Grows g₁ g₂) (h' : Grows g₂ g₃) : Grows g₁ g₃ := by
  obtain ⟨more, hmore⟩ := h.decls
  obtain ⟨last, hlast⟩ := h'.decls
  refine ⟨h'.sound, h.keeps.trans h'.keeps, more ++ last, ?_⟩
  rw [hlast, hmore, List.append_assoc]

theorem run_grows {g : Generator} (hg : Sound g) (c : Call) : Grows g (c.run g) := by
  rcases declare_cases g c with ⟨-, hrun⟩ | ⟨-, source, file, m, h⟩
  · rw [hrun]
    exact .refl hg
  · rw [h.result]
    exact ⟨⟨h.sound hg, hg.engine⟩, h.keeps hg, _, rfl⟩

theorem play_grows {g : Generator} (hg : Sound g) (calls : List Call) :
    Grows g (play g calls) := by
  induction calls generalizing g with
  | nil => exact .refl hg
  | cons c calls ih =>
      have hstep := run_grows hg c
      exact hstep.trans (ih hstep.sound)

section

variable {policy : Policy} {options : Template.Options} {engine : Template.Engine} {g : Generator}
  (h : Generator.new policy options engine = .ok g)

include h

theorem new_eq_ok : g = { policy := policy, options := options, engine := engine } := by
  unfold Generator.new at h
  cases hv : policy.validate with
  | error f => simp [hv, bind, Except.bind] at h
  | ok u =>
      simp only [hv, bind, Except.bind, pure, Except.pure, Except.ok.injEq] at h
      exact h.symm

theorem new_sound (hengine : engine.OnlyAsks) : Sound g := by
  rw [new_eq_ok h]
  exact ⟨Table.sound_empty, hengine⟩

end

theorem getElem?_numbered (base : Nat) (ds : List Declaration) (k : Nat) :
    (numbered base ds)[k]? = ds[k]?.map fun d => { d with order := base + k } := by
  induction ds generalizing base k with
  | nil => rfl
  | cons d ds ih =>
      cases k with
      | zero => rfl
      | succ k =>
          rw [numbered, List.getElem?_cons_succ, ih, List.getElem?_cons_succ]
          simp only [Nat.add_assoc, Nat.add_comm 1 k]

theorem length_numbered (base : Nat) (ds : List Declaration) :
    (numbered base ds).length = ds.length := by
  induction ds generalizing base with
  | nil => rfl
  | cons d ds ih => rw [numbered, List.length_cons, ih, List.length_cons]

def Denotes (requested : List (String × String)) (specs : List ImportSpec) (name path : String) :
    Prop :=
  (∃ i ∈ specs, Uses i name ∧ i.path = path) ∨ (name, path) ∈ requested

theorem baseName?_of_contains {t : Table} {path : String}
    (hbase : ∀ b ∈ t.bindings, ImportPath.baseName? b.path ≠ some blankName)
    (h : t.contains path = true) : ImportPath.baseName? path ≠ some blankName := by
  obtain ⟨b, hb⟩ := Option.isSome_iff_exists.1 h
  rw [← Table.path_of_find? hb]
  exact hbase b (Table.mem_of_find? hb)

namespace Declares

variable {g : Generator} {c : Call} {source : String} {file : SourceFile} {m : Merge}

theorem resolved (h : Declares g c source file m)
    (hbase : ∀ b ∈ m.imports.bindings, ImportPath.baseName? b.path ≠ some blankName)
    (hclear : Unambiguous (c.rendering g).session.requested file.imports) :
    Resolved file.imports m := by
  have hall := (mergeImports_extends h.merged).2
  refine mergeImports_resolved h.merged (resolved_start _) hclear ?_
  exact fun i hi => baseName?_of_contains hbase (hall i hi)

theorem denotes_of_renames (h : Declares g c source file m)
    (hr : Resolved file.imports m) {name new : String} (hl : m.renames.lookup name = some new) :
    ∃ path, Denotes (c.rendering g).session.requested file.imports name path ∧ name ≠ dotName ∧
      m.imports.nameOf? path = some new ∧ new ≠ blankName := by
  obtain ⟨i, hi, hu⟩ := hr.renames name new hl
  obtain ⟨new', hnew, hblank, hget⟩ := hr.names i hi name hu
  rw [hl, Option.getD_some] at hget
  subst hget
  have hdot := hu.ne_dot (mergeImports_no_dot h.merged i hi)
  exact ⟨i.path, .inl ⟨i, hi, hu, rfl⟩, hdot, hnew, hblank⟩

theorem keepsDots (h : Declares g c source file m) (hg : Sound g)
    (hr : Resolved file.imports m) : Declaration.KeepsDots m.renames := by
  intro name
  cases hl : m.renames.lookup name with
  | none => simp
  | some new =>
      obtain ⟨path, -, hdot, hname, hblank⟩ := h.denotes_of_renames hr hl
      obtain ⟨b, hb, rfl⟩ := Option.map_eq_some_iff.1 hname
      have hspelled := (h.sound hg).spelled b (Table.mem_of_find? hb) hblank
      rw [Option.getD_some]
      exact ⟨fun heq => absurd heq (Token.isName_ne_dot hspelled), fun heq => absurd heq hdot⟩

theorem nameOf?_of_denotes (h : Declares g c source file m) (hg : Sound g)
    (hbase : ∀ b ∈ m.imports.bindings, ImportPath.baseName? b.path ≠ some blankName)
    (hclear : Unambiguous (c.rendering g).session.requested file.imports) {name path : String}
    (hd : Denotes (c.rendering g).session.requested file.imports name path) :
    m.imports.nameOf? path = some ((m.renames.lookup name).getD name) ∧
      (m.renames.lookup name).getD name ≠ blankName := by
  have hr := h.resolved hbase hclear
  rcases hd with ⟨i, hi, hu, rfl⟩ | hreq
  · obtain ⟨new, hnew, hblank, hget⟩ := hr.names i hi name hu
    rw [hget]
    exact ⟨hnew, hblank⟩
  · obtain ⟨hin, hname, hblank⟩ := (hg.tracks c).given name path hreq
    have hext := (mergeImports_extends h.merged).1
    have hne : name ≠ blankName := fun heq =>
      baseName?_of_contains hbase (hext.contains hin) (hblank heq)
    have hkept := hext.nameOf? (hname hne) hne
    have hsame : (m.renames.lookup name).getD name = name := by
      cases hl : m.renames.lookup name with
      | none => rfl
      | some new =>
          obtain ⟨i, hi, hu⟩ := hr.renames name new hl
          obtain ⟨new', hnew, -, hget⟩ := hr.names i hi name hu
          rw [← hclear.tracked i hi name path hu hreq, hkept, Option.some.injEq] at hnew
          rw [← hl, hget, hnew]
    rw [hsame]
    exact ⟨hkept, hne⟩

end Declares

theorem tokens_of_stored {base : Nat} {renames : List (String × String)} {ds : List Declaration}
    {k : Nat} {d d' : Declaration} (hd : ds[k]? = some d)
    (hd' : (numbered base (ds.map (·.renameQualifiers renames)))[k]? = some d') :
    d'.tokens = Declaration.renameTokens renames none d.tokens := by
  rw [getElem?_numbered, List.getElem?_map, hd, Option.map_some, Option.map_some,
    Option.some.injEq] at hd'
  rw [← hd']
  rfl

theorem token_of_renamed {renames : List (String × String)}
    (hdots : Declaration.KeepsDots renames) {ts : List Token} {i : Nat} {t t' : Token}
    (ht : ts[i]? = some t) (ht' : (Declaration.renameTokens renames none ts)[i]? = some t') :
    (Declaration.QualifierAt ts i → t' = Declaration.renamed renames t) ∧
      (¬ Declaration.QualifierAt ts i → t' = t) := by
  constructor
  · intro hq
    rw [Declaration.renameTokens_of_qualifier hdots ht hq, Option.some.injEq] at ht'
    exact ht'.symm
  · intro hq
    rw [Declaration.renameTokens_of_other hdots ht hq, Option.some.injEq] at ht'
    exact ht'.symm

/-- A stored declaration is the written one, but for the qualifiers that stand for a path: they have
the name of that path. -/
def Follows (imports : Table) (denotes : String → String → Prop) (d stored : Declaration) : Prop :=
  stored.tokens.length = d.tokens.length ∧
  ∀ (i : Nat) (t t' : Token), d.tokens[i]? = some t → stored.tokens[i]? = some t' →
    (∀ path, Declaration.QualifierAt d.tokens i → denotes t.text path →
      t' = { t with text := t'.text } ∧ imports.nameOf? path = some t'.text) ∧
    ((¬ Declaration.QualifierAt d.tokens i ∨ ∀ path, ¬ denotes t.text path) → t' = t)

theorem Declares.follows {g g' : Generator} {c : Call} {source : String} {file : SourceFile}
    {m : Merge}
    (h : Declares g c source file m) (hg : Sound g)
    (hbase : ∀ b ∈ m.imports.bindings, ImportPath.baseName? b.path ≠ some blankName)
    (hclear : Unambiguous (c.rendering g).session.requested file.imports)
    (hlater : m.imports.Extends g'.imports)
    {base k : Nat} {d d' : Declaration} (hd : file.decls[k]? = some d)
    (hd' : (numbered base (file.decls.map (·.renameQualifiers m.renames)))[k]? = some d') :
    Follows g'.imports (Denotes (c.rendering g).session.requested file.imports) d d' := by
  have hr := h.resolved hbase hclear
  have htokens := tokens_of_stored hd hd'
  refine ⟨by rw [htokens, Declaration.length_renameTokens], fun i t t' ht ht' => ?_⟩
  rw [htokens] at ht'
  obtain ⟨hyes, hno⟩ := token_of_renamed (h.keepsDots hg hr) ht ht'
  refine ⟨fun path hq hden => ?_, fun hor => ?_⟩
  · obtain ⟨hname, hblank⟩ := h.nameOf?_of_denotes hg hbase hclear hden
    rw [hyes hq]
    exact ⟨rfl, hlater.nameOf? hname hblank⟩
  · by_cases hq : Declaration.QualifierAt d.tokens i
    · have hnone := hor.resolve_left (not_not.2 hq)
      rw [hyes hq]
      refine Declaration.renamed_eq_self ?_
      cases hl : m.renames.lookup t.text with
      | none => rfl
      | some new =>
          obtain ⟨path, hden, -⟩ := h.denotes_of_renames hr hl
          exact absurd hden (hnone path)
    · exact hno hq

theorem references_follow_imports (engine : Template.Engine) (hengine : engine.OnlyAsks)
    (policy : Policy) (options : Template.Options) (g₀ : Generator)
    (hnew : Generator.new policy options engine = .ok g₀) (earlier : List Call) (c : Call)
    (hok : ((play g₀ earlier).declare c.template c.data).1 = .ok ())
    (hbase : ∀ b ∈ (play g₀ (earlier ++ [c])).imports.bindings,
      ImportPath.baseName? b.path ≠ some blankName) :
    ∃ source session file stored,
      (c.rendering (play g₀ earlier)).result = .ok source ∧
      (c.rendering (play g₀ earlier)).session = session ∧
      SourceFile.ofSource source = .ok file ∧
      (play g₀ (earlier ++ [c])).decls = (play g₀ earlier).decls ++ stored ∧
      stored.length = file.decls.length ∧
      (Unambiguous session.requested file.imports → ∀ later : List Call,
        (∃ more, (play g₀ (earlier ++ c :: later)).decls =
          (play g₀ earlier).decls ++ stored ++ more) ∧
        ∀ (k : Nat) (d d' : Declaration), file.decls[k]? = some d → stored[k]? = some d' →
          Follows (play g₀ (earlier ++ c :: later)).imports
            (Denotes session.requested file.imports) d d') := by
  have hg := (play_grows (new_sound hnew hengine) earlier).sound
  have hlater : ∀ later, play g₀ (earlier ++ c :: later) = play (c.run (play g₀ earlier)) later := by
    intro later
    rw [play_append, play_cons]
  rw [hlater []] at hbase ⊢
  generalize play g₀ earlier = g at hok hg hlater hbase
  rcases declare_cases g c with ⟨⟨e, he⟩, -⟩ | ⟨-, source, file, m, h⟩
  · simp [he] at hok
  have hnow : play (c.run g) [] = c.run g := rfl
  rw [hnow, h.result] at hbase
  refine ⟨source, _, file, _, h.rendered, rfl, h.parsed, by rw [hnow, h.result],
    by rw [length_numbered, List.length_map], fun hclear later => ?_⟩
  have hgrows : Grows (c.run g) (play (c.run g) later) :=
    play_grows (run_grows hg c).sound later
  obtain ⟨more, hmore⟩ := hgrows.decls
  have himports : (c.run g).imports = m.imports := by rw [h.result]
  have hkeeps := hgrows.keeps
  rw [himports] at hkeeps
  rw [hlater later]
  refine ⟨⟨more, by rw [hmore, h.result]⟩, fun k d d' hd hd' => ?_⟩
  exact h.follows hg hbase hclear hkeeps hd hd'

def sharedCall : Call where
  template := .text ("import w \"a/util\"\nvar y = w.F(" ++
    braced (braced " import(\"a/util\") ") ++ ".G)")
  data := .null

def sharedSource : String :=
  "package idlgen\n\nimport w \"a/util\"\nvar y = w.F(util.G)"

theorem sharedCall_rendered : (sharedCall.rendering {}).result.toOption = some sharedSource ∧
    (sharedCall.rendering {}).session.requested = [("util", "a/util")] := by
  decide +kernel

theorem sharedCall_succeeds :
    ((play {} []).declare sharedCall.template sharedCall.data).1 = .ok () :=
  declare_eq_ok (by decide +kernel)

theorem references_follow_imports_shared : ∃ session file stored,
    Template.engine.OnlyAsks ∧ (sharedCall.rendering {}).result = .ok sharedSource ∧
    (sharedCall.rendering {}).session = session ∧
    SourceFile.ofSource sharedSource = .ok file ∧ Unambiguous session.requested file.imports ∧
    (play {} [sharedCall]).decls = stored ∧
    stored.map (fun d => d.tokens.map Token.text) =
      [["var", "y", "=", "util", ".", "F", "(", "util", ".", "G", ")"]] ∧
    ∀ (later : List Call) (k : Nat) (d d' : Declaration), file.decls[k]? = some d →
      stored[k]? = some d' → Follows (play {} (sharedCall :: later)).imports
        (Denotes session.requested file.imports) d d' := by
  have hbase : ∀ b ∈ (play {} ([] ++ [sharedCall])).imports.bindings,
      ImportPath.baseName? b.path ≠ some blankName := by decide +kernel
  obtain ⟨source, session, file, stored, hrender, hsession, hparse, hstored, -, hfollows⟩ :=
    references_follow_imports Template.engine Template.engine_onlyAsks {} {} {} rfl [] sharedCall
      sharedCall_succeeds hbase
  rw [show play {} [] = {} from rfl] at hrender hsession
  obtain ⟨hsource, hrequested⟩ := sharedCall_rendered
  obtain rfl : source = sharedSource := by simpa [hrender, Except.toOption] using hsource
  rw [hsession] at hrequested
  have himports : file.imports = [⟨"a/util", some "w", 3⟩] := by
    have hview : (SourceFile.ofSource sharedSource).toOption.map SourceFile.imports =
      some [⟨"a/util", some "w", 3⟩] := by decide +kernel
    simpa [hparse, Except.toOption] using hview
  have hclear : Unambiguous session.requested file.imports := by
    rw [hrequested, himports]
    constructor
    · intro i hi j hj name _ _
      rw [List.mem_singleton.1 hi, List.mem_singleton.1 hj]
    · intro i hi name path _ hp
      simp only [List.mem_singleton, Prod.mk.injEq] at hi hp
      rw [hi, hp.2]
  have htexts : (play {} ([] ++ [sharedCall])).decls.map (fun d => d.tokens.map Token.text) =
      [["var", "y", "=", "util", ".", "F", "(", "util", ".", "G", ")"]] := by decide +kernel
  rw [hstored] at htexts
  exact ⟨session, file, stored, Template.engine_onlyAsks, hrender, hsession, hparse, hclear, hstored,
    htexts, fun later => (hfollows hclear later).2⟩

def blankCall : Call where
  template := .text "import _ \"a\"\nimport b \"a\"\nvar x = _.Y\n"
  data := .null

def blankSource : String :=
  "package idlgen\n\nimport _ \"a\"\nimport b \"a\"\nvar x = _.Y\n"

def blankDecl : Declaration where
  kind := .var
  tokens := [⟨.keyword, "var", ⟨5, 1⟩, false, 1⟩, ⟨.ident, "x", ⟨5, 5⟩, true, 0⟩,
    ⟨.op, "=", ⟨5, 7⟩, true, 0⟩, ⟨.ident, "_", ⟨5, 9⟩, true, 0⟩, ⟨.op, ".", ⟨5, 10⟩, false, 0⟩,
    ⟨.ident, "Y", ⟨5, 11⟩, false, 0⟩]
  names := ["x"]
  line := 5

def blankImports : List ImportSpec :=
  [⟨"a", some "_", 3⟩, ⟨"a", some "b", 4⟩]

theorem blank_import_not_followed :
    Generator.new {} {} Template.engine = .ok {} ∧ Template.engine.OnlyAsks ∧
    (blankCall.rendering {}).result.toOption = some blankSource ∧
    (blankCall.rendering {}).session.requested = [] ∧
    SourceFile.ofSource blankSource = .ok ⟨"idlgen", blankImports, [blankDecl]⟩ ∧
    Unambiguous [] blankImports ∧
    (∀ b ∈ (play {} [blankCall]).imports.bindings,
      ImportPath.baseName? b.path ≠ some blankName) ∧
    (play {} [blankCall]).decls = [blankDecl] ∧
    ¬ Follows (play {} [blankCall]).imports
      (fun name path => ∃ i ∈ blankImports, localName i = .ok name ∧ i.path = path)
      blankDecl blankDecl := by
  have hpath : ∀ i ∈ blankImports, i.path = "a" := by decide
  have hclear : Unambiguous [] blankImports := by
    constructor
    · intro i hi j hj name _ _
      rw [hpath i hi, hpath j hj]
    · intro i hi name path _ hp
      simp at hp
  have hview : (blankCall.rendering {}).result.toOption = some blankSource ∧
      (blankCall.rendering {}).session.requested = [] := by decide +kernel
  refine ⟨rfl, Template.engine_onlyAsks, hview.1, hview.2, by decide +kernel, hclear,
    by decide +kernel, by decide +kernel, ?_⟩
  intro h
  have hq : Declaration.QualifierAt blankDecl.tokens 3 := by
    refine ⟨⟨.ident, "_", ⟨5, 9⟩, true, 0⟩, ⟨.op, ".", ⟨5, 10⟩, false, 0⟩, rfl, rfl, rfl, rfl, ?_⟩
    intro j v hj hv
    obtain rfl : j = 2 := by omega
    cases hv
    decide
  have hname := ((h.2 3 _ _ rfl rfl).1 "a" hq ⟨⟨"a", some "_", 3⟩, by decide, rfl, rfl⟩).2
  exact absurd hname (by decide +kernel)

end Gosmith.Generator
