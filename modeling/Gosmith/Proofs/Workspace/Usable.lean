import Gosmith.Proofs.Generator.PackageName
import Gosmith.Workspace.Basic

namespace Gosmith.Settings

open Gosmith.Go

theorem bind_eq_ok {α β ε : Type} {x : Except ε α} {f : α → Except ε β} {r : β} :
    x >>= f = .ok r ↔ ∃ a, x = .ok a ∧ f a = .ok r := by
  cases x with
  | error e => simp [bind, Except.bind]
  | ok a => simp [bind, Except.bind]

def part (data : Value) (name : String) : Value :=
  (data.get? name).getD (.mapping [])

theorem section?_iff {data v : Value} {name : String} :
    Settings.section? data name = .ok v ↔ v = part data name ∧ ∃ entries, v = .mapping entries := by
  cases hget : data.get? name with
  | none =>
      simp only [section?, part, hget, Except.ok.injEq, Option.getD_none]
      constructor
      · rintro rfl
        exact ⟨rfl, _, rfl⟩
      · rintro ⟨rfl, -⟩
        rfl
  | some u =>
      cases u with
      | mapping entries =>
          simp only [section?, part, hget, Except.ok.injEq, Option.getD_some]
          constructor
          · rintro rfl
            exact ⟨rfl, _, rfl⟩
          · rintro ⟨rfl, -⟩
            rfl
      | _ =>
          simp only [section?, part, hget, Option.getD_some, reduceCtorEq, false_iff]
          rintro ⟨rfl, entries, hentries⟩
          simp at hentries

theorem flag_iff {data v : Value} {option : String} {default : Bool} :
    flag data option default = .ok v ↔
      v = (data.get? option).getD (.bool default) ∧ ∃ b, v = .bool b := by
  unfold flag
  generalize (data.get? option).getD (.bool default) = u
  cases u with
  | bool b =>
      simp only [Except.ok.injEq]
      constructor
      · rintro rfl
        exact ⟨rfl, b, rfl⟩
      · rintro ⟨rfl, -⟩
        rfl
  | _ =>
      simp only [reduceCtorEq, false_iff]
      rintro ⟨rfl, b, hb⟩
      simp at hb

def IsFlag (data : Value) (option : String) : Prop :=
  ∀ v, data.get? option = some v → ∃ b, v = .bool b

theorem flag_isOk {data : Value} {option : String} {default : Bool} :
    (∃ v, flag data option default = .ok v) ↔ IsFlag data option := by
  simp only [flag_iff, IsFlag, exists_eq_left]
  cases data.get? option with
  | none => simp
  | some u => simp

def flagOptions : List (String × String) :=
  [("generation", "blank_lines_between_decls"), ("generation", "sort_by_kind"),
    ("generation", "group_methods"), ("template", "trim_blocks"), ("template", "lstrip_blocks"),
    ("template", "keep_trailing_newline"), ("logging", "enable_file_logging")]

def packageOption (env : Overrides) (data : Value) : Value :=
  override env.packageName (((part data "generation").get? "package_name").getD (.text "gen"))

def levelOption (env : Overrides) (data : Value) : Value :=
  override env.level (((part data "logging").get? "level").getD (.text "INFO"))

def fileOption (data : Value) : Value :=
  ((part data "logging").get? "log_file").getD (.text "idlgen.log")

structure Fits (env : Overrides) (data : Value) : Prop where
  parts : ∀ name ∈ ["generation", "template", "logging"],
    ∃ entries, part data name = .mapping entries
  flags : ∀ o ∈ flagOptions, IsFlag (part data o.1) o.2
  package : ∃ name, packageOption env data = .text name ∧ isIdentifier name = true ∧
    name ≠ blankName

variable {env : Overrides} {data : Value}

theorem readGeneration_eq_ok {p : Generator.Policy} : readGeneration env data = .ok p ↔
    (∃ entries, part data "generation" = .mapping entries) ∧
    flag (part data "generation") "blank_lines_between_decls" true = .ok p.blankLines ∧
    flag (part data "generation") "sort_by_kind" false = .ok p.sortByKind ∧
    flag (part data "generation") "group_methods" false = .ok p.groupMethods ∧
    p.packageName = packageOption env data ∧ p.validate = .ok () := by
  unfold readGeneration
  simp only [bind_eq_ok, section?_iff]
  constructor
  · rintro ⟨d, ⟨rfl, hd⟩, b, hb, s, hs, m, hm, h⟩
    split at h
    · rename_i hvalid
      cases h
      exact ⟨hd, hb, hs, hm, rfl, hvalid⟩
    · simp [throw, throwThe, MonadExceptOf.throw] at h
  · rintro ⟨hd, hb, hs, hm, hp, hvalid⟩
    refine ⟨_, ⟨rfl, hd⟩, _, hb, _, hs, _, hm, ?_⟩
    have hpolicy : { p with packageName := packageOption env data } = p := by rw [← hp]
    rw [← hpolicy] at hvalid
    simp only [packageOption] at hvalid
    simp only [hvalid]
    rw [← hpolicy]
    rfl

theorem readTemplate_eq_ok {t : TemplateSettings} : readTemplate data = .ok t ↔
    (∃ entries, part data "template" = .mapping entries) ∧
    flag (part data "template") "trim_blocks" true = .ok t.trimBlocks ∧
    flag (part data "template") "lstrip_blocks" true = .ok t.lstripBlocks ∧
    flag (part data "template") "keep_trailing_newline" true = .ok t.keepTrailingNewline := by
  unfold readTemplate
  simp only [bind_eq_ok, section?_iff]
  constructor
  · rintro ⟨d, ⟨rfl, hd⟩, a, ha, b, hb, c, hc, h⟩
    cases h
    exact ⟨hd, ha, hb, hc⟩
  · rintro ⟨hd, ha, hb, hc⟩
    exact ⟨_, ⟨rfl, hd⟩, _, ha, _, hb, _, hc, rfl⟩

theorem readLogging_eq_ok {l : LoggingSettings} : readLogging env data = .ok l ↔
    (∃ entries, part data "logging" = .mapping entries) ∧
    flag (part data "logging") "enable_file_logging" false = .ok l.toFile ∧
    l.level = levelOption env data ∧
    l.file = fileOption data := by
  unfold readLogging
  simp only [bind_eq_ok, section?_iff]
  constructor
  · rintro ⟨d, ⟨rfl, hd⟩, a, ha, h⟩
    cases h
    exact ⟨hd, ha, rfl, rfl⟩
  · rintro ⟨hd, ha, hlevel, hfile⟩
    refine ⟨_, ⟨rfl, hd⟩, _, ha, ?_⟩
    obtain ⟨level, toFile, file⟩ := l
    cases hlevel
    cases hfile
    rfl

theorem ofData_eq_ok {file : String} {s : Settings} : ofData file env data = .ok s ↔
    s.file = file ∧ readGeneration env data = .ok s.generation ∧
      readTemplate data = .ok s.template ∧ readLogging env data = .ok s.logging := by
  unfold ofData
  simp only [bind_eq_ok]
  constructor
  · rintro ⟨g, hg, t, ht, l, hl, h⟩
    cases h
    exact ⟨rfl, hg, ht, hl⟩
  · rintro ⟨rfl, hg, ht, hl⟩
    exact ⟨_, hg, _, ht, _, hl, rfl⟩

theorem ofData_isOk (file : String) : (∃ s, ofData file env data = .ok s) ↔ Fits env data := by
  constructor
  · rintro ⟨s, hs⟩
    obtain ⟨-, hg, ht, hl⟩ := ofData_eq_ok.1 hs
    obtain ⟨hgen, hblank, hsort, hgroup, hpackage, hvalid⟩ := readGeneration_eq_ok.1 hg
    obtain ⟨htmpl, htrim, hstrip, hkeep⟩ := readTemplate_eq_ok.1 ht
    obtain ⟨hlog, hfile, -, -⟩ := readLogging_eq_ok.1 hl
    refine ⟨by simpa using ⟨hgen, htmpl, hlog⟩, ?_, ?_⟩
    · simpa [flagOptions] using ⟨flag_isOk.1 ⟨_, hblank⟩, flag_isOk.1 ⟨_, hsort⟩,
        flag_isOk.1 ⟨_, hgroup⟩, flag_isOk.1 ⟨_, htrim⟩, flag_isOk.1 ⟨_, hstrip⟩,
        flag_isOk.1 ⟨_, hkeep⟩, flag_isOk.1 ⟨_, hfile⟩⟩
    · rw [← hpackage]
      exact Generator.validate_iff.1 hvalid
  · rintro ⟨hparts, hflags, hpackage⟩
    have hflag : ∀ name option default, (name, option) ∈ flagOptions →
        ∃ v, flag (part data name) option default = .ok v :=
      fun name option default hmem => flag_isOk.2 (hflags (name, option) hmem)
    obtain ⟨blankLines, hblank⟩ := hflag "generation" "blank_lines_between_decls" true (by decide)
    obtain ⟨sortByKind, hsort⟩ := hflag "generation" "sort_by_kind" false (by decide)
    obtain ⟨groupMethods, hgroup⟩ := hflag "generation" "group_methods" false (by decide)
    obtain ⟨trimBlocks, htrim⟩ := hflag "template" "trim_blocks" true (by decide)
    obtain ⟨lstripBlocks, hstrip⟩ := hflag "template" "lstrip_blocks" true (by decide)
    obtain ⟨keep, hkeep⟩ := hflag "template" "keep_trailing_newline" true (by decide)
    obtain ⟨toFile, hfile⟩ := hflag "logging" "enable_file_logging" false (by decide)
    have hvalid : Generator.Policy.validate
        ⟨packageOption env data, blankLines, sortByKind, groupMethods⟩ = .ok () :=
      Generator.validate_iff.2 hpackage
    refine ⟨⟨file, ⟨packageOption env data, blankLines, sortByKind, groupMethods⟩,
      ⟨trimBlocks, lstripBlocks, keep⟩, ⟨levelOption env data, toFile, fileOption data⟩⟩,
      ofData_eq_ok.2 ⟨rfl, ?_, ?_, ?_⟩⟩
    · exact readGeneration_eq_ok.2
        ⟨hparts "generation" (by simp), hblank, hsort, hgroup, rfl, hvalid⟩
    · exact readTemplate_eq_ok.2 ⟨hparts "template" (by simp), htrim, hstrip, hkeep⟩
    · exact readLogging_eq_ok.2 ⟨hparts "logging" (by simp), hfile, rfl, rfl⟩

end Gosmith.Settings

namespace Gosmith.Workspace

open Gosmith.Go Gosmith.Journal Gosmith.Text

variable {w w' : Workspace}

theorem env_appendTo (w : Workspace) (path text : String) : (w.appendTo path text).env = w.env := by
  unfold appendTo
  split
  · rfl
  · rfl

theorem env_record (w : Workspace) (r : Record) : (w.record r).env = w.env := by
  have hfiles : ∀ (paths : List String) (v : Workspace), v.env = w.env →
      (paths.foldl (fun v path => v.appendTo path (Log.recordText r ++ "\n")) v).env = w.env := by
    intro paths
    induction paths with
    | nil => exact fun v henv => henv
    | cons path paths ih => exact fun v henv => ih _ ((v.env_appendTo _ _).trans henv)
  unfold record
  apply hfiles
  split
  · rfl
  · rfl

theorem env_report (w : Workspace) (events : List Event) : (w.report events).env = w.env := by
  unfold report
  induction events generalizing w with
  | nil => rfl
  | cons e events ih => exact (ih (w.record e.record)).trans (w.env_record e.record)

theorem load_cases (w : Workspace) (file : Option String) :
    (∃ data s w', (w.settingsData (w.settingsFile file)).1 = .ok data ∧
      Settings.ofData (w.settingsFile file) w.overrides data = .ok s ∧
      w.load file = (.ok s, w') ∧ w'.env = w.env ∧
      ∃ i, w'.current = some i ∧ w'.settings[i]? = some s) ∨
    ((∀ data, (w.settingsData (w.settingsFile file)).1 = .ok data →
        ∀ s, Settings.ofData (w.settingsFile file) w.overrides data ≠ .ok s) ∧
      ∃ cause w', w.load file = (.error (.settings cause), w')) := by
  rcases hdata : w.settingsData (w.settingsFile file) with ⟨data, events⟩
  have henv := w.env_report events
  have hoverrides : (w.report events).overrides = w.overrides := by
    simp only [overrides, env?, henv]
  cases hread : data.bind (Settings.ofData (w.settingsFile file) w.overrides) with
  | error cause =>
      refine .inr ⟨?_, cause, w.report events, ?_⟩
      · rintro d rfl s hs
        simp [Except.bind, hs] at hread
      · -- the equation of `makeSettings` would be proved by reading the file symbolically
        delta load makeSettings
        simp only [hdata, hoverrides, hread]
  | ok s =>
      cases data with
      | error f => simp [Except.bind] at hread
      | ok d =>
          refine .inl ⟨d, s, { w.report events with
            settings := (w.report events).settings ++ [s]
            current := some (w.report events).settings.length }, rfl, hread, ?_, henv, _, rfl,
            List.getElem?_concat_length⟩
          delta load makeSettings
          simp only [hdata, hoverrides, hread, List.getElem?_concat_length, Option.elim_some]

def namesLevel : Value → Bool
  | .null => true
  | .text name => upper name != "BASIC_FORMAT" && upper name != "_STYLES"
  | _ => false

theorem named_cases (name : String) :
    (upper name = "BASIC_FORMAT" ∧ Level.named name = .pattern) ∨
    (upper name = "_STYLES" ∧ Level.named name = .styles) ∨
    (upper name ≠ "BASIC_FORMAT" ∧ upper name ≠ "_STYLES" ∧ ∃ n, Level.named name = .level n) := by
  unfold Level.named
  split <;> simp_all

theorem ofName_isOk (name : String) : (∃ n, Level.ofName name = .ok n) ↔
    upper name ≠ "BASIC_FORMAT" ∧ upper name ≠ "_STYLES" := by
  rcases named_cases name with ⟨hname, hnamed⟩ | ⟨hname, hnamed⟩ | ⟨hpattern, hstyles, n, hnamed⟩
  · simp [Level.ofName, hnamed, hname]
  · simp [Level.ofName, hnamed, hname]
  · simp [Level.ofName, hnamed, hpattern, hstyles]

theorem mapError_isOk {α ε δ : Type} {f : ε → δ} {x : Except ε α} :
    (∃ a, x.mapError f = .ok a) ↔ ∃ a, x = .ok a := by
  cases x with
  | error e => simp [Except.mapError]
  | ok a => simp [Except.mapError]

theorem env_of_override_null {env : Option String} {v : Value}
    (h : Settings.override env v = .null) : env = none ∨ env = some "" := by
  unfold Settings.override at h
  split at h
  · exact .inl rfl
  · split at h
    · rename_i s hs
      exact .inr (by simpa using hs)
    · simp at h

theorem levelOf_isOk (w : Workspace) (v : Value) :
    (∃ n, w.levelOf (Settings.override w.overrides.level v) = .ok n) ↔
      namesLevel (Settings.override w.overrides.level v) = true := by
  cases hlevel : Settings.override w.overrides.level v with
  | null =>
      have hname : upper ((w.env? "IDLGEN_LOG_LEVEL").getD "INFO") ≠ "BASIC_FORMAT" ∧
          upper ((w.env? "IDLGEN_LOG_LEVEL").getD "INFO") ≠ "_STYLES" := by
        have henv : w.env? "IDLGEN_LOG_LEVEL" = none ∨ w.env? "IDLGEN_LOG_LEVEL" = some "" :=
          env_of_override_null hlevel
        rcases henv with henv | henv
        · rw [henv]
          decide +kernel
        · rw [henv]
          decide +kernel
      simpa [levelOf, namesLevel, mapError_isOk] using (ofName_isOk _).2 hname
  | text name => simp [levelOf, mapError_isOk, ofName_isOk, namesLevel]
  | _ => simp [levelOf, namesLevel]

theorem levelOf_error {v : Value} {f : Fault} (h : w.levelOf v = .error f) :
    ∀ cause, f ≠ .settings cause := by
  rintro cause rfl
  cases v with
  | text name => cases hn : Level.ofName name <;> simp [levelOf, hn, Except.mapError] at h
  | null =>
      cases hn : Level.ofName ((w.env? "IDLGEN_LOG_LEVEL").getD "INFO") <;>
        simp [levelOf, hn, Except.mapError] at h
  | _ => simp [levelOf] at h

theorem create_of_current {i : Nat} {s : Settings} (hcurrent : w.current = some i)
    (hs : w.settings[i]? = some s) : w.create true = w.startGenerator i s := by
  simp only [create, hcurrent, hs]

theorem setupLog_of_level {level : Value} {n : Int} (h : w.levelOf level = .ok n) :
    w.setupLog level .null = (.ok (), { w with log := Log.configured n none }) := by
  simp only [setupLog, h]
  rfl

theorem startGenerator_of_level {i : Nat} {s : Settings} {level : Int}
    (hoff : Generator.Policy.isOn s.logging.toFile = false)
    (hvalid : s.generation.validate = .ok ()) (h : w.levelOf s.logging.level = .ok level) :
    w.startGenerator i s = (.ok (), { w with
      log := Log.configured level none
      generator := some
        ({ policy := s.generation, options := s.template.options, engine := w.engine }, i) }) := by
  simp only [startGenerator, hoff, Bool.false_eq_true, if_false, setupLog_of_level h,
    Generator.new, hvalid]
  rfl

theorem startGenerator_of_fault {i : Nat} {s : Settings} {f : Fault}
    (h : w.levelOf s.logging.level = .error f) : w.startGenerator i s = (.error f, w) := by
  simp only [startGenerator, setupLog, h]

theorem loaded_settings_usable_iff (w : Workspace) (file : Option String) :
    ((∃ s w', w.load file = (.ok s, w')) ↔ ∃ data,
      (w.settingsData (w.settingsFile file)).1 = .ok data ∧ Settings.Fits w.overrides data) ∧
    (∀ f w', w.load file = (.error f, w') → ∃ cause, f = .settings cause) ∧
    ∀ s w', w.load file = (.ok s, w') → Generator.Policy.isOn s.logging.toFile = false →
      ((∃ w'' g text, w'.create true = (.ok (), w'') ∧ w''.generator? = some g ∧
        g.render = .ok text) ↔ namesLevel s.logging.level = true) ∧
      (namesLevel s.logging.level = false → ∃ f, w'.create true = (.error f, w') ∧
        ∀ cause, f ≠ .settings cause) := by
  rcases w.load_cases file with ⟨data, s, w', hdata, hread, hload, henv, i, hcurrent, hs⟩ |
    ⟨hnone, cause, w', hload⟩
  · have hfits := (Settings.ofData_isOk _).1 ⟨s, hread⟩
    refine ⟨iff_of_true ⟨s, w', hload⟩ ⟨data, hdata, hfits⟩, by simp [hload], ?_⟩
    intro s' v hv hoff
    obtain ⟨rfl, rfl⟩ : s = s' ∧ w' = v := by simpa [hload] using hv
    obtain ⟨-, hgen, -, hlog⟩ := Settings.ofData_eq_ok.1 hread
    obtain ⟨-, -, -, -, -, hvalid⟩ := Settings.readGeneration_eq_ok.1 hgen
    obtain ⟨-, -, hlevel, -⟩ := Settings.readLogging_eq_ok.1 hlog
    have hoverrides : w'.overrides = w.overrides := by simp only [overrides, env?, henv]
    have hnames : (∃ n, w'.levelOf s.logging.level = .ok n) ↔
        namesLevel s.logging.level = true := by
      rw [hlevel, Settings.levelOption, ← hoverrides]
      exact w'.levelOf_isOk _
    rw [create_of_current hcurrent hs, ← Bool.not_eq_true, ← hnames]
    cases hn : w'.levelOf s.logging.level with
    | ok n =>
        obtain ⟨name, hname, hident, hblank⟩ := Generator.validate_iff.1 hvalid
        have hrender := @Generator.render_new s.generation s.template.options w'.engine name hname
          (Document.isPackageName_iff.2 ⟨hident, hblank⟩)
        have hmade := startGenerator_of_level (i := i) hoff hvalid hn
        refine ⟨iff_of_true ⟨_, _, _, hmade, ?_, hrender⟩ ⟨n, rfl⟩, by simp⟩
        simp [generator?, hs]
    | error f =>
        rw [startGenerator_of_fault hn]
        exact ⟨by simp, fun _ => ⟨f, rfl, levelOf_error hn⟩⟩
  · refine ⟨iff_of_false (by simp [hload]) ?_, ?_, by simp [hload]⟩
    · rintro ⟨data, hdata, hfits⟩
      obtain ⟨s, hs⟩ := (Settings.ofData_isOk (w.settingsFile file)).2 hfits
      exact hnone data hdata s hs
    · intro f v hv
      rw [hload] at hv
      cases hv
      exact ⟨cause, rfl⟩

def environmentLevel : Workspace where
  files := [(["c.json"], braced ("\"generation\": " ++ braced "\"package_name\": \"models\"" ++
    ", \"logging\": " ++ braced "\"level\": [5]"))]
  env := [("IDLGEN_LOG_LEVEL", "debug")]

theorem loaded_settings_usable_environment : ∃ s w' w'' g text,
    environmentLevel.load (some "c.json") = (.ok s, w') ∧
    Generator.Policy.isOn s.logging.toFile = false ∧ namesLevel s.logging.level = true ∧
    w'.create true = (.ok (), w'') ∧ w''.generator? = some g ∧ g.render = .ok text := by
  have hview : (environmentLevel.load (some "c.json")).1.toOption.map
      (fun s => (Generator.Policy.isOn s.logging.toFile, namesLevel s.logging.level)) =
        some (false, true) := by decide +kernel
  rcases hload : environmentLevel.load (some "c.json") with ⟨r, w'⟩
  rw [hload] at hview
  cases r with
  | error f => simp [Except.toOption] at hview
  | ok s =>
      obtain ⟨hoff, hnames⟩ : Generator.Policy.isOn s.logging.toFile = false ∧
          namesLevel s.logging.level = true := by simpa [Except.toOption] using hview
      obtain ⟨w'', g, text, hcreate, hg, hrender⟩ :=
        ((loaded_settings_usable_iff environmentLevel (some "c.json")).2.2 s w' hload hoff).1.2 hnames
      exact ⟨s, w', w'', g, text, rfl, hoff, hnames, hcreate, hg, hrender⟩

def numberLevel : Workspace where
  files := [(["c.json"], braced ("\"logging\": " ++ braced "\"level\": 5"))]

def formatLevel : Workspace where
  env := [("IDLGEN_LOG_LEVEL", "basic_format")]

theorem loaded_level_refused :
    (numberLevel.load (some "c.json")).1.toOption.map
      (fun s => Generator.Policy.isOn s.logging.toFile) = some false ∧
    ((numberLevel.load (some "c.json")).2.create true).1.mapError Fault.message =
      .error "'int' object has no attribute 'upper'" ∧
    (formatLevel.load none).1.toOption.map
      (fun s => Generator.Policy.isOn s.logging.toFile) = some false ∧
    ((formatLevel.load none).2.create true).1.mapError Fault.message =
      .error "Unknown level: '%(levelname)s:%(name)s:%(message)s'" := by
  decide +kernel

end Gosmith.Workspace
