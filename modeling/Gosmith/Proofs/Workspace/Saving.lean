import Gosmith.Proofs.Settings.Json
import Gosmith.Proofs.Workspace.Places
import Gosmith.Proofs.Workspace.Usable

namespace Gosmith.Settings

def flags (s : Settings) : List Value :=
  [s.generation.blankLines, s.generation.sortByKind, s.generation.groupMethods,
    s.template.trimBlocks, s.template.lstripBlocks, s.template.keepTrailingNewline,
    s.logging.toFile]

def texts (s : Settings) : List Value :=
  [s.logging.level, s.logging.file]

structure Regular (s : Settings) : Prop where
  package : s.generation.validate = .ok ()
  flags : ∀ v ∈ flags s, ∃ b, v = .bool b
  texts : ∀ v ∈ texts s, ∃ text, v = .text text

theorem toValue_eq (s : Settings) : s.toValue = .mapping (Json.pairs
    [("version", .text "1.0"),
      ("generation", .mapping (Json.pairs
        [("package_name", s.generation.packageName),
          ("blank_lines_between_decls", s.generation.blankLines),
          ("sort_by_kind", s.generation.sortByKind),
          ("group_methods", s.generation.groupMethods)])),
      ("template", .mapping (Json.pairs
        [("trim_blocks", s.template.trimBlocks),
          ("lstrip_blocks", s.template.lstripBlocks),
          ("keep_trailing_newline", s.template.keepTrailingNewline)])),
      ("logging", .mapping (Json.pairs
        [("level", s.logging.level),
          ("enable_file_logging", s.logging.toFile),
          ("log_file", s.logging.file)]))]) := rfl

theorem plain_toValue {s : Settings} (h : Regular s) : Json.Plain s.toValue := by
  have hpackage : Json.Plain s.generation.packageName := by
    obtain ⟨name, hname, -⟩ := Generator.validate_iff.1 h.package
    exact hname ▸ .text name
  have hflags : ∀ v ∈ flags s, Json.Plain v := by
    intro v hv
    obtain ⟨b, rfl⟩ := h.flags v hv
    exact .bool b
  have htexts : ∀ v ∈ texts s, Json.Plain v := by
    intro v hv
    obtain ⟨text, rfl⟩ := h.texts v hv
    exact .text text
  simp only [flags, texts, List.forall_mem_cons] at hflags htexts
  obtain ⟨hblank, hsort, hgroup, htrim, hstrip, hkeep, htoFile, -⟩ := hflags
  obtain ⟨hlevel, hfile, -⟩ := htexts
  rw [toValue_eq]
  refine .mapping (by simp) ?_
  simp only [List.forall_mem_cons]
  refine ⟨.text _, .mapping (by simp) ?_, .mapping (by simp) ?_, .mapping (by simp) ?_, by simp⟩
  · simp [hpackage, hblank, hsort, hgroup]
  · simp [htrim, hstrip, hkeep]
  · simp [hlevel, htoFile, hfile]

theorem ofData_toValue {s : Settings} (h : Regular s) : ofData s.file {} s.toValue = .ok s := by
  have hflags := h.flags
  simp only [flags, List.forall_mem_cons] at hflags
  obtain ⟨hblank, hsort, hgroup, htrim, hstrip, hkeep, htoFile, -⟩ := hflags
  rw [toValue_eq]
  refine ofData_eq_ok.2 ⟨rfl, readGeneration_eq_ok.2 ?_, readTemplate_eq_ok.2 ?_,
    readLogging_eq_ok.2 ?_⟩
  · simp [part, Value.get?, Value.lookup, Json.sameKey_text, flag_iff, packageOption, override,
      hblank, hsort, hgroup, h.package]
  · simp [part, Value.get?, Value.lookup, Json.sameKey_text, flag_iff, htrim, hstrip, hkeep]
  · simp [part, Value.get?, Value.lookup, Json.sameKey_text, flag_iff, levelOption, fileOption,
      override, htoFile]

theorem ofData_empty (file : String) : ofData file {} (.mapping []) = .ok { file := file } := by
  refine ofData_eq_ok.2 ⟨rfl, readGeneration_eq_ok.2 ?_, rfl, rfl⟩
  have hvalid : Generator.Policy.validate {} = .ok () :=
    Generator.validate_iff.2 ⟨"gen", rfl, by decide +kernel, by decide⟩
  exact ⟨⟨[], rfl⟩, rfl, rfl, rfl, rfl, hvalid⟩

theorem isYaml_eq_false {file : String}
    (h : ∀ ending ∈ [".yaml", ".yml"], ¬ ending.toList <:+ file.toList.map Char.toLower) :
    parseText?.isYaml file = false := by
  refine Bool.eq_false_iff.2 fun hyaml => ?_
  simp only [parseText?.isYaml, Bool.and_eq_true, decide_eq_true_eq, List.reverse_reverse,
    List.length_reverse] at hyaml
  obtain ⟨hstem, hending⟩ := hyaml
  generalize hname : file.toList.reverse.takeWhile (· != '/') = name at hstem hending
  generalize hlast : name.takeWhile (· != '.') = last at hstem hending
  -- the name goes on with a dot before its ending
  obtain ⟨stem, hdot⟩ : ∃ stem, name = last ++ '.' :: stem := by
    have hsplit := name.takeWhile_append_dropWhile (p := (· != '.'))
    rw [hlast] at hsplit
    cases hrest : name.dropWhile (· != '.') with
    | nil =>
        rw [hrest, List.append_nil] at hsplit
        rw [hsplit] at hstem
        omega
    | cons c stem =>
        have hc : c = '.' := by
          have hhead := List.head?_dropWhile_not (· != '.') name
          simpa [hrest] using hhead
        exact ⟨stem, by rw [← hsplit, hrest, hc]⟩
  have hsuffix : '.' :: last.reverse <:+ file.toList := by
    have hpart : last ++ ['.'] <+: file.toList.reverse := by
      refine List.IsPrefix.trans ⟨stem, ?_⟩ (List.takeWhile_prefix (· != '/'))
      rw [hname, hdot, List.append_assoc, List.singleton_append]
    simpa using List.reverse_suffix.2 hpart
  have hlower := hsuffix.map Char.toLower
  rw [List.map_cons] at hlower
  simp only [List.contains_iff_mem, List.mem_cons, List.not_mem_nil, or_false, ← String.toList_inj,
    String.toList_ofList] at hending
  rcases hending with heq | heq
  · rw [heq] at hlower
    exact h ".yaml" (by simp) hlower
  · rw [heq] at hlower
    exact h ".yml" (by simp) hlower

end Gosmith.Settings

namespace Gosmith.Workspace

open Gosmith.Journal Gosmith.Text

variable {w w₁ : Workspace} {s : Settings}

theorem settingsFile_some (w : Workspace) {path : String} (hne : path ≠ "") :
    w.settingsFile (some path) = Path.normal path := by
  simp [settingsFile, isGiven, hne]

theorem settingsFile_again (w w₀ : Workspace) (file : Option String) :
    w.settingsFile (some (w₀.settingsFile file)) = w₀.settingsFile file := by
  have hnormal : ∃ path, w₀.settingsFile file = Path.normal path := by
    unfold settingsFile
    split
    · exact ⟨_, rfl⟩
    · unfold defaultFile
      dsimp only
      split
      · exact ⟨_, rfl⟩
      · exact ⟨_, rfl⟩
  obtain ⟨path, hpath⟩ := hnormal
  rw [hpath, settingsFile_some w (Path.normal_ne_empty path), Path.normal_normal]

def added (w : Workspace) (r : Record) (p : Place) : String :=
  String.join (((w.log.filesFor r).filter (w.LeadsTo p)).map fun _ => Log.recordText r ++ "\n")

theorem foldl_appendTo (paths : List String) (line : String) {p : Place} {text : String}
    (hdir : w.hasDir p = false) (h : w.fileAt? p = some text) :
    SameDirs w (paths.foldl (fun v path => v.appendTo path line) w) ∧
      (paths.foldl (fun v path => v.appendTo path line) w).fileAt? p =
        some (text ++ String.join ((paths.filter (w.LeadsTo p)).map fun _ => line)) := by
  induction paths generalizing w text with
  | nil => exact ⟨.refl w, by simpa using h⟩
  | cons path paths ih =>
      have hsame := w.sameDirs_appendTo path line
      have hleads : (w.appendTo path line).LeadsTo p = w.LeadsTo p :=
        funext fun other => by rw [LeadsTo, hsame.resolve, LeadsTo]
      obtain ⟨hdirs, hfile⟩ := ih (hsame.hasDir ▸ hdir) (fileAt?_appendTo hdir h path line)
      rw [List.foldl_cons]
      refine ⟨hsame.trans hdirs, hfile.trans ?_⟩
      rw [hleads, List.filter_cons]
      cases w.LeadsTo p path with
      | true => simp [String.append_assoc]
      | false => simp

theorem record_spec (r : Record) {p : Place} {text : String} (hdir : w.hasDir p = false)
    (h : w.fileAt? p = some text) :
    SameDirs w (w.record r) ∧ (w.record r).fileAt? p = some (text ++ w.added r p) := by
  unfold record
  split
  · have hlog : SameDirs w { w with records := w.records ++ [r] } := ⟨rfl, rfl⟩
    obtain ⟨hdirs, hfile⟩ := foldl_appendTo (w := { w with records := w.records ++ [r] })
      (w.log.filesFor r) (Log.recordText r ++ "\n") hdir h
    refine ⟨hlog.trans hdirs, hfile.trans ?_⟩
    have hleads : ({ w with records := w.records ++ [r] } : Workspace).LeadsTo p = w.LeadsTo p :=
      funext fun other => by rw [LeadsTo, hlog.resolve, LeadsTo]
    rw [added, hleads]
  · exact foldl_appendTo _ _ hdir h

theorem added_eq_empty {r : Record} {p : Place}
    (h : ∀ path ∈ w.log.filesFor r, w.resolve path ≠ .ok p) : w.added r p = "" := by
  have hnone : (w.log.filesFor r).filter (w.LeadsTo p) = [] := by
    refine List.filter_eq_nil_iff.2 fun path hpath hleads => ?_
    exact h path hpath (leadsTo_iff.1 hleads)
  rw [added, hnone]
  rfl

theorem added_eq_cons {r : Record} {p : Place}
    (h : ∃ path ∈ w.log.filesFor r, w.resolve path = .ok p) :
    ∃ more, (w.added r p).toList = '<' :: more := by
  obtain ⟨path, hmem, hleads⟩ := h
  have hkept : path ∈ (w.log.filesFor r).filter (w.LeadsTo p) :=
    List.mem_filter.2 ⟨hmem, leadsTo_iff.2 hleads⟩
  rw [added]
  cases hfiles : (w.log.filesFor r).filter (w.LeadsTo p) with
  | nil => simp [hfiles] at hkept
  | cons first rest =>
      rw [List.map_cons, String.join_cons, Log.recordText]
      simp only [String.toList_append]
      exact ⟨_, rfl⟩

section

variable {i : Nat} (huse : w.inUse = .ok (i, s))

include huse

theorem save_isOk : (∃ w₁, w.save = (.ok (), w₁)) ↔
    w.isDir s.file = false ∧ w.isDir (Path.parent s.file) = true := by
  rw [← opened_isOk]
  simp only [save, huse]
  cases w.opened s.file with
  | error f => simp
  | ok p => simp

variable (hsave : w.save = (.ok (), w₁))

include hsave

theorem exists_opened_of_save : ∃ p, w.opened s.file = .ok p ∧
    w₁ = (w.putAt p s.text).record (Event.settingsSaved s.file).record := by
  simp only [save, huse] at hsave
  split at hsave
  · simp at hsave
  · rename_i p hp
    exact ⟨p, hp, (Prod.ext_iff.1 hsave).2.symm⟩

theorem saved : ∃ p, w.resolve s.file = .ok p ∧ w₁.opened s.file = .ok p ∧
    w₁.fileAt? p = some (s.text ++ w.added (Event.settingsSaved s.file).record p) := by
  obtain ⟨p, hopened, rfl⟩ := exists_opened_of_save huse hsave
  obtain ⟨hresolve, hdir⟩ := opened_eq_ok.1 hopened
  have hput := sameDirs_putAt hopened s.text
  have hfile : (w.putAt p s.text).fileAt? p = some s.text := by simp [fileAt?_putAt]
  obtain ⟨hrecord, hadded⟩ :=
    record_spec (Event.settingsSaved s.file).record (hput.hasDir ▸ hdir) hfile
  have hleads : (w.putAt p s.text).LeadsTo p = w.LeadsTo p :=
    funext fun other => by rw [LeadsTo, hput.resolve, LeadsTo]
  refine ⟨p, hresolve, (hput.trans hrecord).opened.2 hopened, hadded.trans ?_⟩
  rw [added, hleads, added]
  rfl

theorem overrides_of_save : w₁.overrides = w.overrides := by
  obtain ⟨p, -, rfl⟩ := exists_opened_of_save huse hsave
  have henv : ((w.putAt p s.text).record (Event.settingsSaved s.file).record).env = w.env :=
    env_record _ _
  simp only [overrides, env?, henv]

end

theorem unifyNewlines_append {cs : List Char} (h : '\r' ∉ cs) (ds : List Char) :
    unifyNewlines (cs ++ ds) = cs ++ unifyNewlines ds := by
  induction cs with
  | nil => rfl
  | cons c cs ih =>
      obtain ⟨hc, hcs⟩ := not_or.1 (List.mem_cons.not.1 h)
      rw [List.cons_append, unifyNewlines, ih hcs, List.cons_append]
      · rintro rest rfl
        simp at hc
      · rintro rfl
        simp at hc

theorem parseText?_saved (hs : Settings.Regular s)
    (hname : Settings.parseText?.isYaml s.file = false) (r : Settings.Readers) (more : String) :
    Settings.parseText? r s.file (String.ofList (unifyNewlines (s.text ++ more).toList)) =
      if (Settings.Json.skip (unifyNewlines more.toList)).isEmpty then some s.toValue
        else none := by
  have hplain := Settings.plain_toValue hs
  rw [Settings.parseText?, hname, if_neg Bool.false_ne_true, Settings.text,
    String.toList_append, unifyNewlines_append (Settings.Json.return_notMem_render hplain 0),
    Settings.Json.parse?_render hplain]

theorem settingsData_saved (hs : Settings.Regular s)
    (hname : Settings.parseText?.isYaml s.file = false) {p : Place} {more : String}
    (hopened : w.opened s.file = .ok p) (hfile : w.fileAt? p = some (s.text ++ more)) :
    (w.settingsData s.file).1 = .ok
      (if (Settings.Json.skip (unifyNewlines more.toList)).isEmpty then s.toValue
        else .mapping []) := by
  simp only [settingsData, pathExists_of_fileAt? hopened hfile, Bool.not_true, Bool.false_eq_true,
    if_false, contents_of_fileAt? hopened hfile, parseText?_saved hs hname]
  cases (Settings.Json.skip (unifyNewlines more.toList)).isEmpty with
  | true => rfl
  | false => rfl

theorem load_of_settingsData {data : Value} {file : Option String} {path : String}
    (hpath : w.settingsFile file = path) (hdata : (w.settingsData path).1 = .ok data)
    (hread : Settings.ofData path w.overrides data = .ok s) :
    ∃ w', w.load file = (.ok s, w') := by
  subst hpath
  rcases w.load_cases file with ⟨data', s', w', hdata', hread', hload, -⟩ | ⟨hnone, -⟩
  · obtain rfl : data = data' := by simpa [hdata] using hdata'
    obtain rfl : s = s' := by simpa [hread] using hread'
    exact ⟨w', hload⟩
  · exact absurd hread (hnone data hdata s)

section

variable {i : Nat} {named : Option String} (huse : w.inUse = .ok (i, s)) (hs : s.Regular)
  (hname : Settings.parseText?.isYaml s.file = false) (henv : w.overrides = {})
  (hsave : w.save = (.ok (), w₁)) (hnamed : w₁.settingsFile named = s.file)

include huse hs hname henv hsave hnamed

theorem load_saved_apart (hother : ∀ path ∈ w.log.filesFor (Event.settingsSaved s.file).record,
    w.resolve path ≠ w.resolve s.file) : ∃ w₂, w₁.load named = (.ok s, w₂) := by
  obtain ⟨p, hresolve, hopened, hfile⟩ := saved huse hsave
  rw [hresolve] at hother
  have hdata : (w₁.settingsData s.file).1 = .ok s.toValue := by
    rw [settingsData_saved hs hname hopened hfile, added_eq_empty hother]
    rfl
  refine load_of_settingsData hnamed hdata ?_
  rw [overrides_of_save huse hsave, henv]
  exact Settings.ofData_toValue hs

theorem load_saved_shared (hsame : ∃ path ∈ w.log.filesFor (Event.settingsSaved s.file).record,
    w.resolve path = w.resolve s.file) : ∃ w₂, w₁.load named = (.ok { file := s.file }, w₂) := by
  obtain ⟨p, hresolve, hopened, hfile⟩ := saved huse hsave
  rw [hresolve] at hsame
  -- what follows the value is not blank, so the file cannot be read
  have hdata : (w₁.settingsData s.file).1 = .ok (.mapping []) := by
    obtain ⟨more, hmore⟩ := added_eq_cons hsame
    rw [settingsData_saved hs hname hopened hfile, hmore]
    rfl
  refine load_of_settingsData hnamed hdata ?_
  rw [overrides_of_save huse hsave, henv]
  exact Settings.ofData_empty s.file

end

theorem load_saved {i : Nat} (huse : w.inUse = .ok (i, s)) (hs : s.Regular) (w₀ : Workspace)
    (file : Option String) (hfile : s.file = w₀.settingsFile file)
    (hname : ∀ ending ∈ [".yaml", ".yml"], ¬ ending.toList <:+ s.file.toList.map Char.toLower)
    (henv : w.overrides = {}) :
    ((∃ w₁, w.save = (.ok (), w₁)) ↔
      w.isDir s.file = false ∧ w.isDir (Path.parent s.file) = true) ∧
    ∀ w₁, w.save = (.ok (), w₁) → w₁.settingsFile (some s.file) = s.file ∧
      ∀ named, w₁.settingsFile named = s.file →
        ((∀ path ∈ w.log.filesFor (Event.settingsSaved s.file).record,
            w.resolve path ≠ w.resolve s.file) →
          ∃ w₂, w₁.load named = (.ok s, w₂)) ∧
        ((∃ path ∈ w.log.filesFor (Event.settingsSaved s.file).record,
            w.resolve path = w.resolve s.file) →
          ∃ w₂, w₁.load named = (.ok { file := s.file }, w₂)) := by
  have hjson := Settings.isYaml_eq_false hname
  refine ⟨save_isOk huse, fun w₁ hsave => ⟨?_, fun named hnamed => ⟨?_, ?_⟩⟩⟩
  · rw [hfile]
    exact settingsFile_again w₁ w₀ file
  · exact load_saved_apart huse hs hjson henv hsave hnamed
  · exact load_saved_shared huse hs hjson henv hsave hnamed

def escapedNames : Settings where
  file := "/srv/../srv/c.json"
  generation := { packageName := .text "models", blankLines := .bool false }
  logging := { level := .text "", toFile := .bool true, file := .text "é😀\r\n\t\"\\/\x08" }

def openSettings : Workspace where
  cwd := ["home"]
  dirs := [["srv"]]
  settings := [escapedNames]
  current := some 0
  log := Log.configured Level.info (some "/home/idlgen.log")

theorem load_saved_escaped : ∃ w₁ w₂, openSettings.save = (.ok (), w₁) ∧
    w₁.load (some "/srv//.././srv/c.json") = (.ok escapedNames, w₂) := by
  have hs : escapedNames.Regular := by
    refine ⟨Generator.validate_iff.2 ⟨"models", rfl, by decide +kernel, by decide⟩, ?_, ?_⟩
    · simp [Settings.flags, escapedNames]
    · simp [Settings.texts, escapedNames]
  have hname : ∀ ending ∈ [".yaml", ".yml"],
      ¬ ending.toList <:+ escapedNames.file.toList.map Char.toLower := by decide +kernel
  obtain ⟨hsaves, hloads⟩ := load_saved (w := openSettings) (i := 0) (s := escapedNames) rfl hs
    openSettings (some "/srv/../srv/c.json") (by decide +kernel) hname rfl
  obtain ⟨w₁, hsave⟩ := hsaves.2 (by decide +kernel)
  have hnamed : w₁.settingsFile (some "/srv//.././srv/c.json") = escapedNames.file := by
    rw [settingsFile_some w₁ (by decide)]
    decide +kernel
  obtain ⟨w₂, hload⟩ := ((hloads w₁ hsave).2 _ hnamed).1 (by decide +kernel)
  exact ⟨w₁, w₂, hsave, hload⟩

def sharedFile : Settings where
  file := "c.json"
  generation := { packageName := .text "models" }
  logging := { toFile := .bool true, file := .text "c.json" }

def sharedLog : Workspace where
  cwd := ["home"]
  settings := [sharedFile]
  current := some 0
  log := Log.configured Level.info (some "/home/c.json")

theorem load_saved_shared_log : sharedFile.Regular ∧ sharedLog.inUse = .ok (0, sharedFile) ∧
    sharedLog.overrides = {} ∧ ∃ w₁ w₂ s, sharedLog.save = (.ok (), w₁) ∧
      w₁.load (some "c.json") = (.ok s, w₂) ∧ s.toValue ≠ sharedFile.toValue := by
  have hs : sharedFile.Regular := by
    refine ⟨Generator.validate_iff.2 ⟨"models", rfl, by decide +kernel, by decide⟩, ?_, ?_⟩
    · simp [Settings.flags, sharedFile]
    · simp [Settings.texts, sharedFile]
  have huse : sharedLog.inUse = .ok (0, sharedFile) := rfl
  obtain ⟨w₁, hsave⟩ := (save_isOk huse).2 (by decide +kernel)
  have hnamed : w₁.settingsFile (some "c.json") = sharedFile.file := by
    rw [settingsFile_some w₁ (by decide)]
    decide +kernel
  obtain ⟨w₂, hload⟩ :=
    load_saved_shared huse hs (by decide +kernel) rfl hsave hnamed (by decide +kernel)
  refine ⟨hs, huse, rfl, w₁, w₂, _, hsave, hload, ?_⟩
  simp [Settings.toValue, sharedFile]

end Gosmith.Workspace
