import Gosmith.Go.Document
import Gosmith.Proofs.Layout.Placement

namespace Gosmith.Go

open Gosmith.Text

theorem Declaration.format_of_balanced {d : Declaration} (h : Layout.balanced 0 d.tokens = true) :
    ∃ text, d.format = .ok text := by
  rw [← Layout.balanced_dropSemicolons] at h
  obtain ⟨placed, hplaced⟩ : ∃ placed, Layout.gaps {} (Layout.dropSemicolons d.tokens) = .ok placed :=
    Layout.gaps_of_balanced h
  exact ⟨_, by simp only [format, Layout.lines, hplaced, Except.map]; rfl⟩

namespace ImportPath

theorem forall_of_splitWhen {p : Char → Bool} {cs : List Char}
    (h : ∀ part ∈ splitWhen p cs, part = []) : ∀ c ∈ cs, p c = true := by
  induction cs with
  | nil => simp
  | cons a rest ih =>
      rw [splitWhen] at h
      split at h
      · rename_i ha
        exact List.forall_mem_cons.2 ⟨ha, ih (List.forall_mem_cons.1 h).2⟩
      · -- A character that is no cut stands in the first part.
        split at h
        · simp at h
        · simp at h

theorem splitWhen_of_forall {p : Char → Bool} {cs : List Char} (h : ∀ c ∈ cs, p c = true) :
    ∀ part ∈ splitWhen p cs, part = [] := by
  induction cs with
  | nil => simp [splitWhen]
  | cons c rest ih =>
      obtain ⟨hc, hrest⟩ := List.forall_mem_cons.1 h
      simpa [splitWhen, hc] using ih hrest

theorem segments_eq_nil_iff {path : String} :
    segments path = [] ↔ ∀ c ∈ path.toList, c = '/' := by
  have hparts : segments path = [] ↔ ∀ part ∈ splitWhen (· == '/') path.toList, part = [] := by
    simp [segments, List.filter_eq_nil_iff]
  rw [hparts]
  exact ⟨fun h c hc => by simpa using forall_of_splitWhen h c hc,
    fun h => splitWhen_of_forall (by simpa using h)⟩

theorem baseName?_eq_none_iff {path : String} :
    baseName? path = none ↔ ∀ c ∈ path.toList, c = '/' := by
  rw [← segments_eq_nil_iff, ← List.reverse_eq_nil_iff]
  unfold baseName?
  split <;> simp_all

theorem lastSegment_of_baseName? {path : String} (h : baseName? path = none) :
    lastSegment path = "" := by
  have hslashes : path.toList.reverse.dropWhile (· == '/') = [] := by
    rw [List.dropWhile_eq_nil_iff]
    intro c hc
    simpa using baseName?_eq_none_iff.1 h c (List.mem_reverse.1 hc)
  simp [lastSegment, hslashes]

end ImportPath

namespace Document

theorem importSpec_of_named {spec : ImportSpec} (h : ∀ name ∈ spec.name, name ≠ "") :
    ∃ line, importSpec spec = .ok line := by
  unfold importSpec
  cases hname : spec.name with
  | none => exact ⟨_, rfl⟩
  | some name =>
      have hne := h name hname
      by_cases hlast : name = ImportPath.lastSegment spec.path
      · cases hbase : ImportPath.baseName? spec.path with
        | none => exact absurd (hlast.trans (ImportPath.lastSegment_of_baseName? hbase)) hne
        | some base => exact ⟨_, by simp only [if_pos hlast]; rfl⟩
      · exact ⟨_, by simp only [if_neg hlast]; rfl⟩

theorem importLines_of_specs {specs : List ImportSpec}
    (h : ∀ spec ∈ specs, ∃ line, importSpec spec = .ok line) :
    ∃ lines, importLines specs = .ok lines := by
  induction specs with
  | nil => exact ⟨[], rfl⟩
  | cons spec rest ih =>
      obtain ⟨⟨line, hline⟩, hrest⟩ := List.forall_mem_cons.1 h
      obtain ⟨lines, hlines⟩ := ih hrest
      exact ⟨_, by simp only [importLines, hline, hlines]; rfl⟩

theorem declTexts_of_formats {ds : List Declaration}
    (h : ∀ d ∈ ds, ∃ text, d.format = .ok text) : ∃ texts, declTexts ds = .ok texts := by
  induction ds with
  | nil => exact ⟨[], rfl⟩
  | cons d rest ih =>
      obtain ⟨⟨text, htext⟩, hrest⟩ := List.forall_mem_cons.1 h
      obtain ⟨texts, htexts⟩ := ih hrest
      exact ⟨_, by simp only [declTexts, htext, htexts]; rfl⟩

theorem isPackageName_iff {name : String} :
    isPackageName name = true ↔ isIdentifier name = true ∧ name ≠ blankName := by
  simp [isPackageName]

variable {specs : List ImportSpec} {ds : List Declaration}

theorem blocks_of_formats (hspecs : ∀ spec ∈ specs, ∃ line, importSpec spec = .ok line)
    (hds : ∀ d ∈ ds, ∃ text, d.format = .ok text) (blankLines : Bool) :
    ∃ parts, blocks specs ds blankLines = .ok parts := by
  obtain ⟨lines, hlines⟩ := importLines_of_specs hspecs
  obtain ⟨texts, htexts⟩ := declTexts_of_formats hds
  cases hnone : specs.isEmpty with
  | true => exact ⟨_, by simp only [blocks, hnone, htexts]; rfl⟩
  | false => exact ⟨_, by simp only [blocks, hnone, importBlock, hlines, htexts]; rfl⟩

theorem render_of_formats (hspecs : ∀ spec ∈ specs, ∃ line, importSpec spec = .ok line)
    (hds : ∀ d ∈ ds, ∃ text, d.format = .ok text) (package : String) (blankLines : Bool) :
    (isPackageName package = true ∧ ∃ text, render package specs ds blankLines = .ok text) ∨
    (isPackageName package = false ∧
      render package specs ds blankLines = .error (.badPackage package)) := by
  obtain ⟨parts, hparts⟩ := blocks_of_formats hspecs hds blankLines
  cases hpackage : isPackageName package with
  | true => exact .inl ⟨rfl, _, by simp only [render, hpackage, hparts]; rfl⟩
  | false => exact .inr ⟨rfl, by simp [render, hpackage]⟩

end Document

end Gosmith.Go
