import Gosmith.Generator.Basic
import Gosmith.Proofs.Template.Requests

namespace Gosmith.Generator

open Gosmith.Go Gosmith.Imports Gosmith.Journal

def Uses (spec : ImportSpec) (name : String) : Prop :=
  spec.name ≠ some blankName ∧ localName spec = .ok name

structure Unambiguous (requested : List (String × String)) (specs : List ImportSpec) : Prop where
  written : ∀ i ∈ specs, ∀ j ∈ specs, ∀ name, Uses i name → Uses j name → i.path = j.path
  tracked : ∀ i ∈ specs, ∀ name path, Uses i name → (name, path) ∈ requested → path = i.path

theorem Unambiguous.mono {requested : List (String × String)} {specs specs' : List ImportSpec}
    (h : Unambiguous requested specs) (hsub : ∀ i ∈ specs', i ∈ specs) :
    Unambiguous requested specs' :=
  ⟨fun i hi j hj => h.written i (hsub i hi) j (hsub j hj), fun i hi => h.tracked i (hsub i hi)⟩

/-- The imports merged so far have names, and the replacements lead from the names that the snippet
uses to those. -/
structure Resolved (done : List ImportSpec) (m : Merge) : Prop where
  paths : ∀ name path, m.paths.lookup name = some path → ∃ i ∈ done, Uses i name ∧ i.path = path
  names : ∀ i ∈ done, ∀ name, Uses i name → ∃ new, m.imports.nameOf? i.path = some new ∧
    new ≠ blankName ∧ (m.renames.lookup name).getD name = new
  renames : ∀ name new, m.renames.lookup name = some new → ∃ i ∈ done, Uses i name

theorem resolved_start (imports : Table) : Resolved [] { imports := imports } :=
  ⟨by simp, by simp, by simp⟩

theorem Resolved.extend {done : List ImportSpec} {m m' : Merge} (h : Resolved done m)
    (himports : m.imports.Extends m'.imports) (hpaths : m'.paths = m.paths)
    (hrenames : m'.renames = m.renames) {spec : ImportSpec} (hspec : spec.name = some blankName) :
    Resolved (done ++ [spec]) m' := by
  have hold : ∀ i ∈ done ++ [spec], ∀ name, Uses i name → i ∈ done := by
    intro i hi name hu
    rcases List.mem_append.1 hi with hi | hi
    · exact hi
    · rw [List.mem_singleton.1 hi] at hu
      exact absurd hspec hu.1
  refine ⟨?_, ?_, ?_⟩
  · intro name path hl
    obtain ⟨i, hi, hu⟩ := h.paths name path (hpaths ▸ hl)
    exact ⟨i, List.mem_append_left _ hi, hu⟩
  · intro i hi name hu
    obtain ⟨new, hnew, hblank, hget⟩ := h.names i (hold i hi name hu) name hu
    exact ⟨new, himports.nameOf? hnew hblank, hblank, hrenames ▸ hget⟩
  · intro name new hl
    obtain ⟨i, hi, hu⟩ := h.renames name new (hrenames ▸ hl)
    exact ⟨i, List.mem_append_left _ hi, hu⟩

theorem mem_of_lookup {l : List (String × String)} {key value : String}
    (h : l.lookup key = some value) : (key, value) ∈ l := by
  obtain ⟨l₁, l₂, rfl, -⟩ := List.lookup_eq_some_iff.1 h
  simp

theorem note_imports (requested : List (String × String)) (m : Merge)
    (path name resolved : String) :
    (m.note requested path name resolved).imports = m.imports := by
  simp only [Merge.note]
  split
  · rfl
  · split
    · rfl
    · split <;> rfl

structure Notes (m m' : Merge) (path name resolved : String) : Prop where
  imports : m'.imports = m.imports
  paths : ∀ n q, m'.paths.lookup n = some q → m.paths.lookup n = some q ∨ n = name ∧ q = path
  others : ∀ n, n ≠ name → m'.renames.lookup n = m.renames.lookup n
  renamed : m'.renames.lookup name =
    if resolved = name then m.renames.lookup name else some resolved

theorem lookup_append_pair {l : List (String × String)} {n q name path : String}
    (h : (l ++ [(name, path)]).lookup n = some q) :
    l.lookup n = some q ∨ n = name ∧ q = path := by
  rw [List.lookup_append] at h
  cases hold : l.lookup n with
  | some r => exact .inl (by simpa [hold] using h)
  | none =>
      rw [hold, Option.none_or] at h
      have hpair := mem_of_lookup h
      simp only [List.mem_singleton, Prod.mk.injEq] at hpair
      exact .inr hpair

theorem note_notes {requested : List (String × String)} {m : Merge} {path name : String}
    (resolved : String) (hfirst : (m.paths.lookup name).getD path = path)
    (hrequested : (requested.lookup name).getD path = path) :
    Notes m (m.note requested path name resolved) path name resolved := by
  have hpaths : (m.note requested path name resolved).paths =
      if (m.paths.lookup name).isSome then m.paths else m.paths ++ [(name, path)] := by
    simp only [Merge.note, hfirst, ne_eq, not_true, if_false, hrequested]
    split <;> rfl
  have hrenames : (m.note requested path name resolved).renames =
      if resolved = name then m.renames else Assoc.set name resolved m.renames := by
    simp only [Merge.note, hfirst, ne_eq, not_true, if_false, hrequested]
    split <;> split <;> simp_all
  refine ⟨note_imports _ _ _ _ _, fun n q hl => ?_, fun n hn => ?_, ?_⟩
  · rw [hpaths] at hl
    split at hl
    · exact .inl hl
    · exact lookup_append_pair hl
  · rw [hrenames]
    split
    · rfl
    · rw [Assoc.lookup_set, if_neg hn]
  · rw [hrenames]
    split
    · rfl
    · rw [Assoc.lookup_set, if_pos rfl]

theorem Uses.unique {spec : ImportSpec} {name name' : String} (h : Uses spec name)
    (h' : Uses spec name') : name = name' := by
  have heq := h.2
  rw [h'.2, Except.ok.injEq] at heq
  exact heq.symm

theorem Uses.ne_dot {spec : ImportSpec} {name : String} (h : Uses spec name)
    (hdot : spec.name ≠ some dotName) : name ≠ dotName := by
  rintro rfl
  have hlocal := h.2
  unfold localName at hlocal
  split at hlocal
  · rename_i heq
    cases hlocal
    exact hdot heq
  · obtain ⟨c, cs, hlist, hc, -⟩ := isWordText_baseName (Table.defaultName_eq_ok.1 hlocal)
    have hchars : ['.'] = c :: cs := hlist
    simp only [List.cons.injEq] at hchars
    rw [← hchars.1] at hc
    exact absurd hc (by decide)

section Note

variable {requested : List (String × String)} {done : List ImportSpec} {m m' : Merge}
  {spec : ImportSpec} {resolved name : String}

theorem Resolved.name_eq (h : Resolved done m) (hext : m.imports.Extends m'.imports)
    (hname : m'.imports.nameOf? spec.path = some resolved)
    (hclear : Unambiguous requested (done ++ [spec])) (hu : Uses spec name) {i : ImportSpec}
    (hi : i ∈ done) (hui : Uses i name) : (m.renames.lookup name).getD name = resolved := by
  have hmem : spec ∈ done ++ [spec] := List.mem_append_right _ List.mem_cons_self
  have hpath := hclear.written i (List.mem_append_left _ hi) spec hmem name hui hu
  obtain ⟨new, hnew, hblank, hget⟩ := h.names i hi name hui
  have hkept := hext.nameOf? hnew hblank
  rw [hpath, hname, Option.some.injEq] at hkept
  rw [hget, hkept]

theorem Resolved.notes (h : Resolved done m) (hpaths : m'.paths = m.paths)
    (hu : Uses spec name) (hclear : Unambiguous requested (done ++ [spec])) (resolved : String) :
    Notes m' (m'.note requested spec.path name resolved) spec.path name resolved := by
  have hmem : spec ∈ done ++ [spec] := List.mem_append_right _ List.mem_cons_self
  apply note_notes
  · cases hl : m'.paths.lookup name with
    | none => rfl
    | some path =>
        obtain ⟨i, hi, hui, rfl⟩ := h.paths name path (hpaths ▸ hl)
        exact hclear.written i (List.mem_append_left _ hi) spec hmem name hui hu
  · cases hl : requested.lookup name with
    | none => rfl
    | some path => exact hclear.tracked spec hmem name path hu (mem_of_lookup hl)

theorem Resolved.renamed (h : Resolved done m) (hext : m.imports.Extends m'.imports)
    (hname : m'.imports.nameOf? spec.path = some resolved) (hu : Uses spec name)
    (hclear : Unambiguous requested (done ++ [spec])) :
    (if resolved = name then m.renames.lookup name else some resolved).getD name = resolved := by
  split
  · rename_i hr
    cases hl : m.renames.lookup name with
    | none => exact hr.symm
    | some new =>
        obtain ⟨i, hi, hui⟩ := h.renames name new hl
        rw [← hl]
        exact h.name_eq hext hname hclear hu hi hui
  · rfl

theorem Resolved.note (h : Resolved done m) (hext : m.imports.Extends m'.imports)
    (hpaths : m'.paths = m.paths) (hrenames : m'.renames = m.renames)
    (hname : m'.imports.nameOf? spec.path = some resolved) (hblank : resolved ≠ blankName)
    (hu : Uses spec name) (hclear : Unambiguous requested (done ++ [spec])) :
    Resolved (done ++ [spec]) (m'.note requested spec.path name resolved) := by
  have hmem : spec ∈ done ++ [spec] := List.mem_append_right _ List.mem_cons_self
  have hnotes := h.notes hpaths hu hclear resolved
  refine ⟨?_, ?_, ?_⟩
  · intro n path hl
    rcases hnotes.paths n path hl with hold | ⟨rfl, rfl⟩
    · obtain ⟨i, hi, hui⟩ := h.paths n path (hpaths ▸ hold)
      exact ⟨i, List.mem_append_left _ hi, hui⟩
    · exact ⟨spec, hmem, hu, rfl⟩
  · intro i hi n hui
    rw [hnotes.imports]
    by_cases hn : n = name
    · subst hn
      have hpath := hclear.written i hi spec hmem n hui hu
      refine ⟨resolved, hpath ▸ hname, hblank, ?_⟩
      rw [hnotes.renamed, hrenames, h.renamed hext hname hu hclear]
    · have hdone : i ∈ done := by
        rcases List.mem_append.1 hi with hi | hi
        · exact hi
        · rw [List.mem_singleton.1 hi] at hui
          exact absurd (hui.unique hu) hn
      obtain ⟨new, hold, hb, hget⟩ := h.names i hdone n hui
      refine ⟨new, hext.nameOf? hold hb, hb, ?_⟩
      rw [hnotes.others n hn, hrenames, hget]
  · intro n new hl
    by_cases hn : n = name
    · exact ⟨spec, hmem, hn ▸ hu⟩
    · rw [hnotes.others n hn, hrenames] at hl
      obtain ⟨i, hi, hui⟩ := h.renames n new hl
      exact ⟨i, List.mem_append_left _ hi, hui⟩

end Note

theorem mergeImports_cases {requested : List (String × String)} {source : String} {m m' : Merge}
    {spec : ImportSpec} {rest : List ImportSpec}
    (h : mergeImports requested source m (spec :: rest) = (.ok (), m')) :
    spec.name ≠ some dotName ∧ ∃ resolved imports events m₁,
      m.imports.merge spec.path spec.name = .ok (resolved, imports, events) ∧
      m₁.imports = imports ∧ m₁.paths = m.paths ∧ m₁.renames = m.renames ∧
      ((spec.name = some blankName ∧ mergeImports requested source m₁ rest = (.ok (), m')) ∨
        ∃ name, Uses spec name ∧ mergeImports requested source
          (m₁.note requested spec.path name resolved) rest = (.ok (), m')) := by
  simp only [mergeImports] at h
  split at h
  · simp at h
  · rename_i hdot
    refine ⟨hdot, ?_⟩
    cases hm : m.imports.merge spec.path spec.name with
    | error f => simp [hm] at h
    | ok r =>
        obtain ⟨resolved, imports, events⟩ := r
        simp only [hm] at h
        refine ⟨resolved, imports, events,
          { m with imports := imports, events := m.events ++ events }, rfl, rfl, rfl, rfl, ?_⟩
        split at h
        · rename_i hblank
          exact .inl ⟨hblank, h⟩
        · rename_i hblank
          cases hl : localName spec with
          | error f => simp [hl] at h
          | ok name =>
              simp only [hl] at h
              exact .inr ⟨name, ⟨hblank, hl⟩, h⟩

section Run

variable {requested : List (String × String)} {source : String}

theorem mergeImports_extends {specs : List ImportSpec} {m m' : Merge}
    (h : mergeImports requested source m specs = (.ok (), m')) :
    m.imports.Extends m'.imports ∧ ∀ i ∈ specs, m'.imports.contains i.path = true := by
  induction specs generalizing m with
  | nil =>
      cases h
      exact ⟨.refl _, by simp⟩
  | cons spec rest ih =>
      obtain ⟨-, resolved, imports, events, m₁, hm, rfl, -, -, hrest⟩ := mergeImports_cases h
      have hreg := Table.merge_registers hm
      have hin := Table.contains_of_nameOf? hreg.nameOf?
      have hlater : m₁.imports.Extends m'.imports ∧
          ∀ i ∈ rest, m'.imports.contains i.path = true := by
        rcases hrest with ⟨-, hrest⟩ | ⟨name, -, hrest⟩
        · exact ih hrest
        · obtain ⟨hext, hall⟩ := ih hrest
          rw [note_imports] at hext
          exact ⟨hext, hall⟩
      refine ⟨hreg.extends.trans hlater.1, ?_⟩
      intro i hi
      rcases List.mem_cons.1 hi with rfl | hi
      · exact hlater.1.contains hin
      · exact hlater.2 i hi

def Spelled (specs : List ImportSpec) : Prop :=
  ∀ i ∈ specs, ∀ name ∈ i.name, name ≠ dotName → Token.isName name = true

theorem written_of_spelled {spec : ImportSpec} {rest : List ImportSpec}
    (h : Spelled (spec :: rest)) (hdot : spec.name ≠ some dotName) :
    ∀ name ∈ spec.name, name ≠ blankName → Token.isName name = true := by
  intro name hname _
  refine h spec List.mem_cons_self name hname ?_
  rintro rfl
  exact hdot hname

theorem mergeImports_sound {specs : List ImportSpec} {m m' : Merge}
    (h : mergeImports requested source m specs = (.ok (), m')) (hs : m.imports.Sound)
    (hspelled : Spelled specs) : m'.imports.Sound := by
  induction specs generalizing m with
  | nil =>
      cases h
      exact hs
  | cons spec rest ih =>
      obtain ⟨hdot, resolved, imports, events, m₁, hm, rfl, -, -, hrest⟩ := mergeImports_cases h
      have hsound := (Table.merge_registers hm).sound hs (written_of_spelled hspelled hdot)
      have hlater : Spelled rest := fun i hi => hspelled i (List.mem_cons_of_mem _ hi)
      rcases hrest with ⟨-, hrest⟩ | ⟨name, -, hrest⟩
      · exact ih hrest hsound hlater
      · exact ih hrest (by rwa [note_imports]) hlater

theorem mergeImports_no_dot {specs : List ImportSpec} {m m' : Merge}
    (h : mergeImports requested source m specs = (.ok (), m')) :
    ∀ i ∈ specs, i.name ≠ some dotName := by
  induction specs generalizing m with
  | nil => simp
  | cons spec rest ih =>
      obtain ⟨hdot, resolved, imports, events, m₁, -, -, -, -, hrest⟩ := mergeImports_cases h
      intro i hi
      rcases List.mem_cons.1 hi with rfl | hi
      · exact hdot
      · rcases hrest with ⟨-, hrest⟩ | ⟨name, -, hrest⟩
        · exact ih hrest i hi
        · exact ih hrest i hi

theorem mergeImports_resolved {specs done : List ImportSpec} {m m' : Merge}
    (h : mergeImports requested source m specs = (.ok (), m')) (hr : Resolved done m)
    (hclear : Unambiguous requested (done ++ specs))
    (hbase : ∀ i ∈ specs, ImportPath.baseName? i.path ≠ some blankName) :
    Resolved (done ++ specs) m' := by
  induction specs generalizing m done with
  | nil =>
      cases h
      rwa [List.append_nil]
  | cons spec rest ih =>
      obtain ⟨-, resolved, imports, events, m₁, hm, rfl, hpaths, hrenames, hrest⟩ :=
        mergeImports_cases h
      have hreg := Table.merge_registers hm
      have hnow : Unambiguous requested (done ++ [spec]) := by
        refine hclear.mono fun i hi => ?_
        rcases List.mem_append.1 hi with hi | hi
        · exact List.mem_append_left _ hi
        · rw [List.mem_singleton.1 hi]
          exact List.mem_append_right _ List.mem_cons_self
      have hlater := fun i hi => hbase i (List.mem_cons_of_mem _ hi)
      rw [← List.singleton_append, ← List.append_assoc] at hclear ⊢
      rcases hrest with ⟨hblank, hrest⟩ | ⟨name, hu, hrest⟩
      · exact ih hrest (hr.extend hreg.extends hpaths hrenames hblank) hclear hlater
      · have hne := hreg.name_ne_blank hu.1 fun _ => hbase spec List.mem_cons_self
        have hstep := hr.note hreg.extends hpaths hrenames hreg.nameOf? hne hu hnow
        exact ih hrest hstep hclear hlater

end Run

end Gosmith.Generator
