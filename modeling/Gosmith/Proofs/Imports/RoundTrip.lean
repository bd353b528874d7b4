import Gosmith.Proofs.Imports.Permanence
import Gosmith.Proofs.Layout.ImportBlock

namespace Gosmith.Imports

open Gosmith.Go

namespace Table

variable {t t' u : Table} {path name : String} {written : Option String} {origin : Origin}

theorem find?_of_mem (h : (t.bindings.map Binding.path).Nodup) {b : Binding}
    (hb : b ∈ t.bindings) : t.find? b.path = some b := by
  cases hfind : t.find? b.path with
  | none =>
      have hnone := List.find?_eq_none.1 hfind b hb
      simp at hnone
  | some c =>
      have hc := mem_of_find? hfind
      rw [List.inj_on_of_nodup_map h hc hb (path_of_find? hfind)]

theorem Registers.nameOf?_other (h : Registers t path written origin name t') {q : String}
    (hq : q ≠ path) : t'.nameOf? q = t.nameOf? q := by
  cases h with
  | kept _ _ => rfl
  | blank _ _ => rw [nameOf?_bind, if_neg hq.symm]
  | named _ _ _ => rw [reserve, nameOf?_bind, if_neg hq.symm]

theorem Registers.mem (h : Registers t path written origin name t') {b : Binding}
    (hb : b ∈ t'.bindings) : b ∈ t.bindings ∨ b.path = path := by
  cases h with
  | kept _ _ => exact .inl hb
  | blank _ _ =>
      rcases mem_put hb with rfl | hb
      · exact .inr rfl
      · exact .inl hb
  | named _ _ _ =>
      rcases mem_put hb with rfl | hb
      · exact .inr rfl
      · exact .inl hb

def mergeAll (t : Table) (specs : List ImportSpec) : Except Fault Table :=
  specs.foldlM (fun t spec => (t.merge spec.path spec.name).map fun r => r.2.1) t

theorem uniqueName_of_free {used : List String} (hfree : name ∉ used)
    (hkey : isKeyword name = false) : uniqueName name used = name := by
  simp [uniqueName, hfree, hkey]

structure Rebuilds (u t : Table) (paths : List String) : Prop where
  paired : u.Paired
  names : ∀ path, u.nameOf? path = if path ∈ paths then t.nameOf? path else none

theorem rebuilds_empty (t : Table) : ({} : Table).Rebuilds t [] :=
  ⟨paired_empty, by simp [nameOf?, find?]⟩

/-- An import spec that says what name its path has: it is written there or is the base name, and a
blank one is written. -/
structure Tells (spec : ImportSpec) (name : String) : Prop where
  valid : ImportPath.isValid spec.path = true
  told : spec.name.or (ImportPath.baseName? spec.path) = some name
  blank : name = blankName → spec.name = some blankName

theorem lookup_of_mem_keys (h : name ∈ t.names.map Prod.fst) :
    ∃ path, t.names.lookup name = some path := by
  obtain ⟨pair, hpair, rfl⟩ := List.mem_map.1 h
  cases hlookup : t.names.lookup pair.1 with
  | some path => exact ⟨path, rfl⟩
  | none => simpa using List.lookup_eq_none_iff.1 hlookup pair hpair

theorem Rebuilds.name_free {paths : List String} (h : u.Rebuilds t paths) (ht : t.Paired)
    (hname : t.nameOf? path = some name) (hnew : path ∉ paths) (hne : name ≠ blankName) :
    name ∉ u.names.map Prod.fst := by
  intro hmem
  obtain ⟨q, hq⟩ := lookup_of_mem_keys hmem
  have hbound := (h.paired.names name q hne).1 hq
  rw [h.names] at hbound
  split at hbound
  · rename_i hdone
    have howner := (ht.names name q hne).2 hbound
    rw [(ht.names name path hne).2 hname, Option.some.injEq] at howner
    exact hnew (howner ▸ hdone)
  · simp at hbound

theorem Registers.name_of_told {resolved : String}
    (h : Registers u path written origin resolved t') (hnew : u.nameOf? path = none)
    (htold : written.or (ImportPath.baseName? path) = some name)
    (hblank : name = blankName → written = some blankName)
    (hfree : name ≠ blankName → name ∉ u.names.map Prod.fst) (hkey : isKeyword name = false) :
    resolved = name := by
  cases h with
  | kept hb _ => simp [Table.nameOf?, hb] at hnew
  | blank _ hwritten => simpa [hwritten] using htold
  | named _ hnamed hwanted =>
      rw [htold, Option.some.injEq] at hwanted
      subst hwanted
      exact uniqueName_of_free (hfree fun hname => hnamed (hblank hname)) hkey

theorem Rebuilds.merge {paths : List String} (h : u.Rebuilds t paths) (ht : t.Paired)
    {spec : ImportSpec} (hspec : Tells spec name) (hnew : spec.path ∉ paths)
    (hname : t.nameOf? spec.path = some name) (hkey : isKeyword name = false) :
    ∃ u', (u.merge spec.path spec.name).map (fun r => r.2.1) = .ok u' ∧
      u'.Rebuilds t (spec.path :: paths) := by
  have hfree : u.nameOf? spec.path = none := by rw [h.names, if_neg hnew]
  cases hmerge : u.merge spec.path spec.name with
  | error f =>
      obtain ⟨-, hinvalid | ⟨hnone, hbase⟩⟩ := merge_error hmerge
      · simp [hspec.valid] at hinvalid
      · have htold := hspec.told
        simp [hnone, hbase] at htold
  | ok r =>
      obtain ⟨resolved, u', events⟩ := r
      have hreg := merge_registers hmerge
      have hresolved := hreg.name_of_told hfree hspec.told hspec.blank (h.name_free ht hname hnew) hkey
      refine ⟨u', rfl, hreg.paired h.paired, fun q => ?_⟩
      by_cases hq : q = spec.path
      · subst hq
        rw [hreg.nameOf?, hresolved, if_pos List.mem_cons_self, hname]
      · rw [hreg.nameOf?_other hq, h.names]
        simp [hq]

theorem Rebuilds.mergeAll {paths : List String} (h : u.Rebuilds t paths) (ht : t.Paired)
    (hkeys : ∀ path name, t.nameOf? path = some name → isKeyword name = false)
    {specs : List ImportSpec} (hspecs : ∀ spec ∈ specs, ∃ name, t.nameOf? spec.path = some name ∧
      Tells spec name) (hnodup : (specs.map ImportSpec.path).Nodup)
    (hnew : ∀ spec ∈ specs, spec.path ∉ paths) :
    ∃ u', u.mergeAll specs = .ok u' ∧ ∀ path, u'.nameOf? path =
      if path ∈ specs.map ImportSpec.path ∨ path ∈ paths then t.nameOf? path else none := by
  induction specs generalizing u paths with
  | nil => exact ⟨u, rfl, by simpa using h.names⟩
  | cons spec specs ih =>
      obtain ⟨⟨name, hname, htells⟩, hspecs⟩ := List.forall_mem_cons.1 hspecs
      obtain ⟨hfresh, hnew⟩ := List.forall_mem_cons.1 hnew
      rw [List.map_cons, List.nodup_cons] at hnodup
      obtain ⟨v, hv, hrebuilds⟩ := h.merge ht htells hfresh hname (hkeys _ _ hname)
      have hlater : ∀ other ∈ specs, other.path ∉ spec.path :: paths := by
        intro other hother hmem
        rcases List.mem_cons.1 hmem with heq | hmem
        · exact hnodup.1 (heq ▸ List.mem_map_of_mem hother)
        · exact hnew other hother hmem
      obtain ⟨u', hu', hnames⟩ := ih hrebuilds hspecs hnodup.2 hlater
      refine ⟨u', ?_, fun path => ?_⟩
      · rw [Table.mergeAll, List.foldlM_cons, hv]
        exact hu'
      · rw [hnames]
        simp [or_left_comm, or_assoc]

structure Printable (t : Table) : Prop where
  sound : t.Sound
  paired : t.Paired
  valid : ∀ b ∈ t.bindings, ImportPath.isValid b.path = true

theorem printable_empty : ({} : Table).Printable :=
  ⟨sound_empty, paired_empty, by simp⟩

end Table

namespace Call

theorem run_valid {t : Table} (h : ∀ b ∈ t.bindings, ImportPath.isValid b.path = true) (c : Call) :
    ∀ b ∈ (c.run t).2.bindings, ImportPath.isValid b.path = true := by
  cases c with
  | request path =>
      cases hr : t.request path with
      | error f => simpa [run, hr] using h
      | ok r =>
          obtain ⟨name, t', events⟩ := r
          simp only [run, hr]
          intro b hb
          rcases (Table.request_registers hr).mem hb with hold | rfl
          · exact h b hold
          · exact Table.isValid_of_request hr
  | merge path written =>
      cases hm : t.merge path written with
      | error f => simpa [run, hm] using h
      | ok r =>
          obtain ⟨name, t', events⟩ := r
          simp only [run, hm]
          intro b hb
          rcases (Table.merge_registers hm).mem hb with hold | rfl
          · exact h b hold
          · exact Table.isValid_of_merge hm

theorem run_printable {t : Table} (h : t.Printable) {c : Call} (hc : c.isAllowed = true) :
    (c.run t).2.Printable :=
  ⟨run_sound h.sound hc, run_paired h.paired c, run_valid h.valid c⟩

theorem runAll_printable {t : Table} (h : t.Printable) {calls : List Call}
    (hcalls : ∀ c ∈ calls, c.isAllowed = true) : (Call.runAll t calls).Printable := by
  induction calls generalizing t with
  | nil => exact h
  | cons c calls ih =>
      obtain ⟨hc, hcalls⟩ := List.forall_mem_cons.1 hcalls
      exact ih (run_printable h hc) hcalls

end Call

namespace Table

variable {t : Table}

theorem Sound.isName (h : t.Sound) {b : Binding} (hb : b ∈ t.bindings) :
    Token.isName b.name = true := by
  by_cases hblank : b.name = blankName
  · rw [hblank]
    decide +kernel
  · exact h.spelled b hb hblank

theorem mem_block {spec : ImportSpec} :
    spec ∈ t.block ↔ ∃ b ∈ t.bindings, spec = { path := b.path, name := some b.name } := by
  simp only [block, List.mem_map, List.mem_mergeSort]
  constructor
  · rintro ⟨b, hb, rfl⟩
    exact ⟨b, hb, rfl⟩
  · rintro ⟨b, hb, rfl⟩
    exact ⟨b, hb, rfl⟩

theorem Printable.writable (h : t.Printable) : ∀ spec ∈ t.block, Document.Writable spec := by
  intro spec hspec
  obtain ⟨b, hb, rfl⟩ := mem_block.1 hspec
  exact ⟨h.valid b hb, b.name, rfl, h.sound.isName hb⟩

theorem contains_iff {path : String} :
    t.contains path = true ↔ ∃ b ∈ t.bindings, b.path = path := by
  simp [contains, find?, List.find?_isSome]

theorem block_sorted (h : (t.bindings.map Binding.path).Nodup) :
    (t.block.map ImportSpec.path).Pairwise (· < ·) := by
  have hpaths : t.block.map ImportSpec.path =
      (t.bindings.mergeSort fun a b => decide (a.path ≤ b.path)).map Binding.path := by
    simp [block, Function.comp_def]
  have hsorted : (t.block.map ImportSpec.path).Pairwise (· ≤ ·) := by
    rw [hpaths, List.pairwise_map]
    have hmerge : (t.bindings.mergeSort fun a b => decide (a.path ≤ b.path)).Pairwise
        fun a b => decide (a.path ≤ b.path) = true :=
      List.pairwise_mergeSort (by simpa using fun a b c => String.le_trans)
        (by simpa using fun a b => String.le_total _ _) t.bindings
    simpa using hmerge
  have hnodup : (t.block.map ImportSpec.path).Pairwise (· ≠ ·) := by
    rw [hpaths]
    exact ((List.mergeSort_perm t.bindings _).map Binding.path).nodup_iff.2 h
  refine (hsorted.and hnodup).imp fun {a b} hab => ?_
  by_contra hlt
  exact hab.2 (String.le_antisymm hab.1 hlt)

theorem Printable.tells (h : t.Printable) {b : Binding} (hb : b ∈ t.bindings)
    (hbase : ImportPath.baseName? b.path ≠ some blankName) {spec : ImportSpec}
    (hpath : spec.path = b.path)
    (hname : spec.name = Document.writtenName { path := b.path, name := some b.name }) :
    Tells spec b.name := by
  refine ⟨by rw [hpath]; exact h.valid b hb, ?_, fun hblank => ?_⟩
  · rw [hname, hpath, Document.writtenName]
    split
    · rename_i homitted
      exact homitted.2
    · rfl
  · rw [hname, Document.writtenName, if_neg, hblank]
    rw [hblank]
    exact fun homitted => hbase homitted.2

theorem Printable.isKeyword_name (h : t.Printable) {path name : String}
    (hname : t.nameOf? path = some name) : isKeyword name = false := by
  obtain ⟨b, hb, rfl⟩ := Option.map_eq_some_iff.1 hname
  exact (isName_iff_isWordText.1 (h.sound.isName (mem_of_find? hb))).2

theorem Printable.mergeAll (h : t.Printable)
    (hbase : ∀ b ∈ t.bindings, ImportPath.baseName? b.path ≠ some blankName)
    {specs : List ImportSpec} (hspecs : ∀ spec ∈ specs, ∃ b ∈ t.bindings, spec.path = b.path ∧
      spec.name = Document.writtenName { path := b.path, name := some b.name })
    (hnodup : (specs.map ImportSpec.path).Nodup)
    (hall : ∀ path, path ∈ specs.map ImportSpec.path ↔ t.contains path = true) :
    ∃ u, Table.mergeAll {} specs = .ok u ∧ ∀ path, u.nameOf? path = t.nameOf? path := by
  have htells : ∀ spec ∈ specs, ∃ name, t.nameOf? spec.path = some name ∧ Tells spec name := by
    intro spec hspec
    obtain ⟨b, hb, hpath, hname⟩ := hspecs spec hspec
    refine ⟨b.name, ?_, h.tells hb (hbase b hb) hpath hname⟩
    rw [hpath, nameOf?, find?_of_mem h.sound.paths hb]
    rfl
  obtain ⟨u, hu, hnames⟩ := (rebuilds_empty t).mergeAll h.paired
    (fun _ _ => h.isKeyword_name) htells hnodup (by simp)
  refine ⟨u, hu, fun path => ?_⟩
  rw [hnames]
  split
  · rfl
  · rename_i hmissing
    have hnone : t.find? path = none := by
      simpa [hall, contains] using hmissing
    rw [nameOf?, hnone]
    rfl

theorem mem_block_paths {path : String} :
    path ∈ t.block.map ImportSpec.path ↔ t.contains path = true := by
  rw [contains_iff, List.mem_map]
  constructor
  · rintro ⟨spec, hspec, rfl⟩
    obtain ⟨b, hb, rfl⟩ := mem_block.1 hspec
    exact ⟨b, hb, rfl⟩
  · rintro ⟨b, hb, rfl⟩
    exact ⟨_, mem_block.2 ⟨b, hb, rfl⟩, rfl⟩

end Table

theorem importBlock_rebuilds (calls : List Call) (hcalls : ∀ c ∈ calls, c.isAllowed = true)
    (hbase : ∀ b ∈ (Call.runAll {} calls).bindings,
      ImportPath.baseName? b.path ≠ some blankName) :
    ∃ text file, Document.importBlock (Call.runAll {} calls).block = .ok text ∧
      SourceFile.ofSource ("package p\n\n" ++ text) = .ok file ∧ file.decls = [] ∧
      (∀ path, path ∈ file.imports.map ImportSpec.path ↔
        (Call.runAll {} calls).contains path = true) ∧
      (file.imports.map ImportSpec.path).Pairwise (· < ·) ∧
      ∀ specs, specs.Perm file.imports → ∃ t, Table.mergeAll {} specs = .ok t ∧
        ∀ path, t.nameOf? path = (Call.runAll {} calls).nameOf? path := by
  have ht := Call.runAll_printable Table.printable_empty hcalls
  obtain ⟨text, file, htext, hfile, hdecls, hviews⟩ := Document.ofSource_importBlock ht.writable
  have hpaths : file.imports.map ImportSpec.path =
      (Call.runAll {} calls).block.map ImportSpec.path := by
    have hfst := congrArg (List.map Prod.fst) hviews
    simpa [Document.view, Function.comp_def] using hfst
  have hsorted := Table.block_sorted ht.sound.paths
  rw [← hpaths] at hsorted
  have hmem : ∀ path, path ∈ file.imports.map ImportSpec.path ↔
      (Call.runAll {} calls).contains path = true := by
    intro path
    rw [hpaths, Table.mem_block_paths]
  refine ⟨text, file, htext, hfile, hdecls, hmem, hsorted, fun specs hperm => ?_⟩
  refine ht.mergeAll hbase ?_ ?_ ?_
  · intro spec hspec
    have hview : Document.view spec ∈ file.imports.map Document.view :=
      List.mem_map_of_mem (hperm.mem_iff.1 hspec)
    rw [hviews] at hview
    obtain ⟨printed, hprinted, heq⟩ := List.mem_map.1 hview
    obtain ⟨b, hb, rfl⟩ := Table.mem_block.1 hprinted
    simp only [Document.view, Prod.mk.injEq] at heq
    exact ⟨b, hb, heq.1.symm, heq.2.symm⟩
  · rw [(hperm.map ImportSpec.path).nodup_iff]
    refine hsorted.imp fun {a b} hlt => ?_
    rintro rfl
    exact String.lt_irrefl a hlt
  · intro path
    rw [(hperm.map ImportSpec.path).mem_iff, hmem]

def variedCalls : List Call :=
  [.request "x/util", .request "y/util", .request "z/v2", .request "a/go", .merge "b/c.d" none,
    .merge "e/" none, .merge "/" (some "root"), .merge "f" (some "_"), .merge "g/h" (some "f")]

theorem importBlock_rebuilds_varied :
    (Call.runAll {} variedCalls).bindings.map (fun b => (b.path, b.name)) =
      [("x/util", "util"), ("y/util", "util2"), ("z/v2", "z"), ("a/go", "go2"), ("b/c.d", "c"),
        ("e/", "e"), ("/", "root"), ("f", "_"), ("g/h", "f")] ∧
    ∃ text file, Document.importBlock (Call.runAll {} variedCalls).block = .ok text ∧
      SourceFile.ofSource ("package p\n\n" ++ text) = .ok file ∧
      ∀ specs, specs.Perm file.imports → ∃ t, Table.mergeAll {} specs = .ok t ∧
        ∀ path, t.nameOf? path = (Call.runAll {} variedCalls).nameOf? path := by
  refine ⟨by decide +kernel, ?_⟩
  obtain ⟨text, file, htext, hfile, -, -, -, hrebuilds⟩ :=
    importBlock_rebuilds variedCalls (by decide +kernel) (by decide +kernel)
  exact ⟨text, file, htext, hfile, hrebuilds⟩

end Gosmith.Imports
