import Gosmith.Proofs.Generator.CanonicalFile

namespace Gosmith

open Gosmith.Go Gosmith.Imports Gosmith.Journal

namespace Assoc

variable {α : Type} {l : List (String × α)}

theorem nodup_erase (h : (l.map Prod.fst).Nodup) (key : String) :
    ((erase key l).map Prod.fst).Nodup :=
  ((erase_sublist key l).map Prod.fst).nodup h

theorem nodup_set (h : (l.map Prod.fst).Nodup) (key : String) (value : α) :
    ((set key value l).map Prod.fst).Nodup := by
  induction l with
  | nil => simp [set]
  | cons a l ih =>
      obtain ⟨k, v⟩ := a
      obtain ⟨hk, hl⟩ := List.nodup_cons.1 h
      rw [set]
      split
      · exact h
      · rename_i hne
        refine List.nodup_cons.2 ⟨fun hmem => ?_, ih hl⟩
        obtain ⟨p, hp, hfst⟩ := List.mem_map.1 hmem
        rcases mem_set hp with rfl | hp
        · exact hne hfst.symm
        · exact hk (List.mem_map.2 ⟨p, hp, hfst⟩)

theorem lookup_erase (h : (l.map Prod.fst).Nodup) (k key : String) :
    (erase key l).lookup k = if k = key then none else l.lookup k := by
  induction l with
  | nil => simp [erase]
  | cons a l ih =>
      obtain ⟨first, v⟩ := a
      obtain ⟨hfirst, hl⟩ := List.nodup_cons.1 h
      rw [erase]
      by_cases hkey : first = key
      · rw [if_pos hkey]
        by_cases hk : k = key
        · rw [if_pos hk, List.lookup_eq_none_iff]
          intro p hp
          have hne : k ≠ p.1 := by
            rintro rfl
            exact hfirst (List.mem_map.2 ⟨p, hp, hk.trans hkey.symm⟩)
          simpa using hne
        · have hne : k ≠ first := fun heq => hk (heq.trans hkey)
          rw [if_neg hk, List.lookup_cons, beq_eq_false_iff_ne.2 hne]
      · rw [if_neg hkey, List.lookup_cons, List.lookup_cons]
        by_cases hk : k = first
        · have hne : first ≠ key := hkey
          simp [hk, hne]
        · rw [beq_eq_false_iff_ne.2 hk]
          exact ih hl

end Assoc

namespace Imports.Table

variable {t t' : Table} {path name : String} {written : Option String} {origin : Origin}

def Settled (t : Table) (path : String) : Prop :=
  (∃ name, t.nameOf? path = some name ∧ name ≠ blankName) ∨ blankName ∈ t.names.map Prod.fst

theorem Registers.settled (h : Registers t path written origin name t')
    (hw : written ≠ some blankName) : t'.Settled path := by
  by_cases hname : name = blankName
  · cases h with
    | kept hb hkept => exact absurd hname (hkept.resolve_right hw)
    | blank _ hblank => exact absurd hblank hw
    | named _ _ _ => exact .inr (by simp [reserve, ← hname])
  · exact .inl ⟨name, h.nameOf?, hname⟩

theorem Settled.registers (hs : t.Settled path) {other : String}
    (h : Registers t other written origin name t') : t'.Settled path := by
  rcases hs with ⟨own, hown, hne⟩ | hmem
  · exact .inl ⟨own, h.extends.nameOf? hown hne, hne⟩
  · refine .inr ?_
    cases h with
    | kept _ _ => exact hmem
    | blank _ _ => exact hmem
    | named _ _ _ => simp [reserve, hmem]

theorem Settled.name_ne_blank (hs : t.Settled path) (h : Registers t path written origin name t')
    (hw : written ≠ some blankName) : name ≠ blankName := by
  cases h with
  | kept _ hname => exact hname.resolve_right hw
  | blank _ hblank => exact absurd hblank hw
  | named hfree _ _ =>
      rcases hs with ⟨own, hown, hne⟩ | hmem
      · obtain ⟨b, hb, rfl⟩ := Option.map_eq_some_iff.1 hown
        exact absurd (hfree b hb) hne
      · intro heq
        exact uniqueName_not_mem _ _ (heq ▸ hmem)

end Imports.Table

namespace Generator

instance decidableUses (spec : ImportSpec) (name : String) : Decidable (Uses spec name) :=
  inferInstanceAs (Decidable (_ ∧ _))

def pathsOf (name : String) (specs : List ImportSpec) : List String :=
  (specs.filter fun spec => Uses spec name).map ImportSpec.path

theorem pathsOf_cons (name : String) (spec : ImportSpec) (specs : List ImportSpec) :
    pathsOf name (spec :: specs) =
      (if Uses spec name then [spec.path] else []) ++ pathsOf name specs := by
  by_cases hu : Uses spec name <;> simp [pathsOf, hu]

theorem mem_pathsOf {name path : String} {specs : List ImportSpec} :
    path ∈ pathsOf name specs ↔ ∃ i ∈ specs, Uses i name ∧ i.path = path := by
  simp [pathsOf, and_assoc]

section Note

variable {requested : List (String × String)} {m : Merge} {path name resolved : String}

theorem lookup_note_paths (key : String) :
    (m.note requested path name resolved).paths.lookup key =
      (m.paths.lookup key).or (if key = name then some path else none) := by
  have hpaths : (m.note requested path name resolved).paths =
      if (m.paths.lookup name).isSome then m.paths else m.paths ++ [(name, path)] := by
    simp only [Merge.note]
    split
    · rfl
    · split
      · rfl
      · split <;> rfl
  rw [hpaths]
  by_cases hkey : key = name
  · subst hkey
    cases hold : m.paths.lookup key with
    | some first => simp [hold]
    | none => simp [hold, List.lookup_append]
  · rw [if_neg hkey, Option.or_none]
    split
    · rfl
    · simp [List.lookup_append, List.lookup_cons, beq_eq_false_iff_ne.2 hkey]

theorem nodup_note (h : (m.renames.map Prod.fst).Nodup) :
    ((m.note requested path name resolved).renames.map Prod.fst).Nodup := by
  simp only [Merge.note]
  split
  · exact Assoc.nodup_erase h name
  · split
    · exact h
    · split
      · exact h
      · exact Assoc.nodup_set h name resolved

theorem lookup_note_other (h : (m.renames.map Prod.fst).Nodup) {key : String} (hkey : key ≠ name) :
    (m.note requested path name resolved).renames.lookup key = m.renames.lookup key := by
  simp only [Merge.note]
  split
  · rw [Assoc.lookup_erase h, if_neg hkey]
  · split
    · rfl
    · split
      · rfl
      · rw [Assoc.lookup_set, if_neg hkey]

theorem lookup_note_clash (h : (m.renames.map Prod.fst).Nodup) {first : String}
    (hfirst : m.paths.lookup name = some first) (hne : first ≠ path) :
    (m.note requested path name resolved).renames.lookup name = none := by
  simp only [Merge.note, hfirst, Option.getD_some, if_pos hne]
  rw [Assoc.lookup_erase h, if_pos rfl]

theorem lookup_note_first (hfirst : m.paths.lookup name = some path) :
    (m.note requested path name resolved).renames.lookup name =
      if resolved ≠ name ∧ (requested.lookup name).getD path = path then some resolved
      else m.renames.lookup name := by
  simp only [Merge.note, hfirst, Option.getD_some, ne_eq, not_true, if_false]
  by_cases hname : resolved = name
  · simp [hname]
  · by_cases hreq : (requested.lookup name).getD path = path
    · simp [hname, hreq, Assoc.lookup_set]
    · simp [hname, hreq]

end Note

/-- What a name has come to whose paths so far are `first` and then others: nothing if the last is
another path, and else the name of the path if it is to replace the written one. -/
def Kept (requested : List (String × String)) (m : Merge) (name first : String)
    (others : List String) : Prop :=
  (others.getLast? ≠ some first ∧ m.renames.lookup name = none) ∨
    (others.getLast? = some first ∧ ∃ own, m.imports.nameOf? first = some own ∧ own ≠ blankName ∧
      m.renames.lookup name =
        if own ≠ name ∧ (requested.lookup name).getD first = first then some own else none)

structure Traced (requested : List (String × String)) (name : String) (done : List String)
    (m : Merge) : Prop where
  keys : (m.renames.map Prod.fst).Nodup
  first : m.paths.lookup name = done.head?
  settled : ∀ path, done.head? = some path → m.imports.Settled path
  kept : ∀ first others, done = first :: others → (∃ path ∈ others, path ≠ first) →
    Kept requested m name first others

section Trace

variable {requested : List (String × String)} {name : String} {done : List String} {m m' : Merge}

theorem traced_start (requested : List (String × String)) (name : String) (imports : Table) :
    Traced requested name [] { imports := imports } :=
  ⟨by simp, rfl, by simp, by simp⟩

theorem Traced.register (h : Traced requested name done m) {path resolved : String}
    {written : Option String} {origin : Origin}
    (hreg : Table.Registers m.imports path written origin resolved m'.imports)
    (hpaths : m'.paths = m.paths) (hrenames : m'.renames = m.renames) :
    Traced requested name done m' := by
  refine ⟨hrenames ▸ h.keys, hpaths ▸ h.first, fun p hp => (h.settled p hp).registers hreg, ?_⟩
  intro first others hdone hmany
  rw [Kept, hrenames]
  refine (h.kept first others hdone hmany).imp_right ?_
  rintro ⟨hlast, own, hown, hblank, hlookup⟩
  exact ⟨hlast, own, hreg.extends.nameOf? hown hblank, hblank, hlookup⟩

theorem Traced.note_other (h : Traced requested name done m) {other : String}
    (hother : name ≠ other) (path resolved : String) :
    Traced requested name done (m.note requested path other resolved) := by
  refine ⟨nodup_note h.keys, ?_, ?_, ?_⟩
  · rw [lookup_note_paths, if_neg hother, Option.or_none, h.first]
  · rw [note_imports]
    exact h.settled
  · intro first others hdone hmany
    rw [Kept, lookup_note_other h.keys hother, note_imports]
    exact h.kept first others hdone hmany

theorem Traced.lookup_again (h : Traced requested name done m) {path resolved : String}
    {others : List String} (hdone : done = path :: others) (hmany : ∃ q ∈ others, q ≠ path)
    (hname : m.imports.nameOf? path = some resolved) :
    (m.note requested path name resolved).renames.lookup name =
      if resolved ≠ name ∧ (requested.lookup name).getD path = path then some resolved
      else none := by
  have hfirst : m.paths.lookup name = some path := by rw [h.first, hdone, List.head?_cons]
  rw [lookup_note_first hfirst]
  split
  · rfl
  · rename_i hkeep
    rcases h.kept path others hdone hmany with ⟨-, hnone⟩ | ⟨-, own, hown, -, hlookup⟩
    · exact hnone
    · rw [hname, Option.some.injEq] at hown
      rw [hlookup, ← hown, if_neg hkeep]

theorem Traced.note_same (h : Traced requested name done m) {path resolved : String}
    (hname : m.imports.nameOf? path = some resolved) (hsettled : m.imports.Settled path)
    (hblank : done.head? = some path → resolved ≠ blankName) :
    Traced requested name (done ++ [path]) (m.note requested path name resolved) := by
  refine ⟨nodup_note h.keys, ?_, fun p hp => ?_, ?_⟩
  · rw [lookup_note_paths, if_pos rfl, h.first, List.head?_append, List.head?_singleton]
  · rw [note_imports]
    cases done with
    | nil =>
        obtain rfl : path = p := by simpa using hp
        exact hsettled
    | cons q done => exact h.settled p (by simpa using hp)
  · intro first others hdone hmany
    cases done with
    | nil =>
        obtain ⟨rfl, rfl⟩ := List.cons.inj hdone
        simp at hmany
    | cons q done =>
        rw [List.cons_append] at hdone
        obtain ⟨rfl, rfl⟩ := List.cons.inj hdone
        rw [Kept, List.getLast?_concat, note_imports]
        by_cases hpath : path = q
        · subst hpath
          have hbefore : ∃ p ∈ done, p ≠ path := by
            obtain ⟨p, hp, hne⟩ := hmany
            rcases List.mem_append.1 hp with hp | hp
            · exact ⟨p, hp, hne⟩
            · exact absurd (List.mem_singleton.1 hp) hne
          exact .inr ⟨rfl, resolved, hname, hblank rfl, h.lookup_again rfl hbefore hname⟩
        · refine .inl ⟨by simpa using hpath, lookup_note_clash h.keys h.first (Ne.symm hpath)⟩

theorem mergeImports_traced {source : String} {specs : List ImportSpec}
    (h : mergeImports requested source m specs = (.ok (), m')) (ht : Traced requested name done m) :
    Traced requested name (done ++ pathsOf name specs) m' := by
  induction specs generalizing m done with
  | nil =>
      cases h
      simpa [pathsOf] using ht
  | cons spec specs ih =>
      obtain ⟨-, resolved, imports, events, m₁, hm, rfl, hpaths, hrenames, hrest⟩ :=
        mergeImports_cases h
      have hreg := Table.merge_registers hm
      have hnow := ht.register hreg hpaths hrenames
      rw [pathsOf_cons]
      rcases hrest with ⟨hblank, hrest⟩ | ⟨other, hu, hrest⟩
      · have hunused : ¬ Uses spec name := fun hu => hu.1 hblank
        rw [if_neg hunused, List.nil_append]
        exact ih hrest hnow
      · by_cases hother : name = other
        · subst hother
          have hagain : done.head? = some spec.path → resolved ≠ blankName :=
            fun hhead => (ht.settled spec.path hhead).name_ne_blank hreg hu.1
          rw [if_pos hu, ← List.append_assoc]
          exact ih hrest (hnow.note_same hreg.nameOf? (hreg.settled hu.1) hagain)
        · have hunused : ¬ Uses spec name := fun hu' => hother (hu'.unique hu)
          rw [if_neg hunused, List.nil_append]
          exact ih hrest (hnow.note_other hother spec.path resolved)

end Trace

/-- The last import to use a name has the path of the first one, that path has another name, and no
tracked import of another path has the written one. -/
def Restored (requested : List (String × String)) (imports : Table) (name first : String)
    (others : List String) : Prop :=
  others.getLast? = some first ∧ imports.nameOf? first ≠ some name ∧
    (requested.lookup name).getD first = first

section Restore

variable {requested : List (String × String)} {m : Merge} {name first : String}
  {others : List String}

theorem Kept.lookup_of_restored (h : Kept requested m name first others)
    (hr : Restored requested m.imports name first others) :
    ∃ own, own ≠ name ∧ m.imports.nameOf? first = some own ∧
      m.renames.lookup name = some own := by
  obtain ⟨hlast, hname, hrequested⟩ := hr
  rcases h with ⟨hother, -⟩ | ⟨-, own, hown, -, hlookup⟩
  · exact absurd hlast hother
  · have hne : own ≠ name := fun heq => hname (heq ▸ hown)
    exact ⟨own, hne, hown, by rw [hlookup, if_pos ⟨hne, hrequested⟩]⟩

theorem Kept.lookup_of_not_restored (h : Kept requested m name first others)
    (hr : ¬ Restored requested m.imports name first others) : m.renames.lookup name = none := by
  rcases h with ⟨-, hnone⟩ | ⟨hlast, own, hown, -, hlookup⟩
  · exact hnone
  · rw [hlookup, if_neg]
    rintro ⟨hne, hrequested⟩
    refine hr ⟨hlast, ?_, hrequested⟩
    simpa [hown] using hne

end Restore

theorem mergeImports_keys {requested : List (String × String)} {source : String}
    {specs : List ImportSpec} {m m' : Merge}
    (h : mergeImports requested source m specs = (.ok (), m'))
    (hkeys : ∀ p ∈ m.renames, p.1 ≠ dotName) : ∀ p ∈ m'.renames, p.1 ≠ dotName := by
  induction specs generalizing m with
  | nil =>
      cases h
      exact hkeys
  | cons spec specs ih =>
      obtain ⟨hdot, resolved, imports, events, m₁, -, -, -, hrenames, hrest⟩ :=
        mergeImports_cases h
      rw [← hrenames] at hkeys
      rcases hrest with ⟨-, hrest⟩ | ⟨name, hu, hrest⟩
      · exact ih hrest hkeys
      · refine ih hrest fun p hp => ?_
        rcases mem_renames_note hp with rfl | hp
        · exact hu.ne_dot hdot
        · exact hkeys p hp

theorem keepsDots_of_names {renames : List (String × String)}
    (hnames : Declaration.NamesOnly renames) (hkeys : ∀ p ∈ renames, p.1 ≠ dotName) :
    Declaration.KeepsDots renames :=
  Declaration.keepsDots_of_ne_dot fun p hp => ⟨hkeys p hp, Token.isName_ne_dot (hnames p hp)⟩

theorem token_of_stored {renames : List (String × String)} (hdots : Declaration.KeepsDots renames)
    {ds : List Declaration} (base : Nat) {k n : Nat} {d : Declaration} {t : Token}
    (hd : ds[k]? = some d) (ht : d.tokens[n]? = some t)
    (hq : Declaration.QualifierAt d.tokens n) :
    ∃ d', (numbered base (ds.map (·.renameQualifiers renames)))[k]? = some d' ∧
      d'.tokens[n]? = some (Declaration.renamed renames t) := by
  obtain ⟨d', hd'⟩ : ∃ d', (numbered base (ds.map (·.renameQualifiers renames)))[k]? = some d' := by
    rw [getElem?_numbered, List.getElem?_map, hd]
    exact ⟨_, rfl⟩
  refine ⟨d', hd', ?_⟩
  rw [tokens_of_stored hd hd']
  exact Declaration.renameTokens_of_qualifier hdots ht hq

theorem exists_other {first p q : String} {others : List String} (hp : p ∈ first :: others)
    (hq : q ∈ first :: others) (hne : p ≠ q) : ∃ path ∈ others, path ≠ first := by
  by_cases hfirst : p = first
  · have hother : q ≠ first := fun heq => hne (hfirst.trans heq.symm)
    exact ⟨q, (List.mem_cons.1 hq).resolve_left hother, hother⟩
  · exact ⟨p, (List.mem_cons.1 hp).resolve_left hfirst, hfirst⟩

theorem absorb_of_rendered {engine : Template.Engine} (hengine : engine.OnlyAsks) {policy : Policy}
    {options : Template.Options} {g₀ : Generator}
    (hnew : Generator.new policy options engine = .ok g₀) (earlier : List Call) (c : Call)
    {source : String} (h : (c.rendering (play g₀ earlier)).result = .ok source) :
    (c.rendering (play g₀ earlier)).session.imports.Sound ∧
      ((play g₀ earlier).declare c.template c.data).1 =
        ((play g₀ earlier).absorb (c.rendering (play g₀ earlier)).session source).1 ∧
      play g₀ (earlier ++ [c]) =
        ((play g₀ earlier).absorb (c.rendering (play g₀ earlier)).session source).2.1 := by
  have hg := (play_grows (new_sound hnew hengine) earlier).sound
  rw [play_append]
  exact ⟨(hg.tracks c).sound, declare_of_rendered h⟩

theorem ambiguous_name_iff (g : Generator) (session : Template.Session) (source : String)
    (hsound : session.imports.Sound) (hok : (g.absorb session source).1 = .ok ()) :
    ∃ file m stored, SourceFile.ofSource source = .ok file ∧
      mergeImports session.requested source { imports := session.imports } file.imports =
        (.ok (), m) ∧
      (g.absorb session source).2.1.imports = m.imports ∧
      (g.absorb session source).2.1.decls = g.decls ++ stored ∧
      ∀ name, ∀ i ∈ file.imports, ∀ j ∈ file.imports, Uses i name → Uses j name →
        i.path ≠ j.path → ∃ first others, pathsOf name file.imports = first :: others ∧
          (m.renames.lookup name = none ↔
            ¬ Restored session.requested m.imports name first others) ∧
          ∀ (k n : Nat) (d : Declaration) (t : Token), file.decls[k]? = some d →
            d.tokens[n]? = some t → Declaration.QualifierAt d.tokens n → t.text = name →
            ∃ (d' : Declaration) (t' : Token), stored[k]? = some d' ∧ d'.tokens[n]? = some t' ∧
              (t' = t ↔ ¬ Restored session.requested m.imports name first others) ∧
              (Restored session.requested m.imports name first others →
                t' = { t with text := t'.text } ∧ m.imports.nameOf? first = some t'.text) := by
  rcases g.absorb_cases session source with ⟨e, he, -⟩ | ⟨file, m, -, hparse, hmerge, hresult⟩
  · simp [he] at hok
  have hnames := mergeImports_names hmerge hsound (by simp [Declaration.NamesOnly])
    (spelled_ofSource hparse)
  have hdots := keepsDots_of_names hnames (mergeImports_keys hmerge (by simp))
  rw [hresult]
  refine ⟨file, m, _, hparse, hmerge, rfl, rfl, fun name i hi j hj hui huj hpath => ?_⟩
  have htraced := mergeImports_traced hmerge (traced_start session.requested name session.imports)
  rw [List.nil_append] at htraced
  have himem : i.path ∈ pathsOf name file.imports := mem_pathsOf.2 ⟨i, hi, hui, rfl⟩
  have hjmem : j.path ∈ pathsOf name file.imports := mem_pathsOf.2 ⟨j, hj, huj, rfl⟩
  obtain ⟨first, others, hpaths⟩ := List.exists_cons_of_ne_nil (List.ne_nil_of_mem himem)
  rw [hpaths] at himem hjmem
  have hkept := htraced.kept first others hpaths (exists_other himem hjmem hpath)
  refine ⟨first, others, hpaths, ?_, fun k n d t hd ht hq htext => ?_⟩
  · refine ⟨fun hnone hr => ?_, hkept.lookup_of_not_restored⟩
    obtain ⟨own, -, -, hlookup⟩ := hkept.lookup_of_restored hr
    simp [hnone] at hlookup
  · obtain ⟨d', hd', ht'⟩ := token_of_stored hdots g.decls.length hd ht hq
    refine ⟨d', _, hd', ht', ⟨fun hsame hr => ?_, fun hr => ?_⟩, fun hr => ⟨rfl, ?_⟩⟩
    · obtain ⟨own, hne, -, hlookup⟩ := hkept.lookup_of_restored hr
      refine hne ?_
      have hsame' := congrArg Token.text hsame
      simpa [Declaration.renamed, htext, hlookup] using hsame'
    · exact Declaration.renamed_eq_self (htext ▸ hkept.lookup_of_not_restored hr)
    · obtain ⟨own, -, hown, hlookup⟩ := hkept.lookup_of_restored hr
      rw [hown, Declaration.renamed, htext, hlookup, Option.getD_some]

def clashSource : String :=
  "package idlgen\n\nimport y \"a\"\nimport x \"a\"\nimport x \"b\"\nvar v = x.F\n"

def clashImports : List ImportSpec :=
  [⟨"a", some "y", 3⟩, ⟨"a", some "x", 4⟩, ⟨"b", some "x", 5⟩]

theorem absorb_clashSource_succeeds : (absorb {} {} clashSource).1 = .ok () := by
  rcases absorb_cases {} {} clashSource with ⟨e, he, -⟩ | ⟨file, m, hok, -⟩
  · have hview : (absorb {} {} clashSource).1.isOk = true := by decide +kernel
    simp [he, Except.isOk, Except.toBool] at hview
  · exact hok

theorem ambiguous_name_clash : ∃ file m,
    ({} : Template.Session).imports.Sound ∧ (absorb {} {} clashSource).1 = .ok () ∧
    SourceFile.ofSource clashSource = .ok file ∧ file.imports = clashImports ∧
    Uses ⟨"a", some "x", 4⟩ "x" ∧ Uses ⟨"b", some "x", 5⟩ "x" ∧
    mergeImports [] clashSource { imports := {} } clashImports = (.ok (), m) ∧
    m.renames.lookup "x" = none ∧
    (absorb {} {} clashSource).2.1.decls.map (fun d => d.tokens.map Token.text) =
      [["var", "v", "=", "x", ".", "F"]] := by
  obtain ⟨file, m, stored, hparse, hmerge, -, -, hall⟩ :=
    ambiguous_name_iff {} {} clashSource Table.sound_empty absorb_clashSource_succeeds
  have hview : (SourceFile.ofSource clashSource).toOption.map SourceFile.imports =
      some clashImports := by
    decide +kernel
  have himports : file.imports = clashImports := by simpa [hparse, Except.toOption] using hview
  have hu : Uses ⟨"a", some "x", 4⟩ "x" ∧ Uses ⟨"b", some "x", 5⟩ "x" := by decide
  rw [himports] at hmerge hall
  obtain ⟨first, others, hpaths, hiff, -⟩ := hall "x" ⟨"a", some "x", 4⟩ (by decide)
    ⟨"b", some "x", 5⟩ (by decide) hu.1 hu.2 (by decide)
  obtain ⟨rfl, rfl⟩ : "a" = first ∧ ["b"] = others :=
    List.cons.inj ((by decide : pathsOf "x" clashImports = ["a", "b"]).symm.trans hpaths)
  refine ⟨file, m, Table.sound_empty, absorb_clashSource_succeeds, hparse, himports, hu.1, hu.2,
    hmerge, hiff.2 ?_, by decide +kernel⟩
  rintro ⟨hlast, -⟩
  exact absurd hlast (by decide)

def restoredCall : Call where
  template := .text
    "import y \"a\"\nimport x \"a\"\nimport x \"b\"\nimport x \"a\"\nvar v = x.F\n"
  data := .null

def restoredSource : String :=
  "package idlgen\n\nimport y \"a\"\nimport x \"a\"\nimport x \"b\"\nimport x \"a\"\nvar v = x.F\n"

def restoredImports : List ImportSpec :=
  [⟨"a", some "y", 3⟩, ⟨"a", some "x", 4⟩, ⟨"b", some "x", 5⟩, ⟨"a", some "x", 6⟩]

theorem ambiguous_name_replaced :
    Generator.new {} {} Template.engine = .ok {} ∧ Template.engine.OnlyAsks ∧
    (restoredCall.rendering {}).result.toOption = some restoredSource ∧
    (restoredCall.rendering {}).session.requested = [] ∧
    (SourceFile.ofSource restoredSource).toOption.map SourceFile.imports = some restoredImports ∧
    Uses ⟨"a", some "x", 4⟩ "x" ∧ Uses ⟨"b", some "x", 5⟩ "x" ∧
    (mergeImports [] restoredSource { imports := {} } restoredImports).2.renames = [("x", "y")] ∧
    (absorb {} {} restoredSource).2.1.decls.map (fun d => d.tokens.map Token.text) =
      [["var", "v", "=", "y", ".", "F"]] ∧
    (play {} [restoredCall]).decls.map (fun d => d.tokens.map Token.text) =
      [["var", "v", "=", "y", ".", "F"]] :=
  ⟨rfl, Template.engine_onlyAsks, by decide +kernel⟩

end Generator

end Gosmith
