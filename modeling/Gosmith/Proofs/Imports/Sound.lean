import Gosmith.Proofs.Imports.Registration

namespace Gosmith.Imports

open Gosmith.Go Gosmith.Text

def IsWordText (s : String) : Prop :=
  ∃ c cs, s.toList = c :: cs ∧ startsWord c = true ∧ ∀ d ∈ cs, isWord d = true

theorem isName_iff_isWordText {s : String} :
    Token.isName s = true ↔ IsWordText s ∧ isKeyword s = false := by
  rw [Token.isName_iff]
  constructor
  · rintro ⟨c, cs, hs, hc, hcs, hkey⟩
    exact ⟨⟨c, cs, hs, hc, hcs⟩, hkey⟩
  · rintro ⟨⟨c, cs, hs, hc, hcs⟩, hkey⟩
    exact ⟨c, cs, hs, hc, hcs, hkey⟩

theorem isWord_of_isNameChar {c : Char} (h : isNameChar c = true) : isWord c = true := by
  simp only [isNameChar, Bool.or_eq_true, beq_iff_eq] at h
  rcases h with h | rfl
  · exact Piece.isWord_of_isAlphanum h
  · decide

theorem toNat_of_isNameChar {c : Char} (h : isNameChar c = true) : c.toNat < 0x80 := by
  simp only [isNameChar, Bool.or_eq_true, beq_iff_eq] at h
  rcases h with h | rfl
  · exact Piece.toNat_of_isAlphanum h
  · decide

theorem startsWord_of_isNameChar {c : Char} (h : isNameChar c = true) (hd : c.isDigit = false) :
    startsWord c = true := by
  simp [startsWord, isWord_of_isNameChar h, isDecimal, toNat_of_isNameChar h, hd]

theorem isWordText_sanitize (cs : List Char) : IsWordText (String.ofList (sanitize cs)) := by
  have hchars : ∀ d ∈ cs.map (fun c => if isNameChar c then c else '_'), isNameChar d = true := by
    intro d hd
    obtain ⟨c, -, rfl⟩ := List.mem_map.1 hd
    split
    · assumption
    · decide
  unfold sanitize
  split
  · refine ⟨'p', ['k', 'g'], by simp, by decide, List.forall_mem_cons.2 ⟨by decide, ?_⟩⟩
    exact List.forall_mem_singleton.2 (by decide)
  · rename_i c rest heq
    rw [heq] at hchars
    have hrest : ∀ d ∈ rest, isWord d = true := fun d hd =>
      isWord_of_isNameChar (hchars d (List.mem_cons_of_mem _ hd))
    have hc := hchars c List.mem_cons_self
    split
    · refine ⟨'_', c :: rest, by simp, by decide, ?_⟩
      intro d hd
      rcases List.mem_cons.1 hd with rfl | hd
      · exact isWord_of_isNameChar hc
      · exact hrest d hd
    · rename_i hdigit
      exact ⟨c, rest, by simp, startsWord_of_isNameChar hc (by simpa using hdigit), hrest⟩

theorem isWordText_baseName {path base : String} (h : ImportPath.baseName? path = some base) :
    IsWordText base := by
  unfold ImportPath.baseName? at h
  split at h
  · simp at h
  · simp only [Option.some.injEq] at h
    exact h ▸ isWordText_sanitize _
  · simp only [Option.some.injEq] at h
    exact h ▸ isWordText_sanitize _

theorem isWordText_numbered {base : String} (h : IsWordText base) (n : Nat) :
    IsWordText (numbered base n) := by
  obtain ⟨c, cs, hs, hc, hcs⟩ := h
  refine ⟨c, cs ++ Nat.toDigits 10 n, by simp [toList_numbered, hs], hc, ?_⟩
  intro d hd
  rcases List.mem_append.1 hd with hd | hd
  · exact hcs d hd
  · exact Piece.isWord_of_isDigit (Nat.isDigit_of_mem_toDigits (by decide) (by decide) hd)

theorem isName_uniqueName {base : String} (h : IsWordText base) (used : List String) :
    Token.isName (uniqueName base used) = true := by
  refine isName_iff_isWordText.2 ⟨?_, isKeyword_uniqueName base used⟩
  rcases uniqueName_eq base used with ⟨heq, -⟩ | ⟨n, -, heq⟩
  · rw [heq]
    exact h
  · rw [heq]
    exact isWordText_numbered h n

namespace Table

structure Sound (t : Table) : Prop where
  paths : (t.bindings.map Binding.path).Nodup
  names : (t.names.map Prod.fst).Nodup
  claimed : ∀ b ∈ t.bindings, b.name ≠ blankName → t.names.lookup b.name = some b.path
  spelled : ∀ b ∈ t.bindings, b.name ≠ blankName → Token.isName b.name = true

theorem sound_empty : ({} : Table).Sound :=
  ⟨by simp, by simp, by simp, by simp⟩

/-- Every path stays registered, and a path that has a name keeps its binding. -/
def Extends (t t' : Table) : Prop :=
  ∀ path b, t.find? path = some b →
    ∃ b', t'.find? path = some b' ∧ (b.name ≠ blankName → b' = b)

theorem Extends.refl (t : Table) : t.Extends t :=
  fun _ b h => ⟨b, h, fun _ => rfl⟩

theorem Extends.trans {t u v : Table} (h : t.Extends u) (h' : u.Extends v) : t.Extends v := by
  intro path b hb
  obtain ⟨c, hc, hbc⟩ := h path b hb
  obtain ⟨d, hd, hcd⟩ := h' path c hc
  refine ⟨d, hd, fun hname => ?_⟩
  have hcb := hbc hname
  rw [hcd (hcb ▸ hname), hcb]

theorem find?_bind (t : Table) (b : Binding) (names : List (String × String)) (path : String) :
    ({ bindings := put b t.bindings, names := names } : Table).find? path =
      if b.path = path then some b else t.find? path :=
  find?_put b t.bindings path

variable {t t' : Table} {path name : String} {written : Option String} {origin : Origin}

theorem extends_bind {b : Binding} {names : List (String × String)}
    (hfree : ∀ a, t.find? b.path = some a → a.name = blankName) :
    t.Extends { bindings := put b t.bindings, names := names } := by
  intro path a ha
  rw [find?_bind]
  split
  · rename_i hpath
    refine ⟨b, rfl, fun hname => ?_⟩
    exact absurd (hfree a (hpath ▸ ha)) hname
  · exact ⟨a, ha, fun _ => rfl⟩

theorem Registers.extends (h : Registers t path written origin name t') : t.Extends t' := by
  cases h with
  | kept _ _ => exact .refl t
  | blank hnew _ => exact extends_bind (by simp [hnew])
  | named hfree _ _ => exact extends_bind hfree

theorem Registers.nameOf? (h : Registers t path written origin name t') :
    t'.nameOf? path = some name := by
  cases h with
  | kept hb _ => simp [Table.nameOf?, hb]
  | blank _ _ => simp [Table.nameOf?, find?_bind]
  | named _ _ _ => simp [Table.nameOf?, reserve, find?_bind]

theorem lookup_reserve {wanted key : String} {owner : String}
    (h : t.names.lookup key = some owner) :
    (t.reserve path wanted origin).2.1.names.lookup key = some owner := by
  simp [reserve, List.lookup_append, h]

theorem lookup_reserved (wanted : String) :
    (t.reserve path wanted origin).2.1.names.lookup (t.reserve path wanted origin).1 = some path := by
  have hnew : t.names.lookup (uniqueName wanted (t.names.map Prod.fst)) = none := by
    rw [List.lookup_eq_none_iff]
    intro p hp
    have hne : uniqueName wanted (t.names.map Prod.fst) ≠ p.1 := by
      intro heq
      apply uniqueName_not_mem wanted (t.names.map Prod.fst)
      rw [heq]
      exact List.mem_map_of_mem hp
    simpa using hne
  simp [reserve, List.lookup_append, hnew]

theorem Sound.reserve (hs : t.Sound) {wanted : String} (hw : IsWordText wanted) :
    (t.reserve path wanted origin).2.1.Sound := by
  refine ⟨nodup_put hs.paths, ?_, ?_, ?_⟩
  · have hfresh := uniqueName_not_mem wanted (t.names.map Prod.fst)
    simp only [Table.reserve, List.map_append, List.map_cons, List.map_nil]
    exact List.nodup_append.2 ⟨hs.names, by simp, by
      intro a ha b hb
      simp only [List.mem_singleton] at hb
      rintro rfl
      exact hfresh (hb ▸ ha)⟩
  · intro b hb hname
    rcases mem_put hb with rfl | hb
    · exact lookup_reserved wanted
    · exact lookup_reserve (hs.claimed b hb hname)
  · intro b hb hname
    rcases mem_put hb with rfl | hb
    · exact isName_uniqueName hw _
    · exact hs.spelled b hb hname

theorem Registers.sound (h : Registers t path written origin name t') (hs : t.Sound)
    (hw : ∀ w ∈ written, w ≠ blankName → Token.isName w = true) : t'.Sound := by
  cases h with
  | kept _ _ => exact hs
  | blank _ _ =>
      refine ⟨nodup_put hs.paths, hs.names, ?_, ?_⟩
      · intro b hb hname
        rcases mem_put hb with rfl | hb
        · exact absurd rfl hname
        · exact hs.claimed b hb hname
      · intro b hb hname
        rcases mem_put hb with rfl | hb
        · exact absurd rfl hname
        · exact hs.spelled b hb hname
  | named _ hblank hwanted =>
      refine hs.reserve ?_
      cases written with
      | none => exact isWordText_baseName (by simpa using hwanted)
      | some w =>
          have hname := hw w rfl (by simpa using hblank)
          rw [Option.some_or, Option.some.injEq] at hwanted
          exact hwanted ▸ (isName_iff_isWordText.1 hname).1

theorem uniqueName_ne_blank {wanted : String} (h : wanted ≠ blankName) (used : List String) :
    uniqueName wanted used ≠ blankName := by
  rcases uniqueName_eq wanted used with ⟨heq, -⟩ | ⟨n, -, heq⟩
  · rw [heq]
    exact h
  · rw [heq]
    intro hblank
    have hlist := congrArg String.toList hblank
    rw [toList_numbered] at hlist
    have hmem : ∀ d ∈ Nat.toDigits 10 n, d = '_' := by
      intro d hd
      have : d ∈ blankName.toList := by
        rw [← hlist]
        exact List.mem_append_right _ hd
      simpa [blankName] using this
    cases hdigits : Nat.toDigits 10 n with
    | nil => exact Nat.toDigits_ne_nil hdigits
    | cons d ds =>
        have hd : d ∈ Nat.toDigits 10 n := by simp [hdigits]
        have hdigit := Nat.isDigit_of_mem_toDigits (by decide) (by decide) hd
        rw [hmem d hd] at hdigit
        exact absurd hdigit (by decide)

theorem Registers.name_ne_blank (h : Registers t path written origin name t')
    (hw : written ≠ some blankName)
    (hbase : written = none → ImportPath.baseName? path ≠ some blankName) : name ≠ blankName := by
  cases h with
  | kept hb hname => exact hname.resolve_right hw
  | blank _ hblank => exact absurd hblank hw
  | @named wanted _ _ hwanted =>
      refine uniqueName_ne_blank ?_ _
      rintro rfl
      cases written with
      | none => exact hbase rfl (by simpa using hwanted)
      | some w => exact hw (by simpa using hwanted)

theorem Extends.nameOf? (h : t.Extends t') (hn : t.nameOf? path = some name)
    (hblank : name ≠ blankName) : t'.nameOf? path = some name := by
  obtain ⟨b, hb, rfl⟩ := Option.map_eq_some_iff.1 hn
  obtain ⟨b', hb', hsame⟩ := h path b hb
  rw [Table.nameOf?, hb', hsame hblank]
  rfl

theorem Extends.contains (h : t.Extends t') (hc : t.contains path = true) :
    t'.contains path = true := by
  obtain ⟨b, hb⟩ := Option.isSome_iff_exists.1 hc
  obtain ⟨b', hb', -⟩ := h path b hb
  simp [Table.contains, hb']

theorem contains_of_nameOf? (h : t.nameOf? path = some name) : t.contains path = true := by
  obtain ⟨b, hb, -⟩ := Option.map_eq_some_iff.1 h
  simp [Table.contains, hb]

end Table

end Gosmith.Imports
