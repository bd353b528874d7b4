import Gosmith.Proofs.Schema.Spellings
import Gosmith.Proofs.Schema.StructText

namespace Gosmith.Go.Grammar

open SourceFile

variable {ts : List Token} {name : String}

theorem exists_ident_of_mem_moreNames (h : name ∈ moreNames ts) :
    ∃ t ∈ ts, t.kind = .ident ∧ t.text = name := by
  fun_induction moreNames ts with
  | case1 comma t rest hname ih =>
      obtain ⟨-, hident⟩ : comma.isOp "," = true ∧ t.kind = .ident := by simpa using hname
      rcases List.mem_cons.1 h with rfl | h
      · exact ⟨t, by simp, hident, rfl⟩
      · obtain ⟨u, hu, hident⟩ := ih h
        exact ⟨u, by simp [hu], hident⟩
  | case2 => simp at h
  | case3 => simp at h

theorem exists_ident_of_mem_groupNames {depth : Nat} {atStart : Bool}
    (h : name ∈ groupNames depth atStart ts) : ∃ t ∈ ts, t.kind = .ident ∧ t.text = name := by
  have hlater {t : Token} {rest : List Token}
      (hrest : ∃ u ∈ rest, u.kind = .ident ∧ u.text = name) :
      ∃ u ∈ t :: rest, u.kind = .ident ∧ u.text = name := by
    obtain ⟨u, hu, hident⟩ := hrest
    exact ⟨u, List.mem_cons_of_mem _ hu, hident⟩
  fun_induction groupNames depth atStart ts with
  | case1 => simp at h
  | case2 _ _ _ _ _ ih => exact hlater (ih h)
  | case3 _ _ _ _ _ _ ih => exact hlater (ih h)
  | case4 _ _ _ _ _ _ _ ih => exact hlater (ih h)
  | case5 _ atStart t _ _ _ _ hname ih =>
      obtain ⟨-, hident⟩ : atStart = true ∧ t.kind = .ident := by simpa using hname
      rcases List.mem_cons.1 h with rfl | h
      · exact ⟨t, List.mem_cons_self, hident, rfl⟩
      · exact hlater (ih h)
  | case6 _ _ _ _ _ _ _ _ ih => exact hlater (ih h)

theorem exists_ident_of_mem_specNames {keyword : Token} {names : List String}
    (hnames : specNames keyword ts = .ok names) (h : name ∈ names) :
    ∃ t ∈ ts, t.kind = .ident ∧ t.text = name := by
  cases ts with
  | nil => simp [specNames, fail] at hnames
  | cons t rest =>
      simp only [specNames] at hnames
      split at hnames
      · cases hnames
        exact exists_ident_of_mem_groupNames h
      · split at hnames
        · simp [fail] at hnames
        · split at hnames
          · simp [fail] at hnames
          · rename_i hident _
            cases hnames
            rcases List.mem_cons.1 h with rfl | h
            · exact ⟨t, List.mem_cons_self, by simpa using hident, rfl⟩
            · obtain ⟨u, hu, hu'⟩ := exists_ident_of_mem_moreNames h
              exact ⟨u, List.mem_cons_of_mem _ hu, hu'⟩

theorem isName_of_mem_names {source : String} {file : SourceFile}
    (hfile : SourceFile.ofSource source = .ok file) {d : Declaration} (hd : d ∈ file.decls)
    (hkind : d.kind = .type) (h : name ∈ d.names) : Token.isName name = true := by
  obtain ⟨k, us, htokens, hspec⟩ := (headed_of_ofSource hfile d hd).spec (by simp [hkind])
  obtain ⟨ts, hts, hsub, -⟩ := decl_of_ofSource hfile hd
  obtain ⟨t, ht, hident, rfl⟩ := exists_ident_of_mem_specNames hspec h
  exact Token.isName_of_ident hts (hsub (htokens ▸ List.mem_cons_of_mem _ ht)) hident

end Gosmith.Go.Grammar

namespace Gosmith.TypeSpec

open Gosmith.Go Gosmith.Go.Layout Gosmith.Text

variable {name r : String}

theorem exists_declaration (h : Token.isName name = true) :
    ∃ source file d, SourceFile.ofSource source = .ok file ∧ d ∈ file.decls ∧ d.kind = .type ∧
      d.names = [name] := by
  have hfixed := FieldsText.nil.fixed h
  have htext : ("type " ++ name ++ " struct " ++ braced ("\n" ++ "")).toList =
      "type".toList ++ printed (structTokens name []) := printed_structTokens rfl name
  have hsource : String.toList (String.ofList
      (printed (placedBelow (.newline true 0) (.plain .keyword "type") (structTokens name [])) ++
        ['\n'])) = _ := String.toList_ofList
  obtain ⟨file, d, k, us, hfile, hdecls, hkind, htokens, hread, -⟩ :=
    hfixed.read_back htext (by simp [Gap.newlines]) hsource
  have hd : d ∈ file.decls := by simp [hdecls]
  have hheaded := Grammar.headed_of_ofSource hfile d hd
  exact ⟨_, file, d, hfile, hd, hkind, names_of_read hread htokens hkind hheaded⟩

theorem exists_first (h : exported? name = some r) :
    ∃ c, name.toList.find? Char.isAlphanum = some c ∧ r.toList.head? = some c.toUpper := by
  cases hfind : name.toList.find? Char.isAlphanum with
  | none =>
      have hrun : IsRun name.toList := fun c hc => by
        simpa using List.find?_eq_none.1 hfind c hc
      have hnone : words (name.toList ++ []) = [] := words_isRun_append hrun
      rw [List.append_nil] at hnone
      exact absurd hnone (exported?_eq_some_iff.1 h).1
  | some c =>
      obtain ⟨r', hr', -, hhead⟩ := exists_spelling hfind
      rw [h, Option.some.injEq] at hr'
      exact ⟨c, rfl, hr' ▸ hhead⟩

theorem isDigit_first_iff (h : exported? name = some r) :
    r.toList.head?.any Char.isDigit = true ↔ startsWithLetter name = false := by
  obtain ⟨c, hfind, hhead⟩ := exists_first h
  have halphanum : c.isAlphanum = true := List.find?_some hfind
  rw [hhead, startsWithLetter, hfind, Option.any_some, Option.any_some]
  cases halpha : c.isAlpha with
  | true => simp [isDigit_of_isAlpha (c := c.toUpper) (by simpa using halpha)]
  | false =>
      have hdigit : c.isDigit = true := by simpa [Char.isAlphanum, halpha] using halphanum
      have hlower : ¬ c.isLower = true := fun hlower => by simp [Char.isAlpha, hlower] at halpha
      simp [Char.toUpper_eq_of_not_isLower hlower, hdigit]

theorem startsWithLetter_of_isName (h : exported? name = some r) (hr : Token.isName r = true) :
    startsWithLetter name = true := by
  obtain ⟨c, rest, hs, hstart, -⟩ := Token.isName_iff.1 hr
  have hdigit : ¬ r.toList.head?.any Char.isDigit = true := by
    simp [hs, Piece.not_isDigit_of_startsWord hstart]
  simpa using mt (isDigit_first_iff h).2 hdigit

theorem isName_of_startsWithLetter (h : exported? name = some r)
    (hletter : startsWithLetter name = true) : IsExported r.toList ∧ Token.isName r = true := by
  obtain ⟨s, hs, hexported⟩ := exists_exported hletter
  obtain rfl : r = s := by simpa [h] using hs
  exact ⟨hexported, isName_of_isExported hexported⟩

theorem exported_declarable_iff {ρ : Type} [HasKind ρ] (h : exported? name = some r) :
    (IsExported r.toList ∧ isKeyword r = false ↔ startsWithLetter name = true) ∧
    ((∃ source file d, SourceFile.ofSource source = .ok file ∧ d ∈ file.decls ∧ d.kind = .type ∧
      r ∈ d.names) ↔ startsWithLetter name = true) ∧
    (r.toList.head?.any Char.isDigit = true ↔ startsWithLetter name = false) ∧
    ∀ s : TypeSpec ρ, s.declaredName? = some name → s.declName = .ok r := by
  refine ⟨⟨?_, fun hletter => ?_⟩, ⟨?_, fun hletter => ?_⟩, isDigit_first_iff h, ?_⟩
  · rintro ⟨hexported, -⟩
    exact startsWithLetter_of_isName h (isName_of_isExported hexported)
  · obtain ⟨hexported, hname⟩ := isName_of_startsWithLetter h hletter
    obtain ⟨-, -, -, -, -, hkey⟩ := Token.isName_iff.1 hname
    exact ⟨hexported, hkey⟩
  · rintro ⟨source, file, d, hfile, hd, hkind, hmem⟩
    exact startsWithLetter_of_isName h (Grammar.isName_of_mem_names hfile hd hkind hmem)
  · obtain ⟨source, file, d, hfile, hd, hkind, hnames⟩ :=
      exists_declaration (isName_of_startsWithLetter h hletter).2
    exact ⟨source, file, d, hfile, hd, hkind, by simp [hnames]⟩
  · intro s hs
    have hname : exportedName name = .ok r := by rw [exportedName, h]
    cases s with
    | foreign v => simp [declaredName?] at hs
    | _ => simp only [declName, hs, hname]

theorem exported_declarable_underscored :
    isIdentifier "__http_2" = true ∧ exported? "__http_2" = some "Http2" ∧
    IsExported "Http2".toList ∧ isKeyword "Http2" = false ∧
    (∃ source file d, SourceFile.ofSource source = .ok file ∧ d ∈ file.decls ∧ d.kind = .type ∧
      "Http2" ∈ d.names) ∧
    declName (.user "__http_2" : TypeSpec Value) = .ok "Http2" := by
  have hident : isIdentifier "__http_2" = true := by decide +kernel
  have h : exported? "__http_2" = some "Http2" := by decide +kernel
  have hletter : startsWithLetter "__http_2" = true := by decide +kernel
  obtain ⟨hexported, hdeclared, -, hnamed⟩ := exported_declarable_iff (ρ := Value) h
  exact ⟨hident, h, (hexported.2 hletter).1, (hexported.2 hletter).2, hdeclared.2 hletter,
    hnamed _ rfl⟩

theorem exported_digit_first :
    isIdentifier "_1" = true ∧ exported? "_1" = some "1" ∧ isIdentifier "1" = false ∧
    declName (.user "_1" : TypeSpec Value) = .ok "1" ∧
    (SourceFile.ofSource ("package p\n\ntype 1 struct " ++ braced "\n" ++ "\n")).toOption.isNone =
      true := by
  decide +kernel

end Gosmith.TypeSpec
