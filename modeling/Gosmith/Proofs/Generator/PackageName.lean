import Gosmith.Proofs.Generator.Printing
import Gosmith.Proofs.Layout.Reading

namespace Gosmith.Text

theorem chomp_cases (cs : List Char) : cs = chomp cs ∨ cs = chomp cs ++ ['\n'] := by
  unfold chomp
  split
  · rename_i rest heq
    refine .inr ?_
    rw [← List.reverse_reverse cs, heq, List.reverse_cons]
  · exact .inl rfl

end Gosmith.Text

namespace Gosmith.Go

open Gosmith.Text Gosmith.Imports

def IsNameText (s : String) : Prop :=
  ∃ c cs, s.toList = c :: cs ∧ isNameStart c = true ∧ ∀ d ∈ cs, isNameChar d = true

theorem isDigit_of_isAlpha {c : Char} (h : c.isAlpha = true) : c.isDigit = false := by
  unfold Char.isAlpha Char.isUpper Char.isLower at h
  simp only [Bool.or_eq_true, Bool.and_eq_true, decide_eq_true_eq, ge_iff_le,
    UInt32.le_iff_toNat_le, Char.reduceVal, UInt32.reduceToNat] at h
  simp only [Char.isDigit, Bool.and_eq_false_iff, decide_eq_false_iff_not, ge_iff_le,
    UInt32.le_iff_toNat_le, Char.reduceVal, UInt32.reduceToNat]
  omega

theorem startsWord_of_isNameStart {c : Char} (h : isNameStart c = true) :
    startsWord c = true ∧ isNameChar c = true := by
  simp only [isNameStart, Bool.or_eq_true, beq_iff_eq] at h
  rcases h with halpha | rfl
  · have hname : isNameChar c = true := by simp [isNameChar, Char.isAlphanum, halpha]
    exact ⟨startsWord_of_isNameChar hname (isDigit_of_isAlpha halpha), hname⟩
  · decide

namespace IsNameText

variable {s : String}

theorem isNameChar (h : IsNameText s) : ∀ c ∈ s.toList, isNameChar c = true := by
  obtain ⟨c, cs, hs, hc, hcs⟩ := h
  rw [hs]
  exact List.forall_mem_cons.2 ⟨(startsWord_of_isNameStart hc).2, hcs⟩

theorem newline_notMem (h : IsNameText s) : '\n' ∉ s.toList :=
  fun hmem => absurd (h.isNameChar '\n' hmem) (by decide)

theorem lexed (h : IsNameText s) :
    (Token.plain (if isKeyword s then .keyword else .ident) s).Lexed := by
  split
  · rename_i hkey
    exact Token.lexed_keyword (by simpa [isKeyword] using hkey)
  · rename_i hkey
    obtain ⟨c, cs, hs, hc, hcs⟩ := h
    refine Token.lexed_name (Token.isName_iff.2 ⟨c, cs, hs, (startsWord_of_isNameStart hc).1, ?_, ?_⟩)
    · exact fun d hd => isWord_of_isNameChar (hcs d hd)
    · exact Bool.eq_false_iff.2 hkey

end IsNameText

theorem isKeyword_of_isIdentifier {name : String} (h : isIdentifier name = true) :
    isKeyword name = false := by
  simp only [isIdentifier, Bool.and_eq_true, Bool.not_eq_true'] at h
  exact h.2

theorem isNameText_of_isIdentifier {name : String} (h : isIdentifier name = true) :
    ∃ base, (name = base ∨ name = base ++ "\n") ∧ IsNameText base := by
  refine ⟨String.ofList (chomp name.toList), ?_, ?_⟩
  · rcases chomp_cases name.toList with hsame | hline
    · exact .inl (String.toList_inj.1 (by rw [String.toList_ofList, ← hsame]))
    · exact .inr (String.toList_inj.1 (by simpa using hline))
  · simp only [isIdentifier, Bool.and_eq_true] at h
    obtain ⟨hword, -⟩ := h
    split at hword
    · simp at hword
    · rename_i c rest heq
      simp only [Bool.and_eq_true, List.all_eq_true] at hword
      exact ⟨c, rest, by rw [String.toList_ofList, heq], hword.1, hword.2⟩

namespace Layout

open Token.Pending

theorem reaches_newlines (s : Token.Pending) (n : Nat) :
    ∃ es s', s.Reaches (List.replicate n '\n') es s' [] ∧ es ++ s'.lineEnd = s.lineEnd := by
  induction n generalizing s with
  | zero => exact ⟨[], s, .refl s [], rfl⟩
  | succ n ih =>
      obtain ⟨s₁, hline, -, -, hbreaks⟩ := s.reaches_newline (List.replicate n '\n')
      have hnone : s₁.lineEnd = [] := by simp [lineEnd, hbreaks]
      obtain ⟨es, s', hreach, hend⟩ := ih s₁
      refine ⟨s.lineEnd ++ es, s', hline.trans hreach, ?_⟩
      rw [List.append_assoc, hend, hnone, List.append_nil]

theorem ofSource_printed_newlines {placed : List (Gap × Token)} {source : String} {n : Nat}
    (h : source.toList = printed placed ++ List.replicate n '\n')
    (hclears : Clears placed (List.replicate n '\n')) :
    ∃ us last e, Token.ofSource source = .ok (us ++ last) ∧ Read false placed us ∧
      Grammar.Terminator last [e] ∧ e.kind = .eof := by
  obtain ⟨us, s, hread, hreach, -⟩ := reaches_printed hclears (s := {}) ⟨rfl, rfl⟩
  obtain ⟨es, s', hlines, hend⟩ := reaches_newlines s n
  rw [← h] at hreach
  have hsource := ofSource_of_reaches (hreach.trans hlines)
  rw [finish, List.append_assoc, ← List.append_assoc es, hend] at hsource
  exact ⟨us, _, _, hsource, hread, terminator_lineEnd s rfl, rfl⟩

theorem ofSource_package {base source : String} {n : Nat} (hbase : IsNameText base)
    (h : source.toList = ("package " ++ base).toList ++ List.replicate n '\n') :
    if isKeyword base then ∃ d, SourceFile.ofSource source = .error d
    else SourceFile.ofSource source = .ok { package := base } := by
  have hpackage : (Token.plain .keyword "package").Lexed := Token.lexed_keyword (by decide)
  have hclears : Clears [(.none, .plain .keyword "package"),
      (.space, .plain (if isKeyword base then .keyword else .ident) base)]
      (List.replicate n '\n') := by
    refine clears_of_gapped ?_ (by simp) ?_
    · simpa using ⟨hpackage, hbase.lexed⟩
    · cases n with
      | zero => simp [Piece.Spaced]
      | succ n => simp [Piece.Spaced, List.replicate_succ]
  obtain ⟨us, last, e, hsource, hread, hlast, he⟩ := ofSource_printed_newlines
    (by rw [h]; simp [printed, Gap.chars, Token.plain]) hclears
  obtain ⟨k, us, rfl, hk, hread⟩ := hread.of_flat rfl
  obtain ⟨w, us, rfl, hw, hread⟩ := hread.of_flat rfl
  obtain rfl := hread.of_nil
  have hkeyword : k.isKeyword "package" = true := by
    simp [Token.isKeyword, hk.kind, hk.text, Token.plain]
  have hclosed := Grammar.closed_ofSource hsource
  have hkind : w.kind = if isKeyword base then .keyword else .ident := hw.kind
  rw [SourceFile.ofSource, hsource]
  split
  · rename_i hkey
    rw [if_pos hkey] at hkind
    exact ⟨_, by simp [SourceFile.ofTokens, SourceFile.packageClause, SourceFile.peek, hkeyword,
      hkind, SourceFile.fail]; rfl⟩
  · rename_i hkey
    rw [if_neg hkey] at hkind
    obtain ⟨⟨package, imports, decls⟩, hfile, hname, himports, hdecls⟩ :=
      Grammar.ofTokens_of_file hclosed (.mk hkeyword hkind hlast .nil (.nil he))
    obtain rfl : w.text = base := hw.text
    simp only [List.map_eq_nil_iff] at hname himports hdecls
    rw [hname, himports, hdecls] at hfile
    exact hfile

end Layout

end Gosmith.Go

namespace Gosmith.Generator

open Gosmith.Go

theorem validate_iff {p : Policy} : p.validate = .ok () ↔
    ∃ name, p.packageName = .text name ∧ isIdentifier name = true ∧ name ≠ blankName := by
  unfold Policy.validate
  cases hp : p.packageName with
  | text name =>
      cases hname : isIdentifier name with
      | false => simp [hname]
      | true =>
          by_cases hblank : name = blankName
          · subst hblank
            simp [hname]
          · simp [hname, hblank]
  | _ => simp

theorem render_new {policy : Policy} {options : Template.Options} {engine : Template.Engine}
    {name : String} (hname : policy.packageName = .text name)
    (h : Document.isPackageName name = true) :
    render { policy := policy, options := options, engine := engine } =
      .ok ("package " ++ name ++ "\n") := by
  have harranged : arranged { policy := policy, options := options, engine := engine } = [] := by
    rw [List.eq_nil_iff_forall_not_mem]
    intro d hd
    simpa using mem_of_mem_arranged hd
  have hblock : ({} : Imports.Table).block = [] := by simp [Imports.Table.block]
  simp only [render, hname, harranged, hblock, Policy.packageText]
  simp [bind, Except.bind, Document.render, h, Document.blocks, Document.declTexts, Except.map]

theorem package_name_comes_back_iff (engine : Template.Engine) (policy : Policy)
    (options : Template.Options) (h : policy.validate = .ok ()) :
    ∃ g name base text, Generator.new policy options engine = .ok g ∧
      policy.packageName = .text name ∧ (name = base ∨ name = base ++ "\n") ∧
      g.render = .ok text ∧ text = "package " ++ name ++ "\n" ∧
      ((∃ file, SourceFile.ofSource text = .ok file) ↔ isKeyword base = false) ∧
      (∀ file, SourceFile.ofSource text = .ok file → file = { package := base }) ∧
      ((∃ file, SourceFile.ofSource text = .ok file ∧ file.package = name) ↔
        '\n' ∉ name.toList) := by
  obtain ⟨name, hname, hident, hblank⟩ := validate_iff.1 h
  obtain ⟨base, hbase, htext⟩ := isNameText_of_isIdentifier hident
  have hnokey := isKeyword_of_isIdentifier hident
  have hread : ∃ n, ("package " ++ name ++ "\n").toList =
      ("package " ++ base).toList ++ List.replicate n '\n' := by
    rcases hbase with rfl | rfl
    · exact ⟨1, by simp⟩
    · exact ⟨2, by simp⟩
  obtain ⟨n, hn⟩ := hread
  have hsource := Layout.ofSource_package htext hn
  have hnew : Generator.new policy options engine =
      .ok { policy := policy, options := options, engine := engine } := by
    simp [Generator.new, h, bind, Except.bind, pure, Except.pure]
  have hrender := @render_new policy options engine name hname
    (Document.isPackageName_iff.2 ⟨hident, hblank⟩)
  have hsame : '\n' ∉ name.toList ↔ base = name := by
    rcases hbase with rfl | rfl
    · simpa using htext.newline_notMem
    · simp [← String.toList_inj]
  refine ⟨_, name, base, _, hnew, hname, hbase, hrender, rfl, ?_⟩
  cases hkey : isKeyword base with
  | true =>
      rw [hkey, if_pos rfl] at hsource
      obtain ⟨d, hd⟩ := hsource
      have hne : base ≠ name := by
        rintro rfl
        simp [hkey] at hnokey
      refine ⟨by simp [hd], by simp [hd], ?_⟩
      rw [hsame]
      simp [hd, hne]
  | false =>
      rw [hkey, if_neg (by simp)] at hsource
      rw [hsource, hsame]
      simp

theorem package_name_comes_back_underscored :
    ({ packageName := .text "go_2" } : Policy).validate = .ok () ∧ ∃ g text,
      Generator.new { packageName := .text "go_2" } {} Template.engine = .ok g ∧ g.render = .ok text ∧
      SourceFile.ofSource text = .ok { package := "go_2" } := by
  have hvalid : ({ packageName := .text "go_2" } : Policy).validate = .ok () :=
    validate_iff.2 ⟨"go_2", rfl, by decide +kernel, by decide⟩
  obtain ⟨g, name, base, text, hnew, hname, hbase, hrender, -, -, hfile, hback⟩ :=
    package_name_comes_back_iff Template.engine { packageName := .text "go_2" } {} hvalid
  cases hname
  obtain ⟨file, hsource, hpackage⟩ := hback.2 (by decide +kernel)
  obtain rfl := hfile file hsource
  refine ⟨hvalid, g, text, hnew, hrender, ?_⟩
  rw [hsource, show base = "go_2" from hpackage]

theorem package_name_with_newline_lost :
    ({ packageName := .text "gen\n" } : Policy).validate = .ok () ∧
    (render { policy := { packageName := .text "gen\n" } }).toOption = some "package gen\n\n" ∧
    (SourceFile.ofSource "package gen\n\n").toOption = some { package := "gen" } ∧
    ({ packageName := .text "func\n" } : Policy).validate = .ok () ∧
    (render { policy := { packageName := .text "func\n" } }).toOption = some "package func\n\n" ∧
    (SourceFile.ofSource "package func\n\n").toOption = none := by
  refine ⟨validate_iff.2 ⟨"gen\n", rfl, by decide +kernel, by decide⟩, ?_, by decide +kernel,
    validate_iff.2 ⟨"func\n", rfl, by decide +kernel, by decide⟩, ?_, by decide +kernel⟩
  · rw [render_new rfl (by decide +kernel)]
    decide
  · rw [render_new rfl (by decide +kernel)]
    decide

end Gosmith.Generator
