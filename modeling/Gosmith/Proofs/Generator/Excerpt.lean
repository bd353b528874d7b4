import Gosmith.Proofs.Generator.Failures
import Gosmith.Proofs.Grammar.Faults
import Gosmith.Proofs.Lexeme.Position

namespace Gosmith.Report

open Gosmith.Text

/-- The rows are the lines of a text from `first` to `last`, each behind its number, and the only
marked one is that of `line`. -/
structure Window (source : String) (line first last : Nat) (rows : List String) : Prop where
  count : rows.length = last + 1 - first
  row : ∀ n, first ≤ n → n ≤ last → ∃ text, (lines source)[n - 1]? = some text ∧
    rows[n - first]? =
      some ((if n = line then ">" else " ") ++ padLeft 4 n.repr ++ " | " ++ text)
  marked : ∃! k : Nat, ∃ row : String, rows[k]? = some row ∧ row.toList.head? = some '>'

theorem excerptLine_eq (line number : Nat) (text : String) :
    excerptLine (some line) number text =
      (if number = line then ">" else " ") ++ padLeft 4 number.repr ++ " | " ++ text := by
  have hsame : some (line : Int) = some (number : Int) ↔ number = line := by
    rw [Option.some.injEq]
    omega
  simp only [excerptLine, hsame]

theorem head_excerptLine (line number : Nat) (text : String) :
    (excerptLine (some line) number text).toList.head? = some '>' ↔ number = line := by
  rw [excerptLine_eq]
  split
  · rename_i h
    simp [h]
  · rename_i h
    simp [h]

theorem newline_notMem_excerptLine (line number : Nat) {text : String} (h : '\n' ∉ text.toList) :
    '\n' ∉ (excerptLine (some line) number text).toList := by
  have hdigits : '\n' ∉ Nat.toDigits 10 number := by
    intro hmem
    simpa using Nat.isDigit_of_mem_toDigits (by omega) (by omega) hmem
  have hnumber : '\n' ∉ (padLeft 4 number.repr).toList := by
    simp [padLeft, Nat.toList_repr, hdigits]
  have hmark : '\n' ∉ (if number = line then ">" else " ").toList := by
    split
    · decide
    · decide
  simp [excerptLine_eq, hmark, hnumber, h]

def shown (source : String) (line : Nat) : List (String × Nat) :=
  (((lines source).zipIdx 1).take (min (lines source).length (line + 2))).drop (line - 3)

variable {source : String} {line : Nat}

theorem getElem?_shown (k : Nat) :
    (shown source line)[k]? =
      if line - 3 + k < min (lines source).length (line + 2) then
        (lines source)[line - 3 + k]?.map (·, 1 + (line - 3 + k))
      else none := by
  rw [shown, List.getElem?_drop, List.getElem?_take, List.getElem?_zipIdx]

theorem exists_shown {n : Nat} (hn : line - 3 + 1 ≤ n)
    (hlast : n ≤ min (lines source).length (line + 2)) :
    ∃ text, (lines source)[n - 1]? = some text ∧
      (shown source line)[n - (line - 3 + 1)]? = some (text, n) := by
  have hindex : line - 3 + (n - (line - 3 + 1)) = n - 1 := by omega
  have hnumber : 1 + (n - 1) = n := by omega
  have htext := List.getElem?_eq_getElem (l := lines source) (i := n - 1) (by omega)
  refine ⟨_, htext, ?_⟩
  rw [getElem?_shown, hindex, if_pos (by omega), htext, Option.map_some, hnumber]

theorem length_shown (source : String) (line : Nat) :
    (shown source line).length = min (lines source).length (line + 2) - (line - 3) := by
  simp [shown]

theorem excerpt_eq (hne : source ≠ "") :
    excerpt source (some line) 2 =
      "\n".intercalate ((shown source line).map fun p => excerptLine (some line) p.2 p.1) := by
  have hstart : (max 0 ((line : Int) - 1 - 2)).toNat = line - 3 := by omega
  have hstop : (min ((lines source).length : Int) (line + 2)).toNat =
      min (lines source).length (line + 2) := by omega
  have hempty : source.isEmpty = false := by simpa using hne
  simp only [excerpt, hempty, Bool.false_eq_true, if_false, excerptRange, hstart, hstop, shown]

theorem lines_excerpt (hne : source ≠ "") (hpos : 1 ≤ line) (hle : line ≤ (lines source).length) :
    lines (excerpt source (some line) 2) =
      (shown source line).map fun p => excerptLine (some line) p.2 p.1 := by
  rw [excerpt_eq hne]
  apply lines_intercalate
  · have hlength := length_shown source line
    intro hnil
    rw [List.map_eq_nil_iff] at hnil
    rw [hnil, List.length_nil] at hlength
    omega
  · intro row hrow
    obtain ⟨⟨l, n⟩, hmem, rfl⟩ := List.mem_map.1 hrow
    have hzip : (l, n) ∈ (lines source).zipIdx 1 := List.mem_of_mem_take (List.mem_of_mem_drop hmem)
    exact newline_notMem_excerptLine line n (notMem_of_mem_lines (List.fst_mem_of_mem_zipIdx hzip))

theorem window_excerpt (hne : source ≠ "") (hpos : 1 ≤ line) (hle : line ≤ (lines source).length) :
    Window source line (max 1 (line - 2)) (min (lines source).length (line + 2))
      (lines (excerpt source (some line) 2)) := by
  have hfirst : max 1 (line - 2) = line - 3 + 1 := by omega
  rw [lines_excerpt hne hpos hle, hfirst]
  constructor
  · rw [List.length_map, length_shown]
    omega
  · intro n hn hlast
    obtain ⟨text, htext, hshown⟩ := exists_shown hn hlast
    refine ⟨text, htext, ?_⟩
    rw [List.getElem?_map, hshown, Option.map_some, excerptLine_eq]
  · obtain ⟨text, -, hshown⟩ := @exists_shown source line line (by omega) (by omega)
    refine ⟨line - (line - 3 + 1), ⟨excerptLine (some line) line text, ?_, ?_⟩, ?_⟩
    · rw [List.getElem?_map, hshown, Option.map_some]
    · exact (head_excerptLine line line text).2 rfl
    · rintro k ⟨row, hrow, hhead⟩
      rw [List.getElem?_map] at hrow
      obtain ⟨⟨l, n⟩, hget, rfl⟩ := Option.map_eq_some_iff.1 hrow
      have hn : n = line := (head_excerptLine line n l).1 hhead
      rw [getElem?_shown] at hget
      split at hget
      · obtain ⟨l', -, hpair⟩ := Option.map_eq_some_iff.1 hget
        cases hpair
        omega
      · simp at hget

theorem withExcerpt_eq {rows : List String} {first last : Nat} (message : String)
    (h : Window source line first last rows) {text : String} (htext : lines text = rows) :
    withExcerpt message text = message ++ "\n" ++ text := by
  have hne : text ≠ "" := by
    rintro rfl
    obtain ⟨k, ⟨row, hrow, hhead⟩, -⟩ := h.marked
    have hempty : row ∈ lines "" := by
      rw [htext]
      exact List.mem_of_getElem? hrow
    have : row = "" := by simpa [lines, splitWhen] using hempty
    simp [this] at hhead
  simp [withExcerpt, hne]

end Gosmith.Report

namespace Gosmith.Generator

open Gosmith.Go Gosmith.Text

def DeclareError.place? : DeclareError → Option (String × Nat)
  | invalidGo d source => some (source, d.pos.line)
  | dotImport spec source => some (source, spec.line)
  | _ => none

theorem pointsInto_of_ofSource {source : String} {d : Diagnostic} {ts : List Token}
    (h : SourceFile.ofSource source = .error d) (hts : Token.ofSource source = .ok ts) :
    Grammar.PointsInto ts d := by
  simp only [SourceFile.ofSource, hts] at h
  exact Grammar.ofTokens_error (Grammar.closed_ofSource hts) h

theorem within_of_ofSource {source : String} {d : Diagnostic}
    (h : SourceFile.ofSource source = .error d) : d.pos.Within source.toList := by
  cases hts : Token.ofSource source with
  | error e =>
      simp only [SourceFile.ofSource, hts] at h
      cases h
      exact Token.within_of_error hts
  | ok ts =>
      obtain ⟨t, ht, hpos⟩ := (pointsInto_of_ofSource h hts).place
      rw [hpos]
      exact Token.within_ofSource hts t ht

theorem within_of_spec {source : String} {file : SourceFile} {spec : ImportSpec}
    (h : SourceFile.ofSource source = .ok file) (hspec : spec ∈ file.imports) :
    1 ≤ spec.line ∧ spec.line ≤ (lines source).length := by
  obtain ⟨ts, vs, hts, hsub, hv⟩ := Grammar.spec_of_ofSource h hspec
  have hwithin : ∀ t ∈ vs, 1 ≤ t.pos.line ∧ t.pos.line ≤ (lines source).length := by
    intro t ht
    have hpos := Token.within_ofSource hts t (hsub ht)
    exact ⟨hpos.line_pos, hpos.line_le_length⟩
  cases hv with
  | plain => exact hwithin _ List.mem_cons_self
  | named => exact hwithin _ List.mem_cons_self

theorem place_of_absorb {g : Generator} {session : Template.Session} {rendered source : String}
    {e : DeclareError} {line : Nat} (h : (g.absorb session rendered).1 = .error e)
    (hplace : e.place? = some (source, line)) :
    source = rendered ∧ 1 ≤ line ∧ line ≤ (lines source).length := by
  cases hf : SourceFile.ofSource rendered with
  | error d =>
      simp only [absorb, hf] at h
      cases h
      cases hplace
      have hpos := within_of_ofSource hf
      exact ⟨rfl, hpos.line_pos, hpos.line_le_length⟩
  | ok file =>
      rw [absorb_fst g session hf, elim_eq_error] at h
      obtain ⟨spec, hspec, hfault⟩ := List.exists_of_findSome?_eq_some h
      unfold specFault? at hfault
      split at hfault
      · cases hfault
        cases hplace
        exact ⟨rfl, within_of_spec hf hspec⟩
      · split at hfault
        · cases hfault
          simp [DeclareError.place?] at hplace
        · simp at hfault

theorem render_ne_empty {engine : Template.Engine} {options : Template.Options} {tracked : Bool}
    {template data : Value} {session : Template.Session} {source : String}
    (h : (engine.render options tracked template data session).result = .ok source) :
    source ≠ "" := by
  unfold Template.Engine.render at h
  split at h
  · split at h
    · simp at h
    · simp at h
    · dsimp only at h
      split at h
      · simp at h
      · cases h
        intro hempty
        have := congrArg String.toList hempty
        simp [Template.snippetHeader] at this
  · simp at h

theorem place_of_declare {g : Generator} {template data : Value} {e : DeclareError}
    {source : String} {line : Nat} (h : (g.declare template data).1 = .error e)
    (hplace : e.place? = some (source, line)) :
    (g.rendering template data).result = .ok source ∧ 1 ≤ line ∧
      line ≤ (lines source).length := by
  cases hr : (g.rendering template data).result with
  | error f =>
      simp only [declare, hr] at h
      cases h
      simp [DeclareError.place?] at hplace
  | ok rendered =>
      simp only [declare, hr] at h
      obtain ⟨rfl, hline⟩ := place_of_absorb h hplace
      exact ⟨rfl, hline⟩

theorem report_of_place {e : DeclareError} {source : String} {line : Nat}
    (h : e.place? = some (source, line)) :
    ∃ message, e.report = Report.withExcerpt message (Report.excerpt source (some line) 2) := by
  cases e with
  | render e => simp [DeclareError.place?] at h
  | invalidGo d text =>
      cases h
      exact ⟨_, rfl⟩
  | dotImport spec text =>
      cases h
      exact ⟨_, rfl⟩
  | badImport f => simp [DeclareError.place?] at h

theorem diagnostics_point_into_text :
    (∀ source, (∃ file, SourceFile.ofSource source = .ok file) ∨
      ∃ d, SourceFile.ofSource source = .error d ∧ 1 ≤ d.pos.column ∧ 1 ≤ d.pos.line ∧
        d.pos.line ≤ (lines source).length ∧
        ∀ ts, Token.ofSource source = .ok ts → Grammar.PointsInto ts d) ∧
    ∀ (g : Generator) (template data : Value) (e : DeclareError) (source : String) (line : Nat),
      (g.declare template data).1 = .error e → e.place? = some (source, line) →
      (g.rendering template data).result = .ok source ∧
      Report.Window source line (max 1 (line - 2)) (min (lines source).length (line + 2))
        (lines (Report.excerpt source (some line) 2)) ∧
      ∃ message, e.report = message ++ "\n" ++ Report.excerpt source (some line) 2 := by
  constructor
  · intro source
    cases hf : SourceFile.ofSource source with
    | ok file => exact .inl ⟨file, rfl⟩
    | error d =>
        have hpos := within_of_ofSource hf
        exact .inr ⟨d, rfl, hpos.column_pos, hpos.line_pos, hpos.line_le_length,
          fun ts hts => pointsInto_of_ofSource hf hts⟩
  · intro g template data e source line he hplace
    obtain ⟨hrender, hpos, hle⟩ := place_of_declare he hplace
    have hwindow := Report.window_excerpt (render_ne_empty hrender) hpos hle
    obtain ⟨message, hreport⟩ := report_of_place hplace
    refine ⟨hrender, hwindow, message, ?_⟩
    rw [hreport, Report.withExcerpt_eq message hwindow rfl]

def unclosedTemplate : Value :=
  .text ("var x = 1\n\nfunc f() " ++ braced "\n\tg(]\n" ++ "\n")

def unclosedSource : String :=
  "package idlgen\n\nvar x = 1\n\nfunc f() " ++ braced "\n\tg(]\n" ++ "\n"

theorem diagnostics_point_into_text_unclosed : ∃ e,
    (({} : Generator).declare unclosedTemplate .null).1 = .error e ∧
    e.place? = some (unclosedSource, 6) ∧
    Report.excerpt unclosedSource (some 6) 2 =
      ("    4 | \n    5 | func f() " ++ braced "\n>   6 | \tg(]\n    7 | " ++ "\n    8 | ") ∧
    Report.Window unclosedSource 6 4 8 (lines (Report.excerpt unclosedSource (some 6) 2)) := by
  have hview : (({} : Generator).declare unclosedTemplate .null).1.mapError DeclareError.place? =
      .error (some (unclosedSource, 6)) := by decide +kernel
  cases he : (({} : Generator).declare unclosedTemplate .null).1 with
  | ok u => simp [he, Except.mapError] at hview
  | error e =>
      have hplace : e.place? = some (unclosedSource, 6) := by
        simpa [he, Except.mapError] using hview
      have hwindow := (diagnostics_point_into_text.2 {} unclosedTemplate .null e _ _ he hplace).2.1
      rw [show (lines unclosedSource).length = 8 by decide +kernel] at hwindow
      exact ⟨e, rfl, hplace, by decide +kernel, hwindow⟩

end Gosmith.Generator
