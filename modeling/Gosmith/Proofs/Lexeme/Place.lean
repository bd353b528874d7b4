import Gosmith.Proofs.Lexeme.LineEnd
import Gosmith.Proofs.Text.Lines

namespace Gosmith.Text

theorem exists_lastLine (cs : List Char) : ∃ above, cs = above ++ lastLine cs ∧
    '\n' ∉ lastLine cs ∧ (above = [] ∨ above.getLast? = some '\n') := by
  refine ⟨(cs.reverse.dropWhile (· != '\n')).reverse, ?_, ?_, ?_⟩
  · rw [lastLine, ← List.reverse_append, List.takeWhile_append_dropWhile, List.reverse_reverse]
  · intro hmem
    simpa using List.mem_takeWhile_imp (List.mem_reverse.1 hmem)
  · rw [List.getLast?_reverse, List.reverse_eq_nil_iff]
    have hhead := List.head?_dropWhile_not (· != '\n') cs.reverse
    cases hrest : cs.reverse.dropWhile (· != '\n') with
    | nil => exact .inl rfl
    | cons c rest => exact .inr (by simpa [hrest] using hhead)

end Gosmith.Text

namespace Gosmith.Go

open Gosmith.Text

/-- The place right after a text: the line counts its newlines, and the column its characters after
the last one. -/
structure Position.EndOf (pos : Position) (text : List Char) : Prop where
  line : pos.line = text.count '\n' + 1
  column : ∃ above last, text = above ++ last ∧ '\n' ∉ last ∧
    (above = [] ∨ above.getLast? = some '\n') ∧ pos.column = last.length + 1

namespace Piece

def Continued (p : Piece) : Prop :=
  p.kind = .string ∧ '\n' ∈ p.text

def uncounted (p : Piece) : Nat :=
  if p.kind = .string then p.text.count '\n' else 0

theorem uncounted_eq_zero_iff (p : Piece) : p.uncounted = 0 ↔ ¬ p.Continued := by
  by_cases hkind : p.kind = .string <;> simp [uncounted, Continued, hkind, List.count_eq_zero]

theorem not_continued_of_isGap {p : Piece} (h : p.kind.isGap = true) : ¬ p.Continued := by
  rintro ⟨hkind, -⟩
  simp [hkind, Kind.isGap] at h

end Piece

namespace Position

open Piece (texts)

theorem line_advance (pos : Position) (p : Piece) :
    (pos.advance p).line + p.uncounted = pos.line + p.text.count '\n' := by
  by_cases hkind : p.kind = .string
  · simp [advance, Piece.uncounted, hkind]
  · by_cases hline : p.text.count '\n' = 0 <;>
      simp [advance, Piece.uncounted, hkind, count_eq_count, hline]

theorem line_foldl (pos : Position) (ps : List Piece) :
    (ps.foldl advance pos).line + (texts (ps.filter (·.kind = .string))).count '\n' =
      pos.line + (texts ps).count '\n' := by
  induction ps generalizing pos with
  | nil => rfl
  | cons p ps ih =>
      have hhead := pos.line_advance p
      have htail := ih (pos.advance p)
      rw [List.foldl_cons, Piece.texts_cons, List.count_append]
      by_cases hkind : p.kind = .string
      · rw [List.filter_cons_of_pos (by simpa using hkind), Piece.texts_cons, List.count_append]
        rw [Piece.uncounted, if_pos hkind] at hhead
        omega
      · rw [List.filter_cons_of_neg (by simpa using hkind)]
        rw [Piece.uncounted, if_neg hkind] at hhead
        omega

namespace EndOf

variable {pos : Position} {text : List Char}

theorem advance (h : pos.EndOf text) {p : Piece} (hp : ¬ p.Continued) :
    (pos.advance p).EndOf (text ++ p.text) := by
  obtain ⟨above, last, htext, hlast, habove, hcolumn⟩ := h.column
  have hline := pos.line_advance p
  rw [(p.uncounted_eq_zero_iff).2 hp, Nat.add_zero, h.line] at hline
  refine ⟨by rw [hline, List.count_append]; omega, ?_⟩
  by_cases hfree : '\n' ∈ p.text
  · -- the last line starts inside the piece
    have hstring : p.kind ≠ .string := fun hkind => hp ⟨hkind, hfree⟩
    have hcount : p.text.count '\n' ≠ 0 := (List.count_pos_iff.2 hfree).ne'
    obtain ⟨before, hbefore, hnone, hend⟩ := exists_lastLine p.text
    have hne : before ≠ [] := by
      intro hnil
      rw [hnil, List.nil_append] at hbefore
      rw [← hbefore] at hnone
      exact hnone hfree
    refine ⟨text ++ before, lastLine p.text, ?_, hnone, .inr ?_, ?_⟩
    · rw [List.append_assoc, ← hbefore]
    · rw [List.getLast?_append_of_ne_nil _ hne]
      exact hend.resolve_left hne
    · simp [Position.advance, hstring, count_eq_count, hcount]
  · have hcount : p.text.count '\n' = 0 := List.count_eq_zero.2 hfree
    refine ⟨above, last ++ p.text, by rw [htext, List.append_assoc], ?_, habove, ?_⟩
    · simp [hlast, hfree]
    · simp [Position.advance, count_eq_count, hcount, hcolumn]
      omega

theorem foldl (h : pos.EndOf text) {ps : List Piece} (hps : ∀ p ∈ ps, ¬ p.Continued) :
    (ps.foldl Position.advance pos).EndOf (text ++ texts ps) := by
  induction ps generalizing pos text with
  | nil => simpa [texts] using h
  | cons p ps ih =>
      obtain ⟨hp, hps⟩ := List.forall_mem_cons.1 hps
      rw [Piece.texts_cons, ← List.append_assoc]
      exact ih (h.advance hp) hps

end EndOf

theorem endOf_foldl_iff (ps : List Piece) :
    (ps.foldl advance ⟨1, 1⟩).EndOf (texts ps) ↔ ∀ p ∈ ps, ¬ p.Continued := by
  constructor
  · rintro h p hp ⟨hkind, hfeed⟩
    have hline := line_foldl ⟨1, 1⟩ ps
    rw [h.line] at hline
    have hnone : (texts (ps.filter (·.kind = .string))).count '\n' = 0 := by
      dsimp only at hline
      omega
    have hstring : p ∈ ps.filter (·.kind = .string) :=
      List.mem_filter.2 ⟨hp, decide_eq_true hkind⟩
    exact List.count_eq_zero.1 hnone
      (List.mem_flatten.2 ⟨p.text, List.mem_map_of_mem hstring, hfeed⟩)
  · intro h
    have hstart : (⟨1, 1⟩ : Position).EndOf [] := ⟨rfl, [], [], rfl, by simp, .inl rfl, rfl⟩
    exact hstart.foldl h

end Position

namespace Piece

theorem Divided.continued_iff {lead : List Piece} {ss : List Stretch} {rest cs : List Char}
    (h : Divided lead ss rest cs) (k : Nat) :
    (∀ p ∈ lead ++ (ss.take k).flatMap Stretch.pieces, ¬ p.Continued) ↔
      ∀ s ∈ ss.take k, ¬ s.lexeme.Continued := by
  constructor
  · intro hall s hs
    refine hall s.lexeme (List.mem_append_right lead (List.mem_flatMap.2 ⟨s, hs, ?_⟩))
    exact List.mem_cons_self
  · intro hss p hp
    rcases List.mem_append.1 hp with hp | hp
    · exact not_continued_of_isGap (h.lead.isGap p hp)
    · obtain ⟨s, hs, hp⟩ := List.mem_flatMap.1 hp
      rcases List.mem_cons.1 hp with rfl | hp
      · exact hss s hs
      · exact not_continued_of_isGap ((h.sound s (List.mem_of_mem_take hs)).gap p hp)

theorem Divided.endOf_iff {lead : List Piece} {ss : List Stretch} {rest cs : List Char}
    (h : Divided lead ss rest cs) (k : Nat) :
    ((lead ++ (ss.take k).flatMap Stretch.pieces).foldl Position.advance ⟨1, 1⟩).EndOf
        (texts lead ++ (ss.take k).flatMap Stretch.text) ↔
      ∀ s ∈ ss.take k, ¬ s.lexeme.Continued := by
  rw [← texts_pieces, ← texts_append, Position.endOf_foldl_iff, h.continued_iff]

theorem lexemes_append (ps qs : List Piece) : lexemes (ps ++ qs) = lexemes ps ++ lexemes qs :=
  List.filter_append ps qs

theorem lexemes_gap {gs : List Piece} (hgs : ∀ g ∈ gs, g.kind.isGap = true) : lexemes gs = [] := by
  rw [lexemes, List.filter_eq_nil_iff]
  intro g hg
  simp [hgs g hg]

theorem lexemes_pieces {ss : List Stretch} (hss : ∀ s ∈ ss, s.Sound) :
    lexemes (ss.flatMap Stretch.pieces) = ss.map Stretch.lexeme := by
  induction ss with
  | nil => rfl
  | cons s ss ih =>
      obtain ⟨⟨hlexeme, hgap⟩, hss⟩ := List.forall_mem_cons.1 hss
      have hone : lexemes [s.lexeme] = [s.lexeme] := by simp [lexemes, hlexeme.isGap]
      rw [List.flatMap_cons, Stretch.pieces, ← List.singleton_append, lexemes_append,
        lexemes_append, hone, lexemes_gap hgap, ih hss, List.map_cons, List.append_nil,
        List.singleton_append]

end Piece

namespace Token

open Piece (Stretch Divided texts)

namespace Pending

theorem pos_step (s : Pending) (p : Piece) : (s.step p).2.pos = s.pos.advance p := by
  simp only [step]
  split
  · split <;> rfl
  · rfl

theorem pos_run (s : Pending) (ps : List Piece) :
    (s.run ps).2.pos = ps.foldl Position.advance s.pos := by
  induction ps generalizing s with
  | nil => rfl
  | cons p ps ih => rw [run_cons, ih, pos_step, List.foldl_cons]

theorem withoutAuto_gap (s : Pending) {gs : List Piece} (hgs : ∀ g ∈ gs, g.kind.isGap = true) :
    withoutAuto (s.run gs).1 = [] := by
  rw [withoutAuto, List.filter_eq_nil_iff]
  intro e he
  simp [(s.run_gap hgs).1.auto e he]

theorem withoutAuto_finish (s : Pending) : withoutAuto s.finish = [s.eof] := by
  rw [finish_eq, withoutAuto_append, withoutAuto_lineEnd]
  rfl

theorem pos_of_run {ss : List Stretch} (hss : ∀ st ∈ ss, st.Sound) {s : Pending} {k : Nat}
    {t : Token}
    (ht : (withoutAuto ((s.run (ss.flatMap Stretch.pieces)).1 ++
      (s.run (ss.flatMap Stretch.pieces)).2.finish))[k]? = some t) :
    t.pos = ((ss.take k).flatMap Stretch.pieces).foldl Position.advance s.pos := by
  induction ss generalizing s k with
  | nil =>
      rw [List.flatMap_nil, run, List.nil_append, withoutAuto_finish] at ht
      cases k with
      | zero =>
          rw [List.getElem?_cons_zero, Option.some.injEq] at ht
          rw [← ht]
          rfl
      | succ k => simp at ht
  | cons st ss ih =>
      obtain ⟨⟨hlexeme, hgap⟩, hss⟩ := List.forall_mem_cons.1 hss
      rw [List.flatMap_cons, Stretch.pieces, List.cons_append, run_cons, run_append,
        step_lexeme hlexeme.isGap, List.append_assoc, List.append_assoc, withoutAuto_append,
        withoutAuto_append, withoutAuto_token, withoutAuto_gap _ hgap, List.nil_append,
        List.singleton_append] at ht
      cases k with
      | zero =>
          rw [List.getElem?_cons_zero, Option.some.injEq] at ht
          rw [← ht]
          rfl
      | succ k =>
          rw [List.getElem?_cons_succ] at ht
          rw [ih hss ht, pos_run, List.take_succ_cons, List.flatMap_cons, List.foldl_append]
          rfl

end Pending

theorem withoutAuto_of_run (s : Pending) (ps : List Piece) :
    withoutAuto ((s.run ps).1 ++ (s.run ps).2.finish) =
      written (s.run ps).1 ++ [(s.run ps).2.eof] := by
  rw [withoutAuto_append, Pending.withoutAuto_finish]
  congr 1
  rw [withoutAuto, written]
  refine List.filter_congr fun t ht => ?_
  simp [Pending.kind_of_mem_run ht]

theorem ofSource_pos_iff (source : String) :
    (∀ ts, ofSource source = .ok ts → ∃ lead ss, Divided lead ss [] source.toList ∧
      (withoutAuto ts).map key = ss.map (fun s => s.lexeme.key) ++ [(.eof, "")] ∧
      ∀ k t, (withoutAuto ts)[k]? = some t →
        (t.pos.EndOf (texts lead ++ (ss.take k).flatMap Stretch.text) ↔
          ∀ s ∈ ss.take k, ¬ s.lexeme.Continued)) ∧
    ∀ d, ofSource source = .error d → ∃ lead ss c rest,
      Divided lead ss (c :: rest) source.toList ∧ Piece.next c rest = .error d.fault ∧
      (d.pos.EndOf (texts lead ++ ss.flatMap Stretch.text) ↔
        ∀ s ∈ ss, ¬ s.lexeme.Continued) := by
  obtain ⟨lead, ss, rest, hdivided, hpieces, hstuck⟩ := Piece.exists_divided source.toList
  constructor
  · intro ts hts
    obtain ⟨hnone, hts⟩ := ofSource_eq_ok.1 hts
    rw [hnone] at hstuck
    obtain rfl : rest = [] := hstuck
    refine ⟨lead, ss, hdivided, ?_, fun k t ht => ?_⟩
    · rw [hts, withoutAuto_of_run, List.map_append, Pending.written_run, hpieces,
        Piece.lexemes_append, Piece.lexemes_gap hdivided.lead.isGap,
        Piece.lexemes_pieces hdivided.sound, List.nil_append, List.map_map]
      rfl
    · rw [hts, hpieces, Pending.run_append, List.append_assoc, withoutAuto_append,
        Pending.withoutAuto_gap _ hdivided.lead.isGap, List.nil_append] at ht
      rw [Pending.pos_of_run hdivided.sound ht, Pending.pos_run, ← List.foldl_append]
      exact hdivided.endOf_iff k
  · intro d hd
    obtain ⟨hfault, hpos⟩ := ofSource_eq_error.1 hd
    rw [hfault] at hstuck
    obtain ⟨c, more, rfl, hnext⟩ := hstuck
    refine ⟨lead, ss, c, more, hdivided, hnext, ?_⟩
    have hall := hdivided.endOf_iff ss.length
    rw [List.take_length] at hall
    rwa [hpos, hpieces, Pending.pos_run]

def placeSource : String :=
  "a /* x\n */ " ++ backquoted "b\n" ++ " \"c\" d"

def faultSource : String :=
  "a // x\n " ++ backquoted "\n" ++ " \"c"

theorem ofSource_pos_iff_multiline :
    (∃ ts, ofSource placeSource = .ok ts ∧
      (withoutAuto ts).map (fun t => (t.text, t.pos)) = [("a", ⟨1, 1⟩), (backquoted "b\n", ⟨2, 5⟩),
        ("\"c\"", ⟨3, 3⟩), ("d", ⟨3, 7⟩), ("", ⟨3, 8⟩)] ∧
      ∃ lead ss, Divided lead ss [] placeSource.toList ∧
        (withoutAuto ts).map key = ss.map (fun s => s.lexeme.key) ++ [(.eof, "")] ∧
        ∀ k t, (withoutAuto ts)[k]? = some t →
          (t.pos.EndOf (texts lead ++ (ss.take k).flatMap Stretch.text) ↔
            ∀ s ∈ ss.take k, ¬ s.lexeme.Continued)) ∧
    ∃ d, ofSource faultSource = .error d ∧ d.pos = ⟨3, 3⟩ ∧ ∃ lead ss c rest,
      Divided lead ss (c :: rest) faultSource.toList ∧ Piece.next c rest = .error d.fault ∧
      (d.pos.EndOf (texts lead ++ ss.flatMap Stretch.text) ↔
        ∀ s ∈ ss, ¬ s.lexeme.Continued) := by
  constructor
  · have hview : (ofSource placeSource).toOption.map
        (fun ts => (withoutAuto ts).map fun t => (t.text, t.pos)) =
          some [("a", ⟨1, 1⟩), (backquoted "b\n", ⟨2, 5⟩), ("\"c\"", ⟨3, 3⟩), ("d", ⟨3, 7⟩),
            ("", ⟨3, 8⟩)] := by
      decide +kernel
    obtain ⟨ts, hts, hplaces⟩ := exists_ok_of_view hview
    exact ⟨ts, hts, hplaces, (ofSource_pos_iff placeSource).1 ts hts⟩
  · have hfault : (ofSource faultSource).map (fun _ => ()) = .error ⟨.openString, ⟨3, 3⟩⟩ := by
      decide +kernel
    cases hd : ofSource faultSource with
    | ok ts => simp [hd, Except.map] at hfault
    | error d =>
        simp only [hd, Except.map, Except.error.injEq] at hfault
        exact ⟨d, rfl, by rw [hfault], (ofSource_pos_iff faultSource).2 d hd⟩

theorem pos_after_continued_string : ∃ ts t, ofSource "\"\\\n\" x" = .ok ts ∧ t ∈ ts ∧
    t.text = "x" ∧ t.pos = ⟨1, 6⟩ ∧ "\"\\\n\" x".toList = "\"\\\n\" ".toList ++ ['x'] ∧
    ¬ t.pos.EndOf "\"\\\n\" ".toList ∧ (⟨2, 3⟩ : Position).EndOf "\"\\\n\" ".toList := by
  have hview : (ofSource "\"\\\n\" x").toOption.map
      (fun ts => (ts.find? fun t => t.text = "x").map fun t => t.pos) = some (some ⟨1, 6⟩) := by
    decide +kernel
  obtain ⟨ts, hts, hfind⟩ := exists_ok_of_view hview
  obtain ⟨t, ht, hpos⟩ := Option.map_eq_some_iff.1 hfind
  have htext : t.text = "x" := by simpa using List.find?_some ht
  refine ⟨ts, t, hts, List.mem_of_find?_eq_some ht, htext, hpos, by decide, fun hend => ?_, ?_⟩
  · have hline := hend.line
    rw [hpos] at hline
    exact absurd hline (by decide)
  · exact ⟨by decide, "\"\\\n".toList, "\" ".toList, by decide, by decide, .inr (by decide),
      by decide⟩

end Token

end Gosmith.Go
