import Gosmith.Proofs.Lexeme.Trivia

namespace Gosmith

theorem exists_ok_of_view {ε α β : Type} {r : Except ε α} {view : α → β} {seen : β}
    (h : r.toOption.map view = some seen) : ∃ a, r = .ok a ∧ view a = seen := by
  cases r with
  | error e => simp [Except.toOption] at h
  | ok a => exact ⟨a, rfl, by simpa [Except.toOption] using h⟩

end Gosmith

namespace Gosmith.Go

open Gosmith.Text

namespace Piece

structure Stretch where
  lexeme : Piece
  gap : List Piece

def Stretch.pieces (s : Stretch) : List Piece :=
  s.lexeme :: s.gap

def Stretch.text (s : Stretch) : List Char :=
  s.lexeme.text ++ texts s.gap

structure Stretch.Sound (s : Stretch) : Prop where
  lexeme : Lexeme s.lexeme
  gap : ∀ g ∈ s.gap, g.kind.isGap = true

structure Divided (lead : List Piece) (ss : List Stretch) (rest cs : List Char) : Prop where
  text : cs = texts lead ++ (ss.flatMap Stretch.text ++ rest)
  lead : Trivia lead (ss.flatMap Stretch.text ++ rest)
  stretches : ∀ s after, s :: after <:+ ss →
    Lexeme s.lexeme ∧ Trivia s.gap (after.flatMap Stretch.text ++ rest)

def Stuck : Option Fault → List Char → Prop
  | none, rest => rest = []
  | some fault, rest => ∃ c more, rest = c :: more ∧ next c more = .error fault

theorem Trivia.isGap {ps : List Piece} {after : List Char} (h : Trivia ps after) :
    ∀ p ∈ ps, p.kind.isGap = true := by
  induction h with
  | nil => simp
  | blank _ _ _ _ ih => exact List.forall_mem_cons.2 ⟨rfl, ih⟩
  | newline _ ih => exact List.forall_mem_cons.2 ⟨rfl, ih⟩
  | lineComment _ _ _ ih => exact List.forall_mem_cons.2 ⟨rfl, ih⟩
  | blockComment _ _ ih => exact List.forall_mem_cons.2 ⟨rfl, ih⟩

theorem texts_pieces (ss : List Stretch) :
    texts (ss.flatMap Stretch.pieces) = ss.flatMap Stretch.text := by
  induction ss with
  | nil => rfl
  | cons s ss ih =>
      rw [List.flatMap_cons, List.flatMap_cons, texts_append, ih, Stretch.pieces, texts_cons,
        Stretch.text]

namespace Divided

variable {lead : List Piece} {ss : List Stretch} {rest cs : List Char} {p : Piece}

theorem cons_gap (h : Divided lead ss rest cs) (hp : Trivia [p] cs) :
    Divided (p :: lead) ss rest (p.text ++ cs) := by
  refine ⟨by rw [texts_cons, List.append_assoc, ← h.text], ?_, h.stretches⟩
  exact Trivia.append (h.text ▸ hp) h.lead

theorem cons_lexeme (h : Divided lead ss rest cs) (hp : Lexeme p) :
    Divided [] (⟨p, lead⟩ :: ss) rest (p.text ++ cs) := by
  refine ⟨?_, .nil, fun s after hsuffix => ?_⟩
  · simp [h.text, Stretch.text, texts]
  · rcases List.suffix_cons_iff.1 hsuffix with heq | hsuffix
    · obtain ⟨rfl, rfl⟩ := List.cons.inj heq
      exact ⟨hp, h.lead⟩
    · exact h.stretches s after hsuffix

theorem sound (h : Divided lead ss rest cs) : ∀ s ∈ ss, s.Sound := by
  intro s hs
  obtain ⟨before, after, rfl⟩ := List.append_of_mem hs
  obtain ⟨hlexeme, hgap⟩ := h.stretches s after (List.suffix_append before _)
  exact ⟨hlexeme, hgap.isGap⟩

end Divided

theorem exists_divided (cs : List Char) : ∃ lead ss rest, Divided lead ss rest cs ∧
    (split cs).1 = lead ++ ss.flatMap Stretch.pieces ∧ Stuck (split cs).2 rest := by
  fun_induction split cs with
  | case1 => exact ⟨[], [], [], ⟨rfl, .nil, by simp⟩, rfl, rfl⟩
  | case2 c more fault h =>
      exact ⟨[], [], c :: more, ⟨rfl, .nil, by simp⟩, rfl, c, more, rfl, h⟩
  | case3 c more p after h ih =>
      obtain ⟨lead, ss, rest, hdivided, hpieces, hstuck⟩ := ih
      rw [← (next_append h).1, hpieces]
      cases hgap : p.kind.isGap with
      | true =>
          exact ⟨p :: lead, ss, rest, hdivided.cons_gap (trivia_of_next h hgap), rfl, hstuck⟩
      | false =>
          have hlexeme := lexeme_of_next h hgap
          exact ⟨[], ⟨p, lead⟩ :: ss, rest, hdivided.cons_lexeme hlexeme, by simp [Stretch.pieces],
            hstuck⟩

end Piece

namespace Token

open Piece (Stretch Divided texts)

def CanEnd (t : Token) : Prop :=
  t.kind = .ident ∨ t.kind ∈ [Kind.int, .float, .imag, .char, .string] ∨
    (t.kind = .keyword ∧ t.text ∈ ["break", "continue", "fallthrough", "return"]) ∨
    (t.kind = .op ∧ t.text ∈ ["++", "--", ")", "]", braceClose])

theorem endsStatement_iff (t : Token) : t.endsStatement = true ↔ t.CanEnd := by
  cases hk : t.kind <;> simp [endsStatement, CanEnd, hk, Kind.isLiteral]

structure LineEnds (due : Prop) (es : List Token) : Prop where
  auto : ∀ e ∈ es, e.isAuto = true
  length_le : es.length ≤ 1
  ne_nil_iff : es ≠ [] ↔ due

theorem lineEnds_nil {due : Prop} (h : ¬ due) : LineEnds due [] :=
  ⟨by simp, by simp, by simp [h]⟩

theorem LineEnds.congr {due due' : Prop} {es : List Token} (h : LineEnds due es)
    (hiff : due ↔ due') : LineEnds due' es :=
  ⟨h.auto, h.length_le, h.ne_nil_iff.trans hiff⟩

theorem LineEnds.append {due due' : Prop} {es fs : List Token} (h : LineEnds due es)
    (h' : LineEnds due' fs) (hone : ¬ (due ∧ due')) : LineEnds (due ∨ due') (es ++ fs) := by
  by_cases hdue : due
  · obtain rfl : fs = [] := by
      by_contra hne
      exact hone ⟨hdue, h'.ne_nil_iff.1 hne⟩
    rw [List.append_nil]
    exact h.congr (iff_of_true hdue (.inl hdue))
  · obtain rfl : es = [] := by
      by_contra hne
      exact hdue (h.ne_nil_iff.1 hne)
    exact h'.congr (by simp [hdue])

/-- The tokens of stretches. Right after each one stands a semicolon of a line end if and only if
it can end a statement and a newline stands before the next one, or it is the last; no other such
semicolon is there. -/
inductive LineEnded : List Stretch → List Token → Prop
  | nil {e : Token} (he : e.kind = .eof) : LineEnded [] [e]
  | cons {s : Stretch} {ss : List Stretch} {t : Token} {es ts : List Token}
      (ht : t.key = s.lexeme.key)
      (hes : LineEnds (t.CanEnd ∧ ('\n' ∈ texts s.gap ∨ ss = [])) es)
      (h : LineEnded ss ts) : LineEnded (s :: ss) (t :: (es ++ ts))

namespace Pending

theorem lineEnds_lineEnd (s : Pending) : LineEnds (s.breaks = true) s.lineEnd := by
  cases hb : s.breaks with
  | false => simpa [lineEnd, hb] using lineEnds_nil Bool.false_ne_true
  | true =>
      simp only [lineEnd, hb, if_true]
      exact ⟨by simp [isAuto], by simp, by simp⟩

def eof (s : Pending) : Token :=
  { kind := .eof, text := "", pos := s.pos, spaceBefore := s.space, newlinesBefore := s.newlines }

theorem finish_eq (s : Pending) : s.finish = s.lineEnd ++ [s.eof] := rfl

theorem lineEnded_eof (s : Pending) : LineEnded [] [s.eof] :=
  .nil rfl

theorem run_append (s : Pending) (ps qs : List Piece) : s.run (ps ++ qs) =
    ((s.run ps).1 ++ ((s.run ps).2.run qs).1, ((s.run ps).2.run qs).2) := by
  induction ps generalizing s with
  | nil => rfl
  | cons p ps ih => rw [List.cons_append, run_cons, run_cons, ih, List.append_assoc]

theorem run_gap (s : Pending) {gs : List Piece} (hgs : ∀ g ∈ gs, g.kind.isGap = true) :
    LineEnds (s.breaks = true ∧ '\n' ∈ texts gs) (s.run gs).1 ∧
      ((s.run gs).2.breaks = true ↔ s.breaks = true ∧ '\n' ∉ texts gs) := by
  induction gs generalizing s with
  | nil => exact ⟨lineEnds_nil (by simp [texts]), by simp [run, texts]⟩
  | cons g gs ih =>
      obtain ⟨hgap, hgs⟩ := List.forall_mem_cons.1 hgs
      rw [run_cons, Piece.texts_cons]
      by_cases hline : g.text.count '\n' = 0
      · have hfree : '\n' ∉ g.text := List.count_eq_zero.1 hline
        obtain ⟨hends, hbreaks⟩ := ih (s.step g).2 hgs
        rw [step_plain hgap hline] at hends hbreaks ⊢
        simpa [hfree] using And.intro hends hbreaks
      · have hmem : '\n' ∈ g.text := by
          by_contra hfree
          exact hline (List.count_eq_zero.2 hfree)
        obtain ⟨hends, hbreaks⟩ := ih (s.step g).2 hgs
        rw [step_line hgap hline] at hends hbreaks ⊢
        refine ⟨(s.lineEnds_lineEnd.append hends (by simp)).congr (by simp [hmem]), ?_⟩
        rw [hbreaks]
        simp [hmem]

theorem lineEnded_run {ss : List Stretch} (hss : ∀ st ∈ ss, st.Sound) {s : Pending}
    (hs : ss = [] → s.breaks = false) :
    LineEnded ss
      ((s.run (ss.flatMap Stretch.pieces)).1 ++ (s.run (ss.flatMap Stretch.pieces)).2.finish) := by
  induction ss generalizing s with
  | nil =>
      simpa [run, finish_eq, lineEnd, hs rfl] using s.lineEnded_eof
  | cons st ss ih =>
      obtain ⟨⟨hlexeme, hgap⟩, hss⟩ := List.forall_mem_cons.1 hss
      have hstep := step_lexeme (s := s) hlexeme.isGap
      rw [List.flatMap_cons, Stretch.pieces, List.cons_append, run_cons, run_append]
      generalize hmid : (s.step st.lexeme).2 = mid
      have hbreaks : mid.breaks = true ↔ (s.token st.lexeme).CanEnd := by
        rw [← hmid, hstep, endsStatement_iff]
      rw [hstep]
      obtain ⟨hends, hlast⟩ := mid.run_gap hgap
      have hkey : (s.token st.lexeme).key = st.lexeme.key := s.key_token st.lexeme
      cases ss with
      | nil =>
          -- the end of the text is a line end, so the last gap counts as one with a newline
          have hall := hends.append (mid.run st.gap).2.lineEnds_lineEnd (by rw [hlast]; tauto)
          rw [hlast, hbreaks] at hall
          have hdue : (s.token st.lexeme).CanEnd ∧ '\n' ∈ texts st.gap ∨
              (s.token st.lexeme).CanEnd ∧ '\n' ∉ texts st.gap ↔
                (s.token st.lexeme).CanEnd ∧ ('\n' ∈ texts st.gap ∨ ([] : List Stretch) = []) := by
            by_cases hline : '\n' ∈ texts st.gap <;> simp [hline]
          have hend := LineEnded.cons hkey (hall.congr hdue) (mid.run st.gap).2.lineEnded_eof
          simpa [run, finish_eq] using hend
      | cons st' ss =>
          have hrest := ih hss (s := (mid.run st.gap).2) (by simp)
          have hend := LineEnded.cons hkey (hends.congr (by rw [hbreaks]; simp)) hrest
          simpa using hend

end Pending

theorem ofSource_lineEnded {source : String} {ts : List Token} (h : ofSource source = .ok ts) :
    ∃ lead ss, Divided lead ss [] source.toList ∧ LineEnded ss ts := by
  obtain ⟨hnone, hts⟩ := ofSource_eq_ok.1 h
  obtain ⟨lead, ss, rest, hdivided, hpieces, hstuck⟩ := Piece.exists_divided source.toList
  rw [hnone] at hstuck
  obtain rfl : rest = [] := hstuck
  refine ⟨lead, ss, hdivided, ?_⟩
  -- no token stands before the leading white space and comments, so they leave no semicolon due
  obtain ⟨hends, hbreaks⟩ := ({} : Pending).run_gap hdivided.lead.isGap
  have hnil : (({} : Pending).run lead).1 = [] := by
    by_contra hne
    exact absurd (hends.ne_nil_iff.1 hne).1 (by simp)
  have hlead : (({} : Pending).run lead).2.breaks = false := by
    rw [Bool.eq_false_iff, Ne, hbreaks]
    simp
  rw [hts, hpieces, Pending.run_append, hnil]
  exact Pending.lineEnded_run hdivided.sound fun _ => hlead

def lineEndSource : String :=
  "if x /* a\n */ " ++ braced " // b\n y++\n\n\treturn // c\n" ++ " ; z"

theorem ofSource_lineEnded_comments : ∃ ts, ofSource lineEndSource = .ok ts ∧
    ts.map Token.text = ["if", "x", "\n", braceOpen, "y", "++", "\n", "return", "\n", braceClose, ";", "z",
      "\n", ""] ∧
    ∃ lead ss, Divided lead ss [] lineEndSource.toList ∧ LineEnded ss ts := by
  have hview : (ofSource lineEndSource).toOption.map (List.map Token.text) =
      some ["if", "x", "\n", braceOpen, "y", "++", "\n", "return", "\n", braceClose, ";", "z", "\n",
        ""] := by
    decide +kernel
  obtain ⟨ts, hts, htexts⟩ := exists_ok_of_view hview
  exact ⟨ts, hts, htexts, ofSource_lineEnded hts⟩

end Token

end Gosmith.Go
