import Gosmith.Proofs.Lexeme.Token

namespace Gosmith.Go

open Gosmith.Text

namespace Piece

def texts (ps : List Piece) : List Char :=
  (ps.map Piece.text).flatten

theorem texts_append (ps qs : List Piece) : texts (ps ++ qs) = texts ps ++ texts qs := by
  simp [texts]

theorem texts_cons (p : Piece) (ps : List Piece) : texts (p :: ps) = p.text ++ texts ps := by
  simp [texts]

inductive Trivia : List Piece → List Char → Prop
  | nil {after : List Char} : Trivia [] after
  | blank {cs after : List Char} {ps : List Piece} (hne : cs ≠ [])
      (hcs : ∀ c ∈ cs, isBlankChar c = true) (hstop : Stops isBlankChar (texts ps ++ after))
      (h : Trivia ps after) : Trivia (⟨.blank, cs⟩ :: ps) after
  | newline {after : List Char} {ps : List Piece} (h : Trivia ps after) :
      Trivia (⟨.newline, ['\n']⟩ :: ps) after
  | lineComment {cs after : List Char} {ps : List Piece} (hcs : '\n' ∉ cs)
      (hstop : Stops (· != '\n') (texts ps ++ after)) (h : Trivia ps after) :
      Trivia (⟨.lineComment, '/' :: '/' :: cs⟩ :: ps) after
  | blockComment {inner after : List Char} {ps : List Piece}
      (hinner : ¬ ['*', '/'] <:+: inner ++ ['*']) (h : Trivia ps after) :
      Trivia (⟨.blockComment, '/' :: '*' :: (inner ++ ['*', '/'])⟩ :: ps) after

theorem Trivia.append {ps qs : List Piece} {after : List Char} (h : Trivia ps (texts qs ++ after))
    (hq : Trivia qs after) : Trivia (ps ++ qs) after := by
  have hjoin (us : List Piece) : texts us ++ (texts qs ++ after) = texts (us ++ qs) ++ after := by
    rw [texts_append, List.append_assoc]
  generalize hmore : texts qs ++ after = more at h
  induction h with
  | nil => exact hq
  | blank hne hcs hstop h ih =>
      rw [← hmore, hjoin] at hstop
      exact .blank hne hcs hstop (ih hmore)
  | newline h ih => exact .newline (ih hmore)
  | lineComment hcs hstop h ih =>
      rw [← hmore, hjoin] at hstop
      exact .lineComment hcs hstop (ih hmore)
  | blockComment hinner h ih => exact .blockComment hinner (ih hmore)

theorem commentBody_cases {cs body after : List Char} (h : commentBody cs = some (body, after)) :
    ∃ inner, body = inner ++ ['*', '/'] ∧ ¬ ['*', '/'] <:+: inner ++ ['*'] := by
  fun_induction commentBody cs generalizing body after with
  | case1 => simp at h
  | case2 rest =>
      simp only [Option.some.injEq, Prod.mk.injEq] at h
      exact ⟨[], h.1.symm, by decide⟩
  | case3 c rest hend ih =>
      simp only [Option.map_eq_some_iff, Prod.exists, Prod.mk.injEq] at h
      obtain ⟨b, a, hb, rfl, rfl⟩ := h
      obtain ⟨inner, rfl, hinner⟩ := ih hb
      refine ⟨c :: inner, rfl, fun hmark => ?_⟩
      rw [List.cons_append, List.infix_cons_iff] at hmark
      rcases hmark with hpre | hlater
      · have hrest := commentBody_append hb
        rw [List.cons_prefix_cons] at hpre
        obtain ⟨rfl, more, hmore⟩ := hpre
        refine hend (more ++ '/' :: a) rfl ?_
        have hsplit : inner ++ ['*', '/'] ++ a = inner ++ ['*'] ++ '/' :: a := by simp
        rw [← hrest, hsplit, ← hmore]
        simp
      · exact hinner hlater

theorem stops_dropWhile (p : Char → Bool) (cs : List Char) : Stops p (cs.dropWhile p) := by
  intro c hc
  have hhead := List.head?_dropWhile_not p cs
  rw [Option.mem_def] at hc
  simpa [hc] using hhead

theorem trivia_of_next {c : Char} {rest after : List Char} {p : Piece}
    (h : next c rest = .ok (p, after)) (hgap : p.kind.isGap = true) : Trivia [p] after := by
  cases cut_of_next h with
  | blank hc =>
      refine .blank (by simp) (List.forall_mem_cons.2 ⟨hc, of_mem_takeWhile⟩) ?_ .nil
      exact stops_dropWhile _ _
  | newline hc =>
      rw [hc]
      exact .newline .nil
  | lineComment hc hrest =>
      obtain ⟨ds, rfl⟩ := List.head?_eq_some_iff.1 hrest
      have htake : ('/' :: ds).takeWhile (· != '\n') = '/' :: ds.takeWhile (· != '\n') := by simp
      rw [hc, htake]
      refine .lineComment (fun hmem => ?_) ?_ .nil
      · simpa using of_mem_takeWhile _ hmem
      · exact stops_dropWhile _ _
  | blockComment hc hrest hbody =>
      obtain ⟨inner, rfl, hinner⟩ := commentBody_cases hbody
      rw [hc]
      exact .blockComment hinner .nil
  | _ => simp [Kind.isGap] at hgap

def EndsSpaced (ps : List Piece) : Prop :=
  ∃ before p behind, ps = before ++ p :: behind ∧ ∀ q ∈ p :: behind, '\n' ∉ q.text

structure Marks (space : Bool) (newlines : Nat) (ps : List Piece) : Prop where
  space_iff : space = true ↔ EndsSpaced ps
  newlines_eq : newlines = (texts ps).count '\n'

theorem marks_nil : Marks false 0 [] := by
  refine ⟨⟨by simp, ?_⟩, rfl⟩
  rintro ⟨before, p, behind, heq, -⟩
  simp at heq

theorem endsSpaced_concat (ps : List Piece) (p : Piece) :
    EndsSpaced (ps ++ [p]) ↔ '\n' ∉ p.text := by
  constructor
  · rintro ⟨before, q, behind, heq, hfree⟩
    have hlast : (ps ++ [p]).getLast? = (before ++ q :: behind).getLast? := by rw [heq]
    rw [List.getLast?_concat, List.getLast?_append_of_ne_nil _ (by simp)] at hlast
    exact hfree p (List.mem_of_getLast? hlast.symm)
  · intro hp
    exact ⟨ps, p, [], rfl, List.forall_mem_singleton.2 hp⟩

theorem texts_concat (ps : List Piece) (p : Piece) : texts (ps ++ [p]) = texts ps ++ p.text := by
  simp [texts]

theorem Marks.concat_plain {space : Bool} {newlines : Nat} {ps : List Piece} {p : Piece}
    (h : Marks space newlines ps) (hp : p.text.count '\n' = 0) :
    Marks true newlines (ps ++ [p]) := by
  refine ⟨?_, ?_⟩
  · rw [endsSpaced_concat, ← List.count_eq_zero]
    simp [hp]
  · rw [texts_concat, List.count_append, hp, h.newlines_eq, Nat.add_zero]

theorem Marks.concat_line {space : Bool} {newlines : Nat} {ps : List Piece} {p : Piece}
    (h : Marks space newlines ps) (hp : p.text.count '\n' ≠ 0) :
    Marks false (newlines + p.text.count '\n') (ps ++ [p]) := by
  refine ⟨?_, ?_⟩
  · rw [endsSpaced_concat, ← List.count_eq_zero]
    simp [hp]
  · rw [texts_concat, List.count_append, h.newlines_eq]

end Piece

namespace Token

open Piece (Trivia Marks texts)

/-- A text as white space and comments before each token and before the end, each token with what
it tells of them. -/
inductive Interleaved : List Token → List Char → Prop
  | last {t : Token} {ps : List Piece} (hk : t.kind = .eof) (hps : Trivia ps [])
      (ht : Marks t.spaceBefore t.newlinesBefore ps) : Interleaved [t] (texts ps)
  | cons {t : Token} {ts : List Token} {ps : List Piece} {more : List Char} (hlex : t.Lexed)
      (hps : Trivia ps (t.text.toList ++ more)) (ht : Marks t.spaceBefore t.newlinesBefore ps)
      (h : Interleaved ts more) : Interleaved (t :: ts) (texts ps ++ (t.text.toList ++ more))

def withoutAuto (ts : List Token) : List Token :=
  ts.filter fun t => !t.isAuto

theorem withoutAuto_append (as bs : List Token) :
    withoutAuto (as ++ bs) = withoutAuto as ++ withoutAuto bs := by
  simp [withoutAuto]

namespace Pending

theorem withoutAuto_lineEnd (s : Pending) : withoutAuto s.lineEnd = [] := by
  unfold lineEnd
  split
  · simp [withoutAuto, isAuto]
  · rfl

theorem withoutAuto_token (s : Pending) (p : Piece) : withoutAuto [s.token p] = [s.token p] := by
  simp [withoutAuto, isAuto_of_key (s.key_token p)]

theorem interleaved_finish {s : Pending} {ps : List Piece} (hps : Trivia ps [])
    (hs : Marks s.space s.newlines ps) : Interleaved (withoutAuto s.finish) (texts ps) := by
  rw [finish, withoutAuto_append, withoutAuto_lineEnd]
  exact .last rfl hps hs

theorem interleaved_run {cs : List Char} (hcs : (Piece.split cs).2 = none) {s : Pending}
    {ps : List Piece} (hps : Trivia ps cs) (hs : Marks s.space s.newlines ps) :
    Interleaved (withoutAuto ((s.run (Piece.split cs).1).1 ++ (s.run (Piece.split cs).1).2.finish))
      (texts ps ++ cs) := by
  -- `ps` are the pieces read since the last token, and the pending marks are theirs.
  fun_induction Piece.split cs generalizing s ps with
  | case1 =>
      rw [List.append_nil]
      exact interleaved_finish hps hs
  | case2 c rest fault h => simp at hcs
  | case3 c rest p after h ih =>
      have happ := (Piece.next_append h).1
      rw [run_cons, List.append_assoc, withoutAuto_append, ← happ]
      cases hgap : p.kind.isGap with
      | false =>
          have hlex : (s.token p).Lexed := ⟨p, Piece.lexeme_of_next h hgap, s.key_token p⟩
          have htext : (s.token p).text.toList = p.text := toList_of_key (s.key_token p)
          rw [step_lexeme hgap, withoutAuto_token, List.singleton_append, ← htext]
          rw [← happ, ← htext] at hps
          exact .cons hlex hps hs (by simpa [texts] using ih hcs .nil Piece.marks_nil)
      | true =>
          have htrivia : Trivia (ps ++ [p]) after := by
            refine Trivia.append ?_ (Piece.trivia_of_next h hgap)
            simpa [texts, happ] using hps
          rw [← List.append_assoc, ← Piece.texts_concat]
          by_cases hline : p.text.count '\n' = 0
          · rw [step_plain hgap hline]
            exact ih hcs htrivia (hs.concat_plain hline)
          · rw [step_line hgap hline, withoutAuto_lineEnd]
            exact ih hcs htrivia (hs.concat_line hline)

end Pending

theorem interleaved_ofSource {source : String} {ts : List Token} (h : ofSource source = .ok ts) :
    Interleaved (withoutAuto ts) source.toList := by
  obtain ⟨hnone, hts⟩ := ofSource_eq_ok.1 h
  have hrun := Pending.interleaved_run hnone (s := {}) .nil Piece.marks_nil
  rwa [← hts] at hrun

def triviaSource : String :=
  "a /* x\n */ // y\n \t" ++ backquoted "b\n" ++ "/**/; // z"

theorem interleaved_ofSource_trivia : ∃ ts, ofSource triviaSource = .ok ts ∧
    (withoutAuto ts).map (fun t => (t.text, t.spaceBefore, t.newlinesBefore)) =
      [("a", false, 0), (backquoted "b\n", true, 2), (";", true, 0), ("", true, 0)] ∧
    Interleaved (withoutAuto ts) triviaSource.toList := by
  have hmarks : (ofSource triviaSource).toOption.map
      (fun ts => (withoutAuto ts).map fun t => (t.text, t.spaceBefore, t.newlinesBefore)) =
        some [("a", false, 0), (backquoted "b\n", true, 2), (";", true, 0), ("", true, 0)] := by
    decide +kernel
  cases hts : ofSource triviaSource with
  | error e => simp [hts, Except.toOption] at hmarks
  | ok ts =>
      simp only [hts, Except.toOption, Option.map_some, Option.some.injEq] at hmarks
      exact ⟨ts, rfl, hmarks, interleaved_ofSource hts⟩

end Token

end Gosmith.Go
