import Gosmith.Proofs.Layout.Printed
import Gosmith.Proofs.Lexeme.Respelling

namespace Gosmith.Go

open Gosmith.Text

namespace Token

def plain (kind : Kind) (text : String) : Token :=
  { kind := kind, text := text, pos := ⟨1, 1⟩ }

theorem lexed_name {name : String} (h : isName name = true) : (plain .ident name).Lexed := by
  obtain ⟨c, cs, hs, hc, hcs, hkey⟩ := isName_iff.1 h
  refine ⟨⟨.word, c :: cs⟩, .word hc hcs, ?_⟩
  simp [key, plain, Piece.key, Piece.tokenKind, ← hs, hkey]

theorem lexed_keyword {text : String} (h : text ∈ keywords) : (plain .keyword text).Lexed := by
  have hwords : ∀ k ∈ keywords,
      k.toList.head?.any startsWord = true ∧ k.toList.tail.all isWord = true := by decide
  obtain ⟨hstart, hrest⟩ := hwords text h
  obtain ⟨c, cs, hs⟩ : ∃ c cs, text.toList = c :: cs := by
    cases hs : text.toList with
    | nil => simp [hs] at hstart
    | cons c cs => exact ⟨c, cs, rfl⟩
  rw [hs] at hstart hrest
  refine ⟨⟨.word, c :: cs⟩, .word (by simpa using hstart) (by simpa using hrest), ?_⟩
  simp [key, plain, Piece.key, Piece.tokenKind, ← hs, Go.isKeyword, h]

theorem lexed_operator {text : String} (h : text ∈ Piece.operators) (hne : text ≠ ";") :
    (plain .op text).Lexed := by
  refine ⟨⟨.op, text.toList⟩, .op h, ?_⟩
  have htext : text.toList ≠ [';'] := fun heq => hne (String.toList_inj.1 heq)
  simp [key, plain, Piece.key, Piece.tokenKind, htext]

end Token

def Gap.isSpaced : Gap → Bool
  | .none => false
  | .space => true
  | .newline _ depth => decide (0 < depth)

def Gap.newlines : Gap → Nat
  | .newline blank _ => if blank then 2 else 1
  | _ => 0

namespace Token.Pending

structure Reaches (s : Pending) (cs : List Char) (ts : List Token) (s' : Pending)
    (rest : List Char) : Prop where
  fault : (Piece.split cs).2 = (Piece.split rest).2
  run : s.run (Piece.split cs).1 =
    (ts ++ (s'.run (Piece.split rest).1).1, (s'.run (Piece.split rest).1).2)

variable {s s' s'' : Pending} {cs mid rest : List Char} {ts us : List Token}

theorem Reaches.refl (s : Pending) (cs : List Char) : s.Reaches cs [] s cs :=
  ⟨rfl, rfl⟩

theorem Reaches.trans (h : s.Reaches cs ts s' mid) (h' : s'.Reaches mid us s'' rest) :
    s.Reaches cs (ts ++ us) s'' rest := by
  refine ⟨h.fault.trans h'.fault, ?_⟩
  rw [h.run, h'.run, List.append_assoc]

theorem reaches_piece {c : Char} {p : Piece} (h : Piece.next c cs = .ok (p, rest)) :
    s.Reaches (c :: cs) (s.step p).1 (s.step p).2 rest := by
  refine ⟨by rw [Piece.split_cons h], ?_⟩
  rw [Piece.split_cons h, run_cons]

structure Fresh (s : Pending) : Prop where
  space : s.space = false
  newlines : s.newlines = 0

theorem reaches_lexeme {p : Piece} (hp : Piece.Lexeme p) (hclear : Piece.Clear p rest) :
    ∃ s', s.Reaches (p.text ++ rest) [s.token p] s' rest ∧ s'.Fresh ∧
      s'.breaks = (s.token p).endsStatement := by
  obtain ⟨c, cs, htext, hnext⟩ := Piece.next_of_lexeme hp hclear
  have hreach : s.Reaches (c :: (cs ++ rest)) (s.step p).1 (s.step p).2 rest := reaches_piece hnext
  rw [step_lexeme hp.isGap] at hreach
  rw [htext, List.cons_append]
  exact ⟨_, hreach, ⟨rfl, rfl⟩, rfl⟩

theorem reaches_newline (s : Pending) (rest : List Char) :
    ∃ s', s.Reaches ('\n' :: rest) s.lineEnd s' rest ∧ s'.space = false ∧
      s'.newlines = s.newlines + 1 ∧ s'.breaks = false := by
  have hnext : Piece.next '\n' rest = .ok (⟨.newline, ['\n']⟩, rest) := by
    simp [Piece.next, Piece.isBlankChar]
  have hreach : s.Reaches ('\n' :: rest) _ _ rest := reaches_piece hnext
  rw [step_line rfl (by decide)] at hreach
  exact ⟨_, hreach, rfl, rfl, rfl⟩

theorem reaches_blank (s : Pending) {c : Char} (hc : Piece.isBlankChar c = true)
    (hcs : ∀ d ∈ cs, Piece.isBlankChar d = true) (hstop : Piece.Stops Piece.isBlankChar rest) :
    ∃ s', s.Reaches (c :: (cs ++ rest)) [] s' rest ∧ s'.space = true ∧
      s'.newlines = s.newlines ∧ s'.breaks = s.breaks := by
  have hnext : Piece.next c (cs ++ rest) = .ok (⟨.blank, c :: cs⟩, rest) := by
    simp [Piece.next, hc, Piece.takeWhile_append_stops hcs hstop,
      Piece.dropWhile_append_stops hcs hstop]
  have hreach : s.Reaches (c :: (cs ++ rest)) _ _ rest := reaches_piece hnext
  have hline : (c :: cs).count '\n' = 0 := by
    rw [List.count_eq_zero]
    intro hmem
    have hblank : ∀ d ∈ c :: cs, Piece.isBlankChar d = true := List.forall_mem_cons.2 ⟨hc, hcs⟩
    exact absurd (hblank '\n' hmem) (by decide)
  rw [step_plain rfl hline] at hreach
  exact ⟨_, hreach, rfl, rfl, rfl⟩

theorem reaches_tabs (hs : s.space = false) (depth : Nat)
    (hstop : Piece.Stops Piece.isBlankChar rest) :
    ∃ s', s.Reaches (List.replicate depth '\t' ++ rest) [] s' rest ∧
      s'.space = decide (0 < depth) ∧ s'.newlines = s.newlines ∧ s'.breaks = s.breaks := by
  cases depth with
  | zero => exact ⟨s, .refl s rest, by simpa using hs, rfl, rfl⟩
  | succ n =>
      rw [List.replicate_succ, List.cons_append]
      simpa using s.reaches_blank (by decide) (by simp [Piece.isBlankChar]) hstop

theorem reaches_gap (hs : s.Fresh) (g : Gap) (hstop : Piece.Stops Piece.isBlankChar rest) :
    ∃ s', s.Reaches (g.chars ++ rest) (if 0 < g.newlines then s.lineEnd else []) s' rest ∧
      s'.space = g.isSpaced ∧ s'.newlines = g.newlines := by
  cases g with
  | none => exact ⟨s, .refl s rest, hs.space, hs.newlines⟩
  | space =>
      have hempty : ∀ d ∈ ([] : List Char), Piece.isBlankChar d = true := by simp
      obtain ⟨s', hreach, hspace, hlines, -⟩ :=
        s.reaches_blank (c := ' ') (by decide) hempty hstop
      exact ⟨s', hreach, hspace, hlines.trans hs.newlines⟩
  | newline blank depth =>
      cases blank with
      | false =>
          obtain ⟨s₁, hline, hspace, hlines, -⟩ :=
            s.reaches_newline (List.replicate depth '\t' ++ rest)
          obtain ⟨s', htabs, hspace', hlines', -⟩ := reaches_tabs hspace depth hstop
          refine ⟨s', by simpa [Gap.chars, Gap.newlines] using hline.trans htabs, hspace', ?_⟩
          rw [hlines', hlines, hs.newlines]
          rfl
      | true =>
          obtain ⟨s₁, hline, -, hlines, hbreaks⟩ :=
            s.reaches_newline ('\n' :: (List.replicate depth '\t' ++ rest))
          obtain ⟨s₂, hblank, hspace₂, hlines₂, -⟩ :=
            s₁.reaches_newline (List.replicate depth '\t' ++ rest)
          obtain ⟨s', htabs, hspace', hlines', -⟩ := reaches_tabs hspace₂ depth hstop
          have hnone : s₁.lineEnd = [] := by simp [lineEnd, hbreaks]
          have hreach := (hline.trans hblank).trans htabs
          refine ⟨s', by simpa [hnone, Gap.chars, Gap.newlines] using hreach, hspace', ?_⟩
          rw [hlines', hlines₂, hlines, hs.newlines]
          rfl

theorem ofSource_of_reaches {source : String} (h : Reaches {} source.toList ts s []) :
    ofSource source = .ok (ts ++ s.finish) := by
  have hempty : Piece.split [] = ([], none) := by simp [Piece.split]
  have hrun := h.run
  simp only [hempty, Pending.run, List.append_nil] at hrun
  refine ofSource_eq_ok.2 ⟨by rw [h.fault, hempty], ?_⟩
  rw [hrun]

end Token.Pending

namespace Layout

structure Reread (a : Gap × Token) (u : Token) : Prop where
  key : u.key = a.2.key
  space : u.spaceBefore = a.1.isSpaced
  newlines : u.newlinesBefore = a.1.newlines

theorem Reread.kind {a : Gap × Token} {u : Token} (h : Reread a u) : u.kind = a.2.kind :=
  congrArg Prod.fst h.key

theorem Reread.text {a : Gap × Token} {u : Token} (h : Reread a u) : u.text = a.2.text :=
  congrArg Prod.snd h.key

/-- Gapped tokens and the tokens that are read from their text. The flag tells whether a line end
before them would be a semicolon. -/
inductive Read : Bool → List (Gap × Token) → List Token → Prop
  | nil {breaks : Bool} : Read breaks [] []
  | token {breaks : Bool} {a : Gap × Token} {u : Token} {placed : List (Gap × Token)}
      {us : List Token} (ha : Reread a u) (hline : 0 < a.1.newlines → breaks = false)
      (h : Read u.endsStatement placed us) : Read breaks (a :: placed) (u :: us)
  | lineEnd {a : Gap × Token} {e u : Token} {placed : List (Gap × Token)} {us : List Token}
      (he : e.isAuto = true) (hn : e.newlinesBefore = 0) (ha : Reread a u)
      (hline : 0 < a.1.newlines) (h : Read u.endsStatement placed us) :
      Read true (a :: placed) (e :: u :: us)

def Clears : List (Gap × Token) → List Char → Prop
  | [], _ => True
  | (_, t) :: placed, rest =>
      (∃ p, Piece.Lexeme p ∧ t.key = p.key ∧ Piece.Clear p (printed placed ++ rest)) ∧
        Clears placed rest

theorem clears_of_gapped {placed : List (Gap × Token)} {rest : List Char}
    (hlexed : ∀ a ∈ placed, a.2.Lexed) (hgaps : ∀ a ∈ placed.tail, a.1 ≠ .none)
    (hrest : Piece.Spaced rest) : Clears placed rest := by
  induction placed with
  | nil => trivial
  | cons a placed ih =>
      obtain ⟨⟨p, hp, hkey⟩, hlexed⟩ := List.forall_mem_cons.1 hlexed
      have hspaced : Piece.Spaced (printed placed ++ rest) := by
        cases placed with
        | nil => exact hrest
        | cons b placed =>
            rw [printed, List.append_assoc]
            exact spaced_chars (hgaps b List.mem_cons_self) _
      refine ⟨⟨p, hp, hkey, Piece.clear_spaced p hspaced⟩, ih hlexed fun b hb => ?_⟩
      exact hgaps b (List.mem_of_mem_tail hb)

inductive Due : Bool → List Token → Prop
  | none : Due false []
  | semicolon {e : Token} (he : e.kind = .semicolon) : Due true [e]

theorem Due.of_true {es : List Token} {breaks : Bool} (h : Due breaks es) (hb : breaks = true) :
    ∃ e, es = [e] ∧ e.kind = .semicolon := by
  cases h with
  | none => simp at hb
  | semicolon he => exact ⟨_, rfl, he⟩

theorem Due.of_false {es : List Token} {breaks : Bool} (h : Due breaks es) (hb : breaks = false) :
    es = [] := by
  cases h with
  | none => rfl
  | semicolon => simp at hb

theorem Read.of_nil {breaks : Bool} {us : List Token} (h : Read breaks [] us) : us = [] := by
  cases h
  rfl

theorem Read.of_line {breaks : Bool} {a : Gap × Token} {placed : List (Gap × Token)}
    {us : List Token} (h : Read breaks (a :: placed) us) (hline : 0 < a.1.newlines) :
    ∃ es u vs, us = es ++ u :: vs ∧ Due breaks es ∧ Reread a u ∧ Read u.endsStatement placed vs := by
  cases h with
  | token ha hbreaks h =>
      rw [hbreaks hline]
      exact ⟨[], _, _, rfl, .none, ha, h⟩
  | @lineEnd _ e _ _ _ he hn ha hline h =>
      exact ⟨[e], _, _, rfl, .semicolon (Token.kind_of_isAuto he), ha, h⟩

theorem Read.of_flat {breaks : Bool} {a : Gap × Token} {placed : List (Gap × Token)}
    {us : List Token} (h : Read breaks (a :: placed) us) (hline : a.1.newlines = 0) :
    ∃ u vs, us = u :: vs ∧ Reread a u ∧ Read u.endsStatement placed vs := by
  cases h with
  | token ha _ h => exact ⟨_, _, rfl, ha, h⟩
  | lineEnd _ _ _ hpos _ => omega

open Token.Pending

theorem reaches_printed {placed : List (Gap × Token)} {rest : List Char} (h : Clears placed rest)
    {s : Token.Pending} (hs : s.Fresh) :
    ∃ us s', Read s.breaks placed us ∧ s.Reaches (printed placed ++ rest) us s' rest ∧ s'.Fresh := by
  induction placed generalizing s with
  | nil => exact ⟨[], s, .nil, .refl s rest, hs⟩
  | cons a placed ih =>
      obtain ⟨g, t⟩ := a
      obtain ⟨⟨p, hp, hkey, hclear⟩, hrest⟩ := h
      have hstop := hp.stops_blank (printed placed ++ rest)
      obtain ⟨s₁, hgap, hspace, hlines⟩ := reaches_gap hs g hstop
      obtain ⟨s₂, htoken, hfresh, hends⟩ := reaches_lexeme (s := s₁) hp hclear
      obtain ⟨us, s', hread, hreach, hs'⟩ := ih hrest hfresh
      have hreread : Reread (g, t) (s₁.token p) := ⟨by rw [s₁.key_token p, hkey], hspace, hlines⟩
      rw [hends] at hread
      have hall := (hgap.trans htoken).trans hreach
      have htext : g.chars ++ (p.text ++ (printed placed ++ rest)) =
          printed ((g, t) :: placed) ++ rest := by
        simp [printed, Token.toList_of_key hkey]
      rw [htext] at hall
      by_cases hline : 0 < g.newlines
      · rw [if_pos hline] at hall
        cases hb : s.breaks with
        | false =>
            simp only [lineEnd, hb, Bool.false_eq_true, if_false, List.nil_append] at hall
            exact ⟨_, s', .token hreread (fun _ => rfl) hread, hall, hs'⟩
        | true =>
            simp only [lineEnd, hb, if_true] at hall
            exact ⟨_, s', .lineEnd (by simp [Token.isAuto]) rfl hreread hline hread, hall, hs'⟩
      · rw [if_neg hline] at hall
        exact ⟨_, s', .token hreread (fun h => absurd h hline) hread, hall, hs'⟩

theorem terminator_lineEnd (s : Token.Pending) {e : Token} (he : e.kind = .eof) :
    Grammar.Terminator (s.lineEnd ++ [e]) [e] := by
  unfold lineEnd
  split
  · exact .semicolon rfl
  · exact .atEnd he

theorem ofSource_printed {placed : List (Gap × Token)} {source : String} {tail : List Char}
    (h : source.toList = printed placed ++ tail) (htail : tail = [] ∨ tail = ['\n'])
    (hclears : Clears placed tail) :
    ∃ us last e, Token.ofSource source = .ok (us ++ last) ∧ Read false placed us ∧
      Grammar.Terminator last [e] ∧ e.kind = .eof := by
  obtain ⟨us, s, hread, hreach, hs⟩ := reaches_printed hclears (s := {}) ⟨rfl, rfl⟩
  rw [← h] at hreach
  rcases htail with rfl | rfl
  · exact ⟨us, _, _, ofSource_of_reaches hreach, hread, terminator_lineEnd s rfl, rfl⟩
  · obtain ⟨s', hline, -, -, hbreaks⟩ := s.reaches_newline []
    have hnone : s'.lineEnd = [] := by simp [lineEnd, hbreaks]
    have hsource := ofSource_of_reaches (hreach.trans hline)
    rw [finish, hnone, List.nil_append, List.append_assoc] at hsource
    exact ⟨us, _, _, hsource, hread, terminator_lineEnd s rfl, rfl⟩

end Layout

end Gosmith.Go
