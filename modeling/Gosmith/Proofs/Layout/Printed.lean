import Gosmith.Proofs.Layout.Placement
import Gosmith.Proofs.Lexeme.Fusion

namespace Gosmith.Go

open Gosmith.Text

def Gap.chars : Gap → List Char
  | .none => []
  | .space => [' ']
  | .newline blank depth => '\n' :: (if blank then ['\n'] else []) ++ List.replicate depth '\t'

theorem Token.Lexed.solid {t : Token} (h : t.Lexed) : Piece.Solid t.text.toList := by
  obtain ⟨p, hp, hkey⟩ := h
  rw [Token.toList_of_key hkey]
  exact Piece.solid_of_lexeme hp

namespace Layout

open Piece (Solid)

def printed : List (Gap × Token) → List Char
  | [] => []
  | (g, t) :: rest => g.chars ++ (t.text.toList ++ printed rest)

theorem spaced_chars {g : Gap} (h : g ≠ .none) (more : List Char) : Piece.Spaced (g.chars ++ more) := by
  cases g with
  | none => exact absurd rfl h
  | space => simp [Piece.Spaced, Gap.chars]
  | newline blank depth => simp [Piece.Spaced, Gap.chars]

theorem printed_append (placed more : List (Gap × Token)) :
    printed (placed ++ more) = printed placed ++ printed more := by
  induction placed with
  | nil => rfl
  | cons a placed ih => simp [printed, ih]

theorem isBlank_of_mem_chars {g : Gap} {c : Char} (h : c ∈ g.chars) : isBlank c = true := by
  cases g with
  | none => simp [Gap.chars] at h
  | space =>
      simp only [Gap.chars, List.mem_singleton] at h
      subst h
      decide
  | newline blank depth =>
      have hcases : c = '\n' ∨ c = '\t' := by
        cases blank <;> simp [Gap.chars] at h <;> tauto
      rcases hcases with rfl | rfl <;> decide

theorem chars_injective {g g' : Gap} (h : g.chars = g'.chars) : g = g' := by
  cases g with
  | none => cases g' <;> simp [Gap.chars] at h ⊢
  | space => cases g' <;> simp [Gap.chars] at h ⊢
  | newline blank depth =>
      cases g' with
      | none => simp [Gap.chars] at h
      | space => simp [Gap.chars] at h
      | newline blank' depth' =>
          have hlines := congrArg (List.count '\n') h
          have htabs := congrArg (List.count '\t') h
          cases blank <;> cases blank' <;> simp [Gap.chars, List.count_replicate] at hlines htabs <;>
            simp [htabs]

theorem gaps_of_printed {placed placed' : List (Gap × Token)}
    (hkeys : (placed'.map Prod.snd).map Token.key = (placed.map Prod.snd).map Token.key)
    (hlexed : ∀ a ∈ placed, a.2.Lexed) (h : printed placed' = printed placed) :
    placed'.map Prod.fst = placed.map Prod.fst := by
  induction placed generalizing placed' with
  | nil => simpa using hkeys
  | cons a placed ih =>
      cases placed' with
      | nil => simp at hkeys
      | cons a' placed' =>
          obtain ⟨g, t⟩ := a
          obtain ⟨g', t'⟩ := a'
          obtain ⟨⟨p, hp, hkey⟩, hrest⟩ := List.forall_mem_cons.1 hlexed
          simp only [List.map_cons, List.cons.injEq] at hkeys
          have htext : t.text.toList = p.text := Token.toList_of_key hkey
          have htext' : t'.text.toList = p.text := Token.toList_of_key (hkeys.1.trans hkey)
          rw [printed, printed, htext, htext'] at h
          have hchars := congrArg (List.takeWhile isBlank) h
          rw [Piece.takeWhile_append_stops (fun c => isBlank_of_mem_chars) (hp.stops_isBlank _),
            Piece.takeWhile_append_stops (fun c => isBlank_of_mem_chars) (hp.stops_isBlank _)] at hchars
          obtain rfl := chars_injective hchars
          rw [List.append_cancel_left_eq, List.append_cancel_left_eq] at h
          rw [List.map_cons, List.map_cons, ih hkeys.2 hrest h]

theorem printed_of_gaps {placed placed' : List (Gap × Token)}
    (hkeys : (placed'.map Prod.snd).map Token.key = (placed.map Prod.snd).map Token.key)
    (h : placed'.map Prod.fst = placed.map Prod.fst) : printed placed' = printed placed := by
  induction placed generalizing placed' with
  | nil =>
      obtain rfl : placed' = [] := by simpa using h
      rfl
  | cons a placed ih =>
      cases placed' with
      | nil => simp at h
      | cons a' placed' =>
          simp only [List.map_cons, List.cons.injEq] at hkeys h
          have htext : a'.2.text = a.2.text := congrArg Prod.snd hkeys.1
          rw [printed, printed, h.1, htext, ih hkeys.2 h.2]

theorem trimEnd_of_solid {line : String} (h : Solid line.toList) : trimEnd line = line := by
  rw [trimEnd, h.trimRight, String.ofList_toList]

theorem breakLines_ne_nil (line : String) (rest : List (Gap × Token)) :
    breakLines line rest ≠ [] := by
  induction rest generalizing line with
  | nil => simp [breakLines]
  | cons a rest ih =>
      obtain ⟨g, t⟩ := a
      cases g with
      | none => exact ih _
      | space => exact ih _
      | newline blank depth => simp [breakLines]

theorem toList_breakLines {line : String} (hline : Solid line.toList) {rest : List (Gap × Token)}
    (hrest : ∀ a ∈ rest, a.2.Lexed) :
    ("\n".intercalate (breakLines line rest)).toList = line.toList ++ printed rest := by
  induction rest generalizing line with
  | nil => simp [breakLines, trimEnd_of_solid hline, printed]
  | cons a rest ih =>
      obtain ⟨g, t⟩ := a
      obtain ⟨ht, hrest⟩ := List.forall_mem_cons.1 hrest
      have hgo {start : String} :
          ("\n".intercalate (breakLines (start ++ t.text) rest)).toList =
            start.toList ++ (t.text.toList ++ printed rest) := by
        rw [ih (by simpa using ht.solid.append start.toList) hrest]
        simp
      cases g with
      | none =>
          rw [breakLines, hgo]
          simp [printed, Gap.chars]
      | space =>
          rw [breakLines, hgo]
          simp [printed, Gap.chars]
      | newline blank depth =>
          have hne := breakLines_ne_nil (tabs depth ++ t.text) rest
          rw [breakLines, trimEnd_of_solid hline]
          cases blank with
          | false =>
              rw [if_neg (by simp), List.cons_append, List.nil_append,
                String.intercalate_cons_of_ne_nil hne, String.toList_append, hgo]
              simp [printed, Gap.chars, tabs]
          | true =>
              rw [if_pos rfl, List.cons_append, List.cons_append, List.nil_append,
                String.intercalate_cons_cons, String.intercalate_cons_of_ne_nil hne]
              simp only [String.toList_append, hgo]
              simp [printed, Gap.chars, tabs]

end Layout

theorem Declaration.format_of_gaps {d : Declaration} {placed : List (Gap × Token)}
    (h : Layout.gaps {} (Layout.dropSemicolons d.tokens) = .ok placed)
    (hts : ∀ a ∈ placed, a.2.Lexed) :
    ∃ text, d.format = .ok text ∧ text.toList = Layout.printed placed := by
  cases placed with
  | nil => exact ⟨"", by simp [format, Layout.lines, h, Except.map], rfl⟩
  | cons a rest =>
      obtain ⟨g, t⟩ := a
      obtain rfl := Layout.gaps_head h
      obtain ⟨ht, hrest⟩ := List.forall_mem_cons.1 hts
      refine ⟨_, by simp only [format, Layout.lines, h, Except.map]; rfl, ?_⟩
      rw [Layout.toList_breakLines ht.solid hrest]
      rfl

end Gosmith.Go
