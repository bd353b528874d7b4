import Gosmith.Proofs.Lexeme.Trivia
import Gosmith.Proofs.Text.Lines

namespace Gosmith.Go

open Gosmith.Text

structure Position.Within (pos : Position) (text : List Char) : Prop where
  column_pos : 1 ≤ pos.column
  line_pos : 1 ≤ pos.line
  line_le : pos.line ≤ text.count '\n' + 1

namespace Position.Within

variable {pos : Position} {text : List Char}

theorem mono (h : pos.Within text) {more : List Char} (hpre : text <+: more) :
    pos.Within more := by
  have hcount := hpre.sublist.count_le '\n'
  exact ⟨h.column_pos, h.line_pos, by have := h.line_le; omega⟩

theorem advance (h : pos.Within text) (p : Piece) : (pos.advance p).Within (text ++ p.text) := by
  have hline := h.line_le
  have hcount := @List.count_append _ _ '\n' text p.text
  simp only [Position.advance, count_eq_count]
  split
  · refine ⟨Nat.le_add_right_of_le h.column_pos, h.line_pos, ?_⟩
    dsimp only
    omega
  · refine ⟨Nat.le_add_left 1 _, Nat.le_add_right_of_le h.line_pos, ?_⟩
    dsimp only
    omega

theorem line_le_length {source : String} (h : pos.Within source.toList) :
    pos.line ≤ (lines source).length := by
  rw [length_lines]
  exact h.line_le

end Position.Within

namespace Piece

theorem texts_split_isPrefix (cs : List Char) : texts (split cs).1 <+: cs := by
  fun_induction split cs with
  | case1 => exact List.nil_prefix
  | case2 => exact List.nil_prefix
  | case3 c rest p after h ih =>
      rw [← (next_append h).1]
      exact List.prefix_append_right_inj p.text |>.2 ih

end Piece

namespace Token

open Piece (texts)

namespace Pending

variable {s : Pending} {text : List Char}

theorem within_lineEnd (h : s.pos.Within text) : ∀ t ∈ s.lineEnd, t.pos.Within text := by
  intro t ht
  unfold lineEnd at ht
  split at ht
  · rw [List.mem_singleton.1 ht]
    exact h
  · simp at ht

theorem within_step (h : s.pos.Within text) (p : Piece) :
    (∀ t ∈ (s.step p).1, t.pos.Within text) ∧ (s.step p).2.pos.Within (text ++ p.text) := by
  have hnext := h.advance p
  cases hgap : p.kind.isGap with
  | false =>
      rw [step_lexeme hgap]
      exact ⟨List.forall_mem_singleton.2 h, hnext⟩
  | true =>
      by_cases hline : p.text.count '\n' = 0
      · rw [step_plain hgap hline]
        exact ⟨by simp, hnext⟩
      · rw [step_line hgap hline]
        exact ⟨within_lineEnd h, hnext⟩

theorem within_run (h : s.pos.Within text) (ps : List Piece) :
    (∀ t ∈ (s.run ps).1, t.pos.Within (text ++ texts ps)) ∧
      (s.run ps).2.pos.Within (text ++ texts ps) := by
  induction ps generalizing s text with
  | nil => exact ⟨by simp [run], by simpa [texts, run] using h⟩
  | cons p ps ih =>
      obtain ⟨htokens, hnext⟩ := within_step h p
      obtain ⟨hmore, hlast⟩ := ih hnext
      have htexts : text ++ p.text ++ texts ps = text ++ texts (p :: ps) := by simp [texts]
      rw [htexts] at hmore hlast
      rw [run_cons]
      refine ⟨fun t ht => ?_, hlast⟩
      rcases List.mem_append.1 ht with ht | ht
      · exact (htokens t ht).mono (List.prefix_append _ _)
      · exact hmore t ht

theorem within_finish (h : s.pos.Within text) : ∀ t ∈ s.finish, t.pos.Within text := by
  intro t ht
  rcases List.mem_append.1 ht with ht | ht
  · exact within_lineEnd h t ht
  · rw [List.mem_singleton.1 ht]
    exact h

theorem within_split (cs : List Char) :
    (∀ t ∈ (({} : Pending).run (Piece.split cs).1).1, t.pos.Within cs) ∧
      (({} : Pending).run (Piece.split cs).1).2.pos.Within cs := by
  have hstart : ({} : Pending).pos.Within [] := ⟨le_refl 1, le_refl 1, le_refl 1⟩
  have hpre := Piece.texts_split_isPrefix cs
  obtain ⟨htokens, hlast⟩ := within_run hstart (Piece.split cs).1
  exact ⟨fun t ht => (htokens t ht).mono hpre, hlast.mono hpre⟩

end Pending

theorem within_ofSource {source : String} {ts : List Token} (h : ofSource source = .ok ts) :
    ∀ t ∈ ts, t.pos.Within source.toList := by
  obtain ⟨htokens, hlast⟩ := Pending.within_split source.toList
  rw [(ofSource_eq_ok.1 h).2]
  intro t ht
  rcases List.mem_append.1 ht with ht | ht
  · exact htokens t ht
  · exact Pending.within_finish hlast t ht

theorem within_of_error {source : String} {d : Diagnostic} (h : ofSource source = .error d) :
    d.pos.Within source.toList := by
  rw [(ofSource_eq_error.1 h).2]
  exact (Pending.within_split source.toList).2

end Token

end Gosmith.Go
