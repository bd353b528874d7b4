import Gosmith.Proofs.Lexeme.Basic

namespace Gosmith.Go

open Gosmith.Text

namespace Token

def key (t : Token) : Kind × String :=
  (t.kind, t.text)

def written (ts : List Token) : List Token :=
  ts.filter fun t => !t.isAuto && t.kind != .eof

def isName (s : String) : Bool :=
  match ofSource s with
  | .ok ts => (written ts).map key == [(.ident, s)]
  | .error _ => false

theorem written_append (as bs : List Token) : written (as ++ bs) = written as ++ written bs := by
  simp [written]

end Token

namespace Piece

def key (p : Piece) : Token.Kind × String :=
  (p.tokenKind, String.ofList p.text)

def lexemes (ps : List Piece) : List Piece :=
  ps.filter fun p => !p.kind.isGap

theorem numberKind_cases (text : List Char) :
    numberKind text = .imag ∨ numberKind text = .float ∨ numberKind text = .int := by
  simp only [numberKind]
  split
  · simp
  · split
    · split <;> simp
    · simp
    · simp
    · split <;> simp

inductive Makes (p : Piece) : Token.Kind → Prop
  | string (h : p.kind = .rawString ∨ p.kind = .string) : Makes p .string
  | char (h : p.kind = .char) : Makes p .char
  | number {kind : Token.Kind} (h : p.kind = .number)
      (hk : kind = .imag ∨ kind = .float ∨ kind = .int) : Makes p kind
  | keyword (h : p.kind = .word) : Makes p .keyword
  | ident (h : p.kind = .word) (hk : isKeyword (String.ofList p.text) = false) : Makes p .ident
  | semicolon (h : p.kind.isGap = true ∨ p.kind = .op) (ht : p.text = [';']) : Makes p .semicolon
  | op (h : p.kind.isGap = true ∨ p.kind = .op) : Makes p .op

theorem makes (p : Piece) : Makes p p.tokenKind := by
  obtain ⟨kind, text⟩ := p
  have hother (h : kind.isGap = true ∨ kind = .op) :
      Makes ⟨kind, text⟩ (if text = [';'] then .semicolon else .op) := by
    split
    · exact .semicolon h ‹_›
    · exact .op h
  cases kind with
  | rawString => exact .string (.inl rfl)
  | string => exact .string (.inr rfl)
  | char => exact .char rfl
  | number => exact .number rfl (numberKind_cases text)
  | word =>
      simp only [tokenKind]
      split
      · exact .keyword rfl
      · rename_i hk
        exact .ident rfl (Bool.eq_false_iff.2 hk)
  | op => exact hother (.inr rfl)
  | _ => exact hother (.inl rfl)

theorem tokenKind_ne_eof (p : Piece) : p.tokenKind ≠ .eof := by
  intro h
  have hm := p.makes
  rw [h] at hm
  cases hm with
  | number _ hk => simp at hk

theorem text_of_semicolon {p : Piece} (h : p.tokenKind = .semicolon) : p.text = [';'] := by
  have hm := p.makes
  rw [h] at hm
  cases hm with
  | number _ hk => simp at hk
  | semicolon _ ht => exact ht

theorem kind_of_ident {p : Piece} (h : p.tokenKind = .ident) :
    p.kind = .word ∧ isKeyword (String.ofList p.text) = false := by
  have hm := p.makes
  rw [h] at hm
  cases hm with
  | number _ hk => simp at hk
  | ident hw hk => exact ⟨hw, hk⟩

end Piece

namespace Token

theorem toList_of_key {t : Token} {p : Piece} (h : t.key = p.key) : t.text.toList = p.text := by
  have htext : t.text = String.ofList p.text := congrArg Prod.snd h
  rw [htext, String.toList_ofList]

theorem kind_of_isAuto {t : Token} (h : t.isAuto = true) : t.kind = .semicolon := by
  simp only [isAuto, Bool.and_eq_true, beq_iff_eq] at h
  exact h.1

theorem isAuto_of_key {t : Token} {p : Piece} (h : t.key = p.key) : t.isAuto = false := by
  simp only [key, Piece.key, Prod.mk.injEq] at h
  by_contra hauto
  simp only [isAuto, Bool.not_eq_false, Bool.and_eq_true, beq_iff_eq] at hauto
  have htext := Piece.text_of_semicolon (h.1 ▸ hauto.1)
  rw [h.2, htext] at hauto
  exact absurd hauto.2 (by decide)

theorem written_of_key {t : Token} {p : Piece} (h : t.key = p.key) : written [t] = [t] := by
  have hkind : t.kind ≠ .eof := by
    have := congrArg Prod.fst h
    simp only [key, Piece.key] at this
    rw [this]
    exact Piece.tokenKind_ne_eof p
  simp [written, isAuto_of_key h, hkind]

namespace Pending

theorem written_lineEnd (s : Pending) : written s.lineEnd = [] := by
  unfold lineEnd
  split
  · simp [written, isAuto]
  · rfl

theorem written_finish (s : Pending) : written s.finish = [] := by
  rw [finish, written_append, written_lineEnd]
  rfl

theorem key_token (s : Pending) (p : Piece) : (s.token p).key = p.key := rfl

theorem written_step (s : Pending) (p : Piece) :
    (written (s.step p).1).map key = (Piece.lexemes [p]).map Piece.key := by
  simp only [step]
  split
  · rename_i hgap
    split
    · simp [written, Piece.lexemes, hgap]
    · simp [written_lineEnd, Piece.lexemes, hgap]
  · rename_i hgap
    simp [written_of_key (s.key_token p), key_token, Piece.lexemes, hgap]

theorem step_plain {s : Pending} {p : Piece} (hgap : p.kind.isGap = true)
    (hp : p.text.count '\n' = 0) :
    s.step p = ([], { s with pos := s.pos.advance p, space := true }) := by
  rw [List.count_eq_length_filter] at hp
  simp [step, hgap, count, hp]

theorem step_line {s : Pending} {p : Piece} (hgap : p.kind.isGap = true)
    (hp : p.text.count '\n' ≠ 0) : s.step p =
      (s.lineEnd, { pos := s.pos.advance p, newlines := s.newlines + p.text.count '\n' }) := by
  rw [List.count_eq_length_filter] at hp ⊢
  cases hn : (p.text.filter (· == '\n')).length with
  | zero => exact absurd hn hp
  | succ n => simp [step, hgap, count, hn]

theorem step_lexeme {s : Pending} {p : Piece} (hgap : p.kind.isGap = false) : s.step p =
    ([s.token p], { pos := s.pos.advance p, breaks := (s.token p).endsStatement }) := by
  simp [step, hgap]

theorem run_cons (s : Pending) (p : Piece) (ps : List Piece) :
    s.run (p :: ps) = ((s.step p).1 ++ ((s.step p).2.run ps).1, ((s.step p).2.run ps).2) := rfl

theorem written_run (s : Pending) (ps : List Piece) :
    (written (s.run ps).1).map key = (Piece.lexemes ps).map Piece.key := by
  induction ps generalizing s with
  | nil => rfl
  | cons p ps ih =>
      rw [run_cons, written_append, List.map_append, written_step, ih, ← List.map_append]
      simp [Piece.lexemes, ← List.filter_append]

theorem kind_of_mem_lineEnd {s : Pending} {t : Token} (ht : t ∈ s.lineEnd) : t.kind ≠ .eof := by
  unfold lineEnd at ht
  split at ht
  · rw [List.mem_singleton.1 ht]
    simp
  · simp at ht

theorem kind_of_mem_step {s : Pending} {p : Piece} {t : Token} (ht : t ∈ (s.step p).1) :
    t.kind ≠ .eof := by
  simp only [step] at ht
  split at ht
  · split at ht
    · simp at ht
    · exact kind_of_mem_lineEnd ht
  · rw [List.mem_singleton.1 ht]
    exact Piece.tokenKind_ne_eof p

theorem kind_of_mem_run {s : Pending} {ps : List Piece} {t : Token} (ht : t ∈ (s.run ps).1) :
    t.kind ≠ .eof := by
  induction ps generalizing s with
  | nil => simp [run] at ht
  | cons p ps ih =>
      rw [run_cons] at ht
      rcases List.mem_append.1 ht with ht | ht
      · exact kind_of_mem_step ht
      · exact ih ht

end Pending

theorem ofSource_eq_ok {source : String} {ts : List Token} :
    ofSource source = .ok ts ↔ (Piece.split source.toList).2 = none ∧
      ts = (({} : Pending).run (Piece.split source.toList).1).1 ++
        (({} : Pending).run (Piece.split source.toList).1).2.finish := by
  simp only [ofSource]
  split
  · rename_i f hf
    simp [hf]
  · rename_i hf
    simp [hf, eq_comm]

theorem ofSource_eq_error {source : String} {d : Diagnostic} :
    ofSource source = .error d ↔ (Piece.split source.toList).2 = some d.fault ∧
      d.pos = (({} : Pending).run (Piece.split source.toList).1).2.pos := by
  obtain ⟨fault, pos⟩ := d
  simp only [ofSource]
  split
  · rename_i f hf
    simp [hf, eq_comm]
  · rename_i hf
    simp [hf]

theorem written_ofSource {source : String} {ts : List Token} (h : ofSource source = .ok ts) :
    (written ts).map key = (Piece.lexemes (Piece.split source.toList).1).map Piece.key := by
  rw [(ofSource_eq_ok.1 h).2, written_append, Pending.written_finish, List.append_nil,
    Pending.written_run]

def Lexed (t : Token) : Prop :=
  ∃ p, Piece.Lexeme p ∧ t.key = p.key

theorem lexed_of_mem_written {source : String} {ts : List Token} (h : ofSource source = .ok ts)
    {t : Token} (ht : t ∈ written ts) : t.Lexed := by
  have hkey : t.key ∈ (written ts).map key := List.mem_map_of_mem ht
  rw [written_ofSource h] at hkey
  obtain ⟨p, hp, heq⟩ := List.mem_map.1 hkey
  simp only [Piece.lexemes, List.mem_filter, Bool.not_eq_true'] at hp
  exact ⟨p, Piece.lexeme_of_mem_split hp.1 hp.2, heq.symm⟩

theorem isName_iff {s : String} : isName s = true ↔
    ∃ c cs, s.toList = c :: cs ∧ startsWord c = true ∧ (∀ d ∈ cs, isWord d = true) ∧
      Go.isKeyword s = false := by
  constructor
  · intro h
    unfold isName at h
    split at h
    · rename_i ts hts
      simp only [beq_iff_eq] at h
      rw [written_ofSource hts] at h
      obtain ⟨p, hp, hkey⟩ := List.map_eq_singleton_iff.1 h
      have hmem : p ∈ Piece.lexemes (Piece.split s.toList).1 := by simp [hp]
      simp only [Piece.lexemes, List.mem_filter, Bool.not_eq_true'] at hmem
      have hlex := Piece.lexeme_of_mem_split hmem.1 hmem.2
      simp only [Piece.key, Prod.mk.injEq] at hkey
      obtain ⟨hword, hnokey⟩ := Piece.kind_of_ident hkey.1
      have hs : s.toList = p.text := by simp [← hkey.2]
      cases hlex with
      | word hc hcs => exact ⟨_, _, hs, hc, hcs, hkey.2 ▸ hnokey⟩
      | _ => simp at hword
    · simp at h
  · rintro ⟨c, cs, hs, hc, hcs, hnokey⟩
    have hsplit : Piece.split s.toList = ([⟨.word, c :: cs⟩], none) := by
      have hclear : Piece.Clear ⟨.word, c :: cs⟩ [] := Piece.stops_nil _
      have hlex := Piece.split_lexeme (.word hc hcs) hclear
      rw [hs]
      simpa [Piece.split] using hlex
    have hok := ofSource_eq_ok.2 ⟨by rw [hsplit], rfl⟩
    have hkey : Piece.key ⟨.word, c :: cs⟩ = (.ident, s) := by
      simp [Piece.key, Piece.tokenKind, ← hs, hnokey]
    have hwritten := written_ofSource hok
    rw [hsplit] at hwritten hok
    simp only [isName, hok, hwritten]
    simp [Piece.lexemes, Piece.Kind.isGap, hkey]

theorem isName_of_ident {source : String} {ts : List Token} (h : ofSource source = .ok ts)
    {t : Token} (ht : t ∈ ts) (hk : t.kind = .ident) : isName t.text = true := by
  have hw : t ∈ written ts := by simp [written, ht, isAuto, hk]
  obtain ⟨p, hlex, hkey⟩ := lexed_of_mem_written h hw
  have htext := toList_of_key hkey
  simp only [key, Piece.key, Prod.mk.injEq] at hkey
  obtain ⟨hword, hnokey⟩ := Piece.kind_of_ident (hkey.1 ▸ hk)
  rw [isName_iff]
  cases hlex with
  | word hc hcs => exact ⟨_, _, htext, hc, hcs, hkey.2 ▸ hnokey⟩
  | _ => simp at hword

theorem isName_ne_dot {s : String} (h : isName s = true) : s ≠ "." := by
  rintro rfl
  obtain ⟨c, cs, hs, hc, -⟩ := isName_iff.1 h
  have hdot : c = '.' := by
    have : ['.'] = c :: cs := by simpa using hs
    simp at this
    exact this.1.symm
  rw [hdot] at hc
  exact absurd hc (by decide)

theorem isName_ne_empty {s : String} (h : isName s = true) : s ≠ "" := by
  rintro rfl
  obtain ⟨c, cs, hs, -⟩ := isName_iff.1 h
  simp at hs

end Token

end Gosmith.Go
