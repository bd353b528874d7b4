import Gosmith.Proofs.Lexeme.Token
import Gosmith.Go.SourceFile

namespace Gosmith.Go

namespace Token

theorem kind_of_isOpener {t : Token} (h : t.isOpener = true) : t.kind = .op := by
  simp only [isOpener, Bool.and_eq_true, beq_iff_eq] at h
  exact h.1

theorem kind_of_isCloser {t : Token} (h : t.isCloser = true) : t.kind = .op := by
  simp only [isCloser, Bool.and_eq_true, beq_iff_eq] at h
  exact h.1

theorem isCloser_of_isOpener {t : Token} (h : t.isOpener = true) : t.isCloser = false := by
  simp only [isOpener, openers, Bool.and_eq_true, beq_iff_eq, List.contains_cons, Bool.or_eq_true,
    List.contains_nil, Bool.false_eq_true, or_false] at h
  rcases h.2 with h | h | h <;> simp [isCloser, closers, h]

theorem isOpener_of_isCloser {t : Token} (h : t.isCloser = true) : t.isOpener = false := by
  by_contra ho
  rw [Bool.not_eq_false] at ho
  simp [isCloser_of_isOpener ho] at h

theorem isOpener_of_isOp {t : Token} {text : String} (h : t.isOp text = true)
    (hm : text ∈ openers) : t.isOpener = true := by
  simp only [isOp, Bool.and_eq_true, beq_iff_eq] at h
  simp [isOpener, h.1, h.2, hm]

theorem isCloser_of_isOp {t : Token} {text : String} (h : t.isOp text = true)
    (hm : text ∈ closers) : t.isCloser = true := by
  simp only [isOp, Bool.and_eq_true, beq_iff_eq] at h
  simp [isCloser, h.1, h.2, hm]

theorem isOpener_of_key {t u : Token} (h : t.key = u.key) : t.isOpener = u.isOpener := by
  simp only [key, Prod.mk.injEq] at h
  rw [isOpener, isOpener, h.1, h.2]

theorem isCloser_of_key {t u : Token} (h : t.key = u.key) : t.isCloser = u.isCloser := by
  simp only [key, Prod.mk.injEq] at h
  rw [isCloser, isCloser, h.1, h.2]

theorem isOp_of_key {t u : Token} (h : t.key = u.key) (text : String) :
    t.isOp text = u.isOp text := by
  simp only [key, Prod.mk.injEq] at h
  rw [isOp, isOp, h.1, h.2]

theorem isKeyword_of_key {t u : Token} (h : t.key = u.key) (text : String) :
    t.isKeyword text = u.isKeyword text := by
  simp only [key, Prod.mk.injEq] at h
  rw [isKeyword, isKeyword, h.1, h.2]

end Token

namespace Grammar

/-- Tokens with matching brackets. The flag tells whether semicolons may stand outside of them. -/
inductive Nested : Bool → List Token → Prop
  | nil {free : Bool} : Nested free []
  | plain {free : Bool} {t : Token} {ts : List Token} (ho : t.isOpener = false)
      (hc : t.isCloser = false) (he : t.kind ≠ .eof) (hs : t.kind = .semicolon → free = true)
      (h : Nested free ts) : Nested free (t :: ts)
  | group {free : Bool} {o c : Token} {inner rest : List Token} (ho : o.isOpener = true)
      (hc : c.isCloser = true) (hm : Token.closerOf o.text = c.text) (hi : Nested true inner)
      (hr : Nested free rest) : Nested free (o :: (inner ++ c :: rest))

namespace Nested

theorem kind_ne_eof {free : Bool} {ts : List Token} (h : Nested free ts) :
    ∀ t ∈ ts, t.kind ≠ .eof := by
  induction h with
  | nil => simp
  | plain ho hc he hs h ih =>
      intro t ht
      rcases List.mem_cons.1 ht with rfl | ht
      · exact he
      · exact ih t ht
  | group ho hc hm hi hr ihi ihr =>
      intro t ht
      simp only [List.mem_cons, List.mem_append] at ht
      rcases ht with rfl | ht | rfl | ht
      · simp [Token.kind_of_isOpener ho]
      · exact ihi t ht
      · simp [Token.kind_of_isCloser hc]
      · exact ihr t ht

theorem of_group {free : Bool} {o : Token} {ts : List Token} (ho : o.isOpener = true)
    (h : Nested free (o :: ts)) : ∃ inner c rest, ts = inner ++ c :: rest ∧ c.isCloser = true ∧
      Token.closerOf o.text = c.text ∧ Nested true inner ∧ Nested free rest := by
  cases h with
  | plain hno => simp [ho] at hno
  | group _ hc hm hi hr => exact ⟨_, _, _, rfl, hc, hm, hi, hr⟩

theorem of_plain {free : Bool} {t : Token} {ts : List Token} (ho : t.isOpener = false)
    (h : Nested free (t :: ts)) : Nested free ts := by
  cases h with
  | plain _ _ _ _ h => exact h
  | group hyes => simp [ho] at hyes

end Nested

def Chain : List String → List Token → Prop
  | [], ts => Nested false ts
  | o :: below, ts => ∃ inner c rest, ts = inner ++ c :: rest ∧ Nested true inner ∧
      c.isCloser = true ∧ Token.closerOf o = c.text ∧ Chain below rest

theorem chain_plain {stack : List String} {t : Token} {ts : List Token} (ho : t.isOpener = false)
    (hc : t.isCloser = false) (he : t.kind ≠ .eof) (hs : t.kind = .semicolon → stack ≠ [])
    (h : Chain stack ts) : Chain stack (t :: ts) := by
  cases stack with
  | nil => exact .plain ho hc he (fun hk => absurd rfl (hs hk)) h
  | cons o below =>
      obtain ⟨inner, c, rest, rfl, hi, hr⟩ := h
      exact ⟨t :: inner, c, rest, rfl, .plain ho hc he (fun _ => rfl) hi, hr⟩

theorem chain_opener {stack : List String} {t : Token} {ts : List Token} (ho : t.isOpener = true)
    (h : Chain (t.text :: stack) ts) : Chain stack (t :: ts) := by
  obtain ⟨inner, c, rest, rfl, hi, hc, hm, hr⟩ := h
  cases stack with
  | nil => exact .group ho hc hm hi hr
  | cons o below =>
      obtain ⟨inner', c', rest', rfl, hi', hr'⟩ := hr
      exact ⟨t :: (inner ++ c :: inner'), c', rest', by simp, .group ho hc hm hi hi', hr'⟩

theorem chain_closer {o : String} {stack : List String} {t : Token} {ts : List Token}
    (hc : t.isCloser = true) (hm : Token.closerOf o = t.text) (h : Chain stack ts) :
    Chain (o :: stack) (t :: ts) :=
  ⟨[], t, ts, rfl, .nil, hc, hm, h⟩

/-- A list of tokens whose last one, and no other, is the end of the file. -/
def Closed : List Token → Prop
  | [] => False
  | t :: ts => if t.kind = .eof then ts = [] else Closed ts

theorem closed_append {us ts : List Token} (h : ∀ t ∈ us, t.kind ≠ .eof) :
    Closed (us ++ ts) ↔ Closed ts := by
  induction us with
  | nil => rfl
  | cons u us ih =>
      have hu := h u List.mem_cons_self
      simp only [List.cons_append, Closed, hu, if_false]
      exact ih fun t ht => h t (List.mem_cons_of_mem _ ht)

theorem closed_tail {t : Token} {ts : List Token} (h : Closed (t :: ts)) (ht : t.kind ≠ .eof) :
    Closed ts := by
  simpa [Closed, ht] using h

theorem closed_ofSource {source : String} {ts : List Token} (h : Token.ofSource source = .ok ts) :
    Closed ts := by
  rw [(Token.ofSource_eq_ok.1 h).2, Token.Pending.finish,
    closed_append fun t => Token.Pending.kind_of_mem_run,
    closed_append fun t => Token.Pending.kind_of_mem_lineEnd]
  simp [Closed]

inductive Terminator : List Token → List Token → Prop
  | semicolon {t : Token} {rest : List Token} (h : t.kind = .semicolon) : Terminator (t :: rest) rest
  | atEnd {t : Token} (h : t.kind = .eof) : Terminator [t] [t]

theorem Terminator.closed {ts rest : List Token} (h : Terminator ts rest) (hts : Closed ts) :
    Closed rest := by
  cases h with
  | semicolon hk => exact closed_tail hts (by simp [hk])
  | atEnd => exact hts

theorem terminator_iff {ts rest : List Token} (hts : Closed ts) :
    SourceFile.terminator ts = .ok rest ↔ Terminator ts rest := by
  cases ts with
  | nil => exact hts.elim
  | cons t us =>
      constructor
      · intro h
        by_cases hs : t.kind = .semicolon
        · obtain rfl : us = rest := by simpa [SourceFile.terminator, SourceFile.peek, hs] using h
          exact .semicolon hs
        · by_cases he : t.kind = .eof
          · obtain rfl : us = [] := by simpa [Closed, he] using hts
            obtain rfl : [t] = rest := by simpa [SourceFile.terminator, SourceFile.peek, he] using h
            exact .atEnd he
          · simp [SourceFile.terminator, SourceFile.peek, SourceFile.fail, hs, he] at h
      · intro h
        cases h with
        | semicolon hk => simp [SourceFile.terminator, SourceFile.peek, hk]
        | atEnd hk => simp [SourceFile.terminator, SourceFile.peek, hk]

end Grammar

end Gosmith.Go
