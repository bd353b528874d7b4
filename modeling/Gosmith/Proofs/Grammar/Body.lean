import Gosmith.Proofs.Grammar.Nesting

namespace Gosmith.Go.Grammar

open SourceFile

def after (us : List Token) (r : List Token × List Token) : List Token × List Token :=
  (us ++ r.1, r.2)

theorem declTokens_plain {stack : List String} {t : Token} (ts : List Token)
    (ho : t.isOpener = false) (hc : t.isCloser = false) (he : t.kind ≠ .eof)
    (hs : t.kind = .semicolon → stack ≠ []) :
    declTokens stack (t :: ts) = (declTokens stack ts).map (after [t]) := by
  have hs' : (decide (t.kind = .semicolon) && stack.isEmpty) = false := by
    by_cases hk : t.kind = .semicolon
    · simp [hs hk]
    · simp [hk]
  simp only [declTokens, he, if_false, hs', ho, hc, Bool.false_eq_true]
  cases declTokens stack ts <;> rfl

theorem declTokens_opener {stack : List String} {t : Token} (ts : List Token)
    (ho : t.isOpener = true) :
    declTokens stack (t :: ts) = (declTokens (t.text :: stack) ts).map (after [t]) := by
  have hk := Token.kind_of_isOpener ho
  simp only [declTokens, hk, reduceCtorEq, if_false, decide_false, Bool.false_and,
    Bool.false_eq_true, ho, if_true]
  cases declTokens (t.text :: stack) ts <;> rfl

theorem declTokens_closer {o : String} {stack : List String} {t : Token} (ts : List Token)
    (hc : t.isCloser = true) (hm : Token.closerOf o = t.text) :
    declTokens (o :: stack) (t :: ts) = (declTokens stack ts).map (after [t]) := by
  have hk := Token.kind_of_isCloser hc
  have ho := Token.isOpener_of_isCloser hc
  simp only [declTokens, hk, reduceCtorEq, if_false, decide_false, Bool.false_and,
    Bool.false_eq_true, ho, hc, if_true, hm]
  cases declTokens stack ts <;> rfl

theorem map_after {us vs : List Token} (r : Except Diagnostic (List Token × List Token)) :
    (r.map (after vs)).map (after us) = r.map (after (us ++ vs)) := by
  cases r <;> simp [Except.map, after]

theorem declTokens_nested {free : Bool} {us : List Token} (h : Nested free us)
    {stack : List String} (hfree : free = true → stack ≠ []) (ts : List Token) :
    declTokens stack (us ++ ts) = (declTokens stack ts).map (after us) := by
  induction h generalizing stack ts with
  | nil =>
      rw [List.nil_append]
      cases declTokens stack ts <;> rfl
  | plain ho hc he hs h ih =>
      rw [List.cons_append, declTokens_plain _ ho hc he (fun hk => hfree (hs hk)), ih hfree,
        map_after, List.singleton_append]
  | group ho hc hm hi hr ihi ihr =>
      rw [List.cons_append, List.append_assoc, List.cons_append, declTokens_opener _ ho,
        ihi (by simp), declTokens_closer _ hc hm, ihr hfree, map_after, map_after, map_after]
      simp

theorem declTokens_terminator {us rest : List Token} (h : Terminator us rest) :
    declTokens [] us = .ok ([], rest) := by
  cases h with
  | semicolon hk => simp [declTokens, hk]
  | atEnd hk => simp [declTokens, hk]

theorem map_after_eq_ok {t : Token} {tokens rest : List Token}
    {r : Except Diagnostic (List Token × List Token)} (h : r.map (after [t]) = .ok (tokens, rest)) :
    ∃ tokens', tokens = t :: tokens' ∧ r = .ok (tokens', rest) := by
  cases r with
  | error e => simp [Except.map] at h
  | ok found =>
      simp only [Except.map, after, Except.ok.injEq, Prod.mk.injEq] at h
      exact ⟨found.1, by simp [← h.1], by simp [← h.2]⟩

theorem declTokens_cons_eq_ok {stack : List String} {t : Token} {ts tokens rest : List Token}
    (h : declTokens stack (t :: ts) = .ok (tokens, rest)) :
    (stack = [] ∧ tokens = [] ∧ t.kind = .eof ∧ rest = t :: ts) ∨
    (stack = [] ∧ tokens = [] ∧ t.kind = .semicolon ∧ rest = ts) ∨
    ∃ stack' tokens', tokens = t :: tokens' ∧ t.kind ≠ .eof ∧
      declTokens stack' ts = .ok (tokens', rest) ∧
      ∀ us, Chain stack' us → Chain stack (t :: us) := by
  by_cases he : t.kind = .eof
  · cases stack with
    | nil => simp_all [declTokens]
    | cons o below => simp [declTokens, he, fail] at h
  · by_cases ho : t.isOpener = true
    · rw [declTokens_opener _ ho] at h
      obtain ⟨tokens', htokens, hd⟩ := map_after_eq_ok h
      exact .inr (.inr ⟨_, _, htokens, he, hd, fun us => chain_opener ho⟩)
    · rw [Bool.not_eq_true] at ho
      by_cases hc : t.isCloser = true
      · have hk := Token.kind_of_isCloser hc
        cases stack with
        | nil => simp [declTokens, hk, ho, hc, fail] at h
        | cons o below =>
            by_cases hm : Token.closerOf o = t.text
            · rw [declTokens_closer _ hc hm] at h
              obtain ⟨tokens', htokens, hd⟩ := map_after_eq_ok h
              exact .inr (.inr ⟨_, _, htokens, he, hd, fun us => chain_closer hc hm⟩)
            · simp [declTokens, hk, ho, hc, hm, fail] at h
      · rw [Bool.not_eq_true] at hc
        by_cases hs : t.kind = .semicolon ∧ stack = []
        · obtain ⟨hk, rfl⟩ := hs
          simp_all [declTokens]
        · have hs' : t.kind = .semicolon → stack ≠ [] := fun hk hstack => hs ⟨hk, hstack⟩
          rw [declTokens_plain _ ho hc he hs'] at h
          obtain ⟨tokens', htokens, hd⟩ := map_after_eq_ok h
          exact .inr (.inr ⟨_, _, htokens, he, hd, fun us => chain_plain ho hc he hs'⟩)

theorem chain_of_declTokens {stack : List String} {ts tokens rest : List Token} (hts : Closed ts)
    (h : declTokens stack ts = .ok (tokens, rest)) :
    ∃ us, ts = tokens ++ us ∧ Chain stack tokens ∧ Terminator us rest := by
  induction ts generalizing stack tokens with
  | nil => exact hts.elim
  | cons t ts ih =>
      rcases declTokens_cons_eq_ok h with ⟨rfl, rfl, he, rfl⟩ | ⟨rfl, rfl, hk, rfl⟩ |
        ⟨stack', tokens', rfl, he, hd, hchain⟩
      · obtain rfl : ts = [] := by simpa [Closed, he] using hts
        exact ⟨[t], rfl, .nil, .atEnd he⟩
      · exact ⟨t :: rest, rfl, .nil, .semicolon hk⟩
      · obtain ⟨us, rfl, hc, ht⟩ := ih (closed_tail hts he) hd
        exact ⟨us, rfl, hchain tokens' hc, ht⟩

theorem declTokens_iff {ts tokens rest : List Token} (hts : Closed ts) :
    declTokens [] ts = .ok (tokens, rest) ↔
      ∃ us, ts = tokens ++ us ∧ Nested false tokens ∧ Terminator us rest := by
  constructor
  · exact chain_of_declTokens hts
  · rintro ⟨us, rfl, hn, ht⟩
    rw [declTokens_nested hn (by simp), declTokens_terminator ht]
    simp [Except.map, after]

theorem closerIndex?_nested {free : Bool} {us : List Token} (h : Nested free us) (depth : Nat)
    (ts : List Token) :
    closerIndex? (depth + 1) (us ++ ts) = (closerIndex? (depth + 1) ts).map (· + us.length) := by
  induction h generalizing depth ts with
  | nil => simp
  | plain ho hc he hs h ih =>
      simp only [List.cons_append, closerIndex?, ho, hc, ih, Bool.false_eq_true, if_false,
        Option.map_map, List.length_cons]
      rfl
  | @group free o c inner rest ho hc hm hi hr ihi ihr =>
      have hco := Token.isOpener_of_isCloser hc
      rw [List.cons_append, List.append_assoc, List.cons_append]
      simp only [closerIndex?, ho, if_true, ihi (depth + 1), hco, hc, Bool.false_eq_true, if_false,
        Option.map_map, List.length_cons, List.length_append]
      rw [if_neg (by omega), Nat.add_sub_cancel, ihr depth]
      simp only [Option.map_map]
      congr 1
      funext n
      simp
      omega

theorem closerIndex?_inner {inner : List Token} {c : Token} (hi : Nested true inner)
    (hc : c.isCloser = true) (rest : List Token) :
    closerIndex? 1 (inner ++ c :: rest) = some inner.length := by
  have hco := Token.isOpener_of_isCloser hc
  rw [closerIndex?_nested hi 0]
  simp [closerIndex?, hco, hc]

theorem partner_group {o c : Token} {inner rest : List Token} (ho : o.isOpener = true)
    (hc : c.isCloser = true) (hi : Nested true inner) :
    partner (o :: (inner ++ c :: rest)) = inner.length + 1 := by
  simp [partner, closerIndex?, ho, closerIndex?_inner hi hc rest]

end Gosmith.Go.Grammar
