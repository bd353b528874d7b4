import Gosmith.Proofs.Lexeme.Basic
import Gosmith.Template.Lexer

namespace Gosmith.Template

open Gosmith.Text

theorem length_dropWhile_cons {p : Char → Bool} {c : Char} (hc : p c = true) (cs : List Char) :
    ((c :: cs).dropWhile p).length < (c :: cs).length := by
  rw [List.dropWhile_cons_of_pos hc]
  exact Nat.lt_succ_of_le (List.dropWhile_suffix p).length_le

theorem length_trimLeft (cs : List Char) : (trimLeft cs).length ≤ cs.length :=
  (List.dropWhile_suffix isBlank).length_le

theorem length_takeSign (cs : List Char) : (takeSign cs).2.length ≤ cs.length := by
  unfold takeSign
  split <;> simp

theorem length_dropPrefix {mark cs rest : List Char} (h : dropPrefix? mark cs = some rest) :
    rest.length + mark.length = cs.length := by
  fun_induction dropPrefix? mark cs with
  | case1 => simp_all
  | case2 => simp at h
  | case3 p ps cs ih => simp [← ih h, Nat.add_assoc]
  | case4 => simp at h

theorem length_dropWord {word : String} {cs rest : List Char} (h : dropWord? word cs = some rest) :
    rest.length ≤ cs.length := by
  simp only [dropWord?, Option.map_eq_some_iff] at h
  obtain ⟨found, hfound, rfl⟩ := h
  have hdropped := length_dropPrefix hfound
  have hleft := length_trimLeft cs
  have hright := length_trimLeft found
  omega

theorem length_plainTag (opening : Opening) (cs : List Char) :
    (plainTag opening cs).rest.length ≤ cs.length :=
  length_takeSign cs

theorem length_rawTag {cs : List Char} {tag : Tag} (h : rawTag? cs = some tag) :
    tag.rest.length ≤ cs.length := by
  simp only [rawTag?, Option.bind_eq_bind, Option.bind_eq_some_iff] at h
  obtain ⟨found, hfound, h⟩ := h
  have hsign := length_takeSign cs
  have hword := length_dropWord hfound
  split at h
  next rest hrest =>
    cases h
    have hend := length_dropPrefix hrest
    have htrim := length_trimLeft rest
    simp only
    omega
  next =>
    obtain ⟨rest, hrest, htag⟩ := Option.bind_eq_some_iff.1 h
    cases htag
    have hend := length_dropPrefix hrest
    simp only
    omega

theorem length_tagAt {cs : List Char} {tag : Tag} (h : tagAt? cs = some tag) :
    tag.rest.length < cs.length := by
  unfold tagAt? at h
  split at h
  next rest =>
    cases h
    have := length_plainTag .print rest
    simp only [List.length_cons]
    omega
  next rest =>
    cases h
    have := length_plainTag .comment rest
    simp only [List.length_cons]
    omega
  next rest =>
    have hrest : tag.rest.length ≤ rest.length := by
      cases hraw : rawTag? rest with
      | none =>
          obtain rfl : plainTag .block rest = tag := by simpa [hraw] using h
          exact length_plainTag .block rest
      | some raw =>
          obtain rfl : raw = tag := by simpa [hraw] using h
          exact length_rawTag hraw
    simp only [List.length_cons]
    omega
  next => simp at h

theorem length_firstTag {at? : List Char → Option Tag}
    (hat : ∀ cs tag, at? cs = some tag → tag.rest.length < cs.length) {cs text : List Char}
    {tag : Tag} (h : firstTag? at? cs = some (text, tag)) : tag.rest.length < cs.length := by
  induction cs generalizing text with
  | nil => simp [firstTag?] at h
  | cons c cs ih =>
      unfold firstTag? at h
      split at h
      next found hfound =>
        cases h
        exact hat _ _ hfound
      next =>
        obtain ⟨found, hfound, htag⟩ := Option.map_eq_some_iff.1 h
        cases htag
        exact Nat.lt_succ_of_lt (ih hfound)

theorem length_trimmingEnd {mark cs rest : List Char} {trim : Bool} (hmark : mark ≠ [])
    (h : trimmingEnd? mark trim cs = some rest) : rest.length < cs.length := by
  have hpos := List.length_pos_iff.2 hmark
  unfold trimmingEnd? at h
  split at h
  next found hfound =>
    cases h
    have hend := length_dropPrefix hfound
    simp only [List.length_cons] at hend
    omega
  next =>
    split at h
    next found hfound =>
      cases h
      have hend := length_dropPrefix hfound
      have htrim := length_trimLeft found
      simp only [List.length_cons] at hend
      omega
    next =>
      obtain ⟨found, hfound, rfl⟩ := Option.map_eq_some_iff.1 h
      have hend := length_dropPrefix hfound
      have hline : (dropNewline found).length ≤ found.length := by
        unfold dropNewline
        split <;> simp
      split <;> omega

theorem length_printEnd {cs rest : List Char} (h : printEnd? cs = some rest) :
    rest.length < cs.length := by
  unfold printEnd? at h
  split at h
  next found hfound =>
    cases h
    have hend := length_dropPrefix hfound
    have htrim := length_trimLeft found
    simp only [List.length_cons] at hend
    omega
  next =>
    have hend := length_dropPrefix h
    simp only [printEndMark, List.length_cons] at hend
    omega

theorem length_afterComment {trim : Bool} {cs rest : List Char}
    (h : afterComment? trim cs = some rest) : rest.length < cs.length := by
  induction cs with
  | nil => simp [afterComment?] at h
  | cons c cs ih =>
      unfold afterComment? at h
      split at h
      next found hfound =>
        cases h
        exact length_trimmingEnd (by simp [commentEndMark]) hfound
      next => exact Nat.lt_succ_of_lt (ih h)

theorem length_endRawAt {trim : Bool} {cs : List Char} {tag : Tag}
    (h : endRawAt? trim cs = some tag) : tag.rest.length < cs.length := by
  unfold endRawAt? at h
  split at h
  next rest =>
    simp only [Option.bind_eq_bind, Option.bind_eq_some_iff] at h
    obtain ⟨found, hfound, after, hafter, htag⟩ := h
    cases htag
    have hsign := length_takeSign rest
    have hword := length_dropWord hfound
    have hend := length_trimmingEnd (by simp [blockEndMark]) hafter
    simp only [List.length_cons]
    omega
  next => simp at h

theorem length_runOf (p : Char → Bool) (cs : List Char) : (runOf p cs).2.length ≤ cs.length := by
  fun_induction runOf p cs <;> simp_all <;> omega

theorem length_runOf_cons {p : Char → Bool} {c : Char} (hc : p c = true) (cs : List Char) :
    (runOf p (c :: cs)).2.length ≤ cs.length := by
  cases cs with
  | nil => simp [runOf, hc]
  | cons d cs => simpa [runOf, hc] using length_runOf p (d :: cs)

theorem length_digitRun {cs run rest : List Char} (h : digitRun? cs = some (run, rest)) :
    rest.length < cs.length := by
  cases cs with
  | nil => simp [digitRun?] at h
  | cons c cs =>
      simp only [digitRun?] at h
      split at h
      next hc =>
        have hrun : (runOf isDecimal (c :: cs)).2 = rest := by rw [Option.some.inj h]
        have hlength := length_runOf_cons hc cs
        rw [hrun] at hlength
        exact Nat.lt_succ_of_le hlength
      next => simp at h

theorem length_radixRun {base n : Nat} {p : Char → Bool} {cs rest : List Char}
    (h : radixRun? base p cs = some (n, rest)) : rest.length ≤ cs.length := by
  unfold radixRun? at h
  split at h
  next => simp at h
  next run after _ hrun =>
    cases h
    simpa [hrun] using length_runOf p cs

theorem length_marked {n : Nat} {cs rest : List Char} (h : marked? cs = some (n, rest)) :
    rest.length ≤ cs.length := by
  unfold marked? at h
  split at h
  all_goals first
    | exact Nat.le_succ_of_le (length_radixRun h)
    | simp at h

theorem isDecimal_of_le {c : Char} (h : '1' ≤ c ∧ c ≤ '9') : isDecimal c = true := by
  refine Go.Piece.isDecimal_of_isDigit ?_
  simp only [Char.isDigit, Bool.and_eq_true, decide_eq_true_eq, ge_iff_le, Char.le_def,
    UInt32.le_iff_toNat_le, Char.reduceVal, UInt32.reduceToNat] at h ⊢
  omega

theorem length_integer {n : Nat} {cs rest : List Char} (h : integer? cs = some (n, rest)) :
    rest.length < cs.length := by
  unfold integer? at h
  split at h
  next zeros =>
    cases hm : marked? zeros with
    | none =>
        have hrest : (runOf (· == '0') ('0' :: zeros)).2 = rest := by simp_all
        rw [← hrest]
        exact Nat.lt_succ_of_le (length_runOf_cons rfl zeros)
    | some found =>
        obtain rfl : found = (n, rest) := by simpa [hm] using h
        exact Nat.lt_succ_of_le (length_marked hm)
  next c cs _ =>
    split at h
    next hc =>
      have hrest : (runOf isDecimal (c :: cs)).2 = rest := by simp_all
      rw [← hrest]
      exact Nat.lt_succ_of_le (length_runOf_cons (isDecimal_of_le hc) cs)
    next => simp at h
  next => simp at h

theorem length_exponent {e : Int} {cs rest : List Char} (h : exponent? cs = some (e, rest)) :
    rest.length < cs.length := by
  cases cs with
  | nil => simp [exponent?] at h
  | cons c cs =>
      simp only [exponent?, Option.bind_eq_bind] at h
      split at h
      · simp at h
      · obtain ⟨found, hfound, hrest⟩ := Option.bind_eq_some_iff.1 h
        cases hrest
        have hsign := length_takeSign cs
        have hrun := length_digitRun hfound
        simp only [List.length_cons]
        omega

theorem length_fraction {cs run rest : List Char} (h : fraction? cs = some (run, rest)) :
    rest.length < cs.length := by
  unfold fraction? at h
  split at h
  · exact Nat.lt_succ_of_lt (length_digitRun h)
  · simp at h

theorem length_decimal {d : Decimal} {cs rest : List Char} (h : decimal? cs = some (d, rest)) :
    rest.length < cs.length := by
  simp only [decimal?, Option.bind_eq_bind, Option.bind_eq_some_iff] at h
  obtain ⟨⟨whole, after⟩, hwhole, h⟩ := h
  have hlength := length_digitRun hwhole
  dsimp only at h
  split at h
  next part rest hpart =>
    have hfraction := length_fraction hpart
    split at h
    next hexponent =>
      cases h
      have := length_exponent hexponent
      omega
    next =>
      cases h
      omega
  next =>
    obtain ⟨found, hfound, hrest⟩ := Option.bind_eq_some_iff.1 h
    cases hrest
    have := length_exponent hfound
    omega

theorem length_quotedRun {quote : Char} {cs run rest : List Char}
    (h : quotedRun? quote cs = some (run, rest)) : rest.length ≤ cs.length := by
  fun_induction quotedRun? quote cs generalizing run with
  | case1 => simp at h
  | case2 => simp at h
  | case3 c cs ih =>
      obtain ⟨found, hfound, hrun⟩ := Option.map_eq_some_iff.1 h
      cases hrun
      have := ih hfound
      simp only [List.length_cons]
      omega
  | case4 cs => simp_all
  | case5 c cs _ _ _ ih =>
      obtain ⟨found, hfound, hrun⟩ := Option.map_eq_some_iff.1 h
      cases hrun
      exact Nat.le_succ_of_le (ih hfound)

theorem length_string {cs run rest : List Char} (h : string? cs = some (run, rest)) :
    rest.length < cs.length := by
  unfold string? at h
  split at h
  · exact Nat.lt_succ_of_le (length_quotedRun h)
  · exact Nat.lt_succ_of_le (length_quotedRun h)
  · simp at h

theorem length_operator {symbol : String} {cs rest : List Char}
    (h : operator? cs = some (symbol, rest)) : rest.length < cs.length := by
  obtain ⟨op, hop, h⟩ := List.exists_of_findSome?_eq_some h
  obtain ⟨found, hfound, hrest⟩ := Option.map_eq_some_iff.1 h
  cases hrest
  have hpos : 0 < symbol.toList.length := by
    rw [List.length_pos_iff]
    intro hnil
    rw [String.toList_eq_nil_iff] at hnil
    exact absurd (hnil ▸ hop) (by decide)
  have hdropped := length_dropPrefix hfound
  omega

/-- Steps that go on do so with fewer than `n` characters. -/
def Step.Proceeds (n : Nat) : Step → Prop
  | done => True
  | fault f => f ≠ .tooDeep
  | next _ c => c.rest.length < n

theorem proceeds_stepRoot (opts : Options) (c : Cursor) :
    (stepRoot opts c).Proceeds c.rest.length := by
  unfold stepRoot
  split
  next => trivial
  next hne =>
    split
    next => exact List.length_pos_iff.2 hne
    next text tag hfound =>
      have hlength := length_firstTag (fun _ _ => length_tagAt) hfound
      dsimp only
      split <;> exact hlength

theorem proceeds_stepComment (opts : Options) (c : Cursor) :
    (stepComment opts c).Proceeds c.rest.length := by
  unfold stepComment
  split
  next hfound => exact length_afterComment hfound
  next => split <;> simp [Step.Proceeds]

theorem proceeds_stepRaw (opts : Options) (c : Cursor) :
    (stepRaw opts c).Proceeds c.rest.length := by
  unfold stepRaw
  split
  next hfound => exact length_firstTag (fun _ _ => length_endRawAt) hfound
  next => split <;> simp [Step.Proceeds]

theorem length_tagEnd {opts : Options} {c : Cursor} {kind : Token.Kind} {rest : List Char}
    (h : tagEnd? opts c = some (kind, rest)) : rest.length < c.rest.length := by
  unfold tagEnd? at h
  split at h
  · split at h
    · obtain ⟨found, hfound, hrest⟩ := Option.map_eq_some_iff.1 h
      cases hrest
      exact length_trimmingEnd (by simp [blockEndMark]) hfound
    · obtain ⟨found, hfound, hrest⟩ := Option.map_eq_some_iff.1 h
      cases hrest
      exact length_printEnd hfound
  · simp at h

theorem proceeds_stepOperator {c : Cursor} {symbol : String} {rest : List Char}
    (h : rest.length < c.rest.length) : (stepOperator c symbol rest).Proceeds c.rest.length := by
  unfold stepOperator
  dsimp only
  split
  · exact h
  · exact h
  · exact h
  · split
    · split
      · simp [Step.Proceeds]
      · split
        · exact h
        · simp [Step.Proceeds]
    · exact h
  · exact h

theorem proceeds_stepTag (opts : Options) (c : Cursor) :
    (stepTag opts c).Proceeds c.rest.length := by
  unfold stepTag
  split
  next => trivial
  next ch rest hrest =>
    split
    next hend => exact length_tagEnd hend
    next =>
      split
      next hblank =>
        rw [hrest]
        exact length_dropWhile_cons hblank rest
      next =>
        split
        next hdecimal =>
          split at hdecimal
          · simp at hdecimal
          · exact length_decimal hdecimal
        next =>
          split
          next hinteger => exact length_integer hinteger
          next =>
            split
            next hword =>
              dsimp only
              split
              · rw [hrest]
                exact length_dropWhile_cons hword rest
              · simp [Step.Proceeds]
            next =>
              split
              next hstring =>
                split
                · exact length_string hstring
                · simp [Step.Proceeds]
              next =>
                split
                next hop => exact proceeds_stepOperator (length_operator hop)
                next => simp [Step.Proceeds]

theorem proceeds_step (opts : Options) (c : Cursor) : (step opts c).Proceeds c.rest.length := by
  unfold step
  split
  · exact proceeds_stepRoot opts c
  · exact proceeds_stepComment opts c
  · exact proceeds_stepRaw opts c
  · exact proceeds_stepTag opts c
  · exact proceeds_stepTag opts c

theorem steps_ne_tooDeep {opts : Options} {n : Nat} {c : Cursor} {f : Located Fault}
    (h : (steps opts n c).2 = some f) : f.what ≠ .tooDeep := by
  induction n generalizing c with
  | zero => simp [steps] at h
  | succ n ih =>
      have hstep := proceeds_step opts c
      unfold steps at h
      split at h
      next => simp at h
      next fault hfault =>
        obtain rfl : ⟨fault, c.line⟩ = f := by simpa using h
        rwa [hfault] at hstep
      next => exact ih h

theorem tokens_ne_tooDeep {opts : Options} {source : String} {f : Located Fault}
    (h : (tokens opts source).2 = some f) : f.what ≠ .tooDeep :=
  steps_ne_tooDeep h

theorem steps_of_lt {opts : Options} {n n' : Nat} {c : Cursor} (hn : c.rest.length < n)
    (hn' : c.rest.length < n') : steps opts n c = steps opts n' c := by
  induction n generalizing n' c with
  | zero => omega
  | succ n ih =>
      obtain ⟨n', rfl⟩ : ∃ k, n' = k + 1 := ⟨n' - 1, by omega⟩
      have hstep := proceeds_step opts c
      unfold steps
      cases hs : step opts c with
      | done => rfl
      | fault f => rfl
      | next ts c' =>
          rw [hs] at hstep
          have hrest : steps opts n c' = steps opts n' c' := by
            simp only [Step.Proceeds] at hstep
            exact ih (by omega) (by omega)
          simp only [hrest]

theorem steps_eq_tokens {opts : Options} {source : String} {n : Nat}
    (hn : (normalize opts source).length < n) :
    steps opts n { rest := normalize opts source } = tokens opts source :=
  steps_of_lt hn (Nat.lt_succ_self _)

end Gosmith.Template
