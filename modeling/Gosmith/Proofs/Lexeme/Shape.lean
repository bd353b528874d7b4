import Gosmith.Proofs.Lexeme.Basic
import Gosmith.Text.Blank

namespace Gosmith.Go.Piece

open Gosmith.Text

theorem mem_of_inRanges {ranges : List (Nat × Nat)} {n : Nat} (h : inRanges ranges n = true) :
    n ∈ ranges.flatMap fun r => List.range' r.1 (r.2 + 1 - r.1) := by
  induction ranges with
  | nil => simp [inRanges] at h
  | cons r rest ih =>
      simp only [inRanges, Bool.if_false_left, Bool.and_eq_true, Bool.or_eq_true,
        decide_eq_true_eq] at h
      simp only [List.flatMap_cons, List.mem_append, List.mem_range'_1]
      rcases h.2 with hle | hrest
      · left
        simp at h
        omega
      · exact .inr (ih hrest)

theorem blank_points : ∀ n ∈ blankRanges.flatMap fun r => List.range' r.1 (r.2 + 1 - r.1),
    isWord (Char.ofNat n) = false := by
  decide +kernel

theorem isBlank_of_isWord {c : Char} (h : isWord c = true) : isBlank c = false := by
  by_contra hblank
  have hpoint := blank_points c.toNat (mem_of_inRanges (by simpa [isBlank] using hblank))
  rw [Char.ofNat_toNat, h] at hpoint
  simp at hpoint

theorem digits_not_blank {q : Char → Bool} (hq : ∀ c, q c = true → isHexDigit c = true)
    {ds : List Char} (hd : Digits q ds) : ∀ d ∈ ds, isBlank d = false :=
  fun d h => isBlank_of_isWord (isWord_of_isNumberChar (isNumberChar_of_digit hq (hd d h)))

theorem exponent_not_blank {lower upper : Char} (hlower : isBlank lower = false)
    (hupper : isBlank upper = false) {power : List Char} (h : IsExponent lower upper power) :
    ∀ d ∈ power, isBlank d = false := by
  rcases h with rfl | ⟨mark, s, ds, rfl, hmark, hs, -, hds⟩
  · simp
  · have hsign : ∀ d ∈ s, isBlank d = false := by
      rcases hs with rfl | rfl | rfl
      · simp
      · exact List.forall_mem_singleton.2 (by decide)
      · exact List.forall_mem_singleton.2 (by decide)
    intro d hd
    simp only [List.mem_cons, List.mem_append] at hd
    rcases hd with rfl | hd | hd
    · rcases hmark with rfl | rfl <;> assumption
    · exact hsign d hd
    · exact digits_not_blank (fun _ => isHexDigit_of_isDigit) hds d hd

theorem scaled_not_blank {q : Char → Bool} (hq : ∀ c, q c = true → isHexDigit c = true)
    {lower upper : Char} (hlower : isBlank lower = false) (hupper : isBlank upper = false)
    {tail : List Char} (h : IsScaled q lower upper tail) : ∀ d ∈ tail, isBlank d = false := by
  obtain ⟨whole, part, power, rfl, hw, hf, he⟩ := h
  intro d hd
  simp only [List.mem_append] at hd
  rcases hd with (hd | hd) | hd
  · exact digits_not_blank hq hw d hd
  · rcases hf with rfl | ⟨ds, rfl, hds⟩
    · simp at hd
    · rcases List.mem_cons.1 hd with rfl | hd
      · decide
      · exact digits_not_blank hq hds d hd
  · exact exponent_not_blank hlower hupper he d hd

theorem NumberTail.tail_not_blank {c : Char} {tail : List Char} (h : NumberTail c tail) :
    ∀ d ∈ tail, isBlank d = false := by
  cases h with
  | decimal hc ht =>
      exact scaled_not_blank (fun _ => isHexDigit_of_isDigit) (by decide) (by decide) ht
  | hex hx ht =>
      refine List.forall_mem_cons.2 ⟨?_, ?_⟩
      · rcases hx with rfl | rfl <;> decide
      · exact scaled_not_blank (fun _ => id) (by decide) (by decide) ht
  | binary hb _ hds =>
      refine List.forall_mem_cons.2 ⟨?_, digits_not_blank (fun _ => isHexDigit_of_isBinaryDigit) hds⟩
      rcases hb with rfl | rfl <;> decide
  | octal ho _ hds =>
      refine List.forall_mem_cons.2 ⟨?_, digits_not_blank (fun _ => isHexDigit_of_isOctalDigit) hds⟩
      rcases ho with rfl | rfl <;> decide
  | point hfirst hds he =>
      rw [List.forall_mem_append]
      refine ⟨List.forall_mem_cons.2 ⟨isBlank_of_isWord (isWord_of_isDigit hfirst), ?_⟩, ?_⟩
      · exact digits_not_blank (fun _ => isHexDigit_of_isDigit) hds
      · exact exponent_not_blank (by decide) (by decide) he

theorem NumberTail.head_not_blank {c : Char} {tail : List Char} (h : NumberTail c tail) :
    isBlank c = false := by
  rcases h.isDigit_or_point with hc | rfl
  · exact isBlank_of_isWord (isWord_of_isDigit hc)
  · decide

def Solid (cs : List Char) : Prop :=
  ∃ c, cs.getLast? = some c ∧ isBlank c = false

theorem Solid.append {bs : List Char} (h : Solid bs) (as : List Char) : Solid (as ++ bs) := by
  obtain ⟨c, hc, hblank⟩ := h
  exact ⟨c, by simp [List.getLast?_append, hc], hblank⟩

theorem Solid.trimRight {cs : List Char} (h : Solid cs) : Text.trimRight cs = cs := by
  obtain ⟨c, hc, hblank⟩ := h
  obtain ⟨init, rfl⟩ := List.getLast?_eq_some_iff.1 hc
  simp [Text.trimRight, hblank]

theorem solid_of_forall {cs : List Char} (hne : cs ≠ []) (h : ∀ c ∈ cs, isBlank c = false) :
    Solid cs :=
  ⟨cs.getLast hne, List.getLast?_eq_some_getLast hne, h _ (List.getLast_mem hne)⟩

theorem rawBody_getLast? {cs body after : List Char} (h : rawBody cs = some (body, after)) :
    body.getLast? = some backquote := by
  induction cs generalizing body with
  | nil => simp [rawBody] at h
  | cons c rest ih =>
      simp only [rawBody] at h
      split at h
      · rename_i hc
        simp only [Option.some.injEq, Prod.mk.injEq] at h
        simp [← h.1, hc]
      · simp only [Option.map_eq_some_iff, Prod.exists, Prod.mk.injEq] at h
        obtain ⟨b, a, hb, rfl, rfl⟩ := h
        simp [List.getLast?_cons, ih hb]

theorem stringBody_getLast? {cs body after : List Char} (h : stringBody cs = some (body, after)) :
    body.getLast? = some '"' := by
  fun_induction stringBody cs generalizing body after with
  | case1 => simp at h
  | case2 => simp at h
  | case3 c rest ih =>
      simp only [Option.map_eq_some_iff, Prod.exists, Prod.mk.injEq] at h
      obtain ⟨b, a, hb, rfl, rfl⟩ := h
      simp [List.getLast?_cons, ih hb]
  | case4 rest =>
      simp only [Option.some.injEq, Prod.mk.injEq] at h
      simp [← h.1]
  | case5 rest => simp at h
  | case6 c rest hlone hpair hquote hline ih =>
      simp only [Option.map_eq_some_iff, Prod.exists, Prod.mk.injEq] at h
      obtain ⟨b, a, hb, rfl, rfl⟩ := h
      simp [List.getLast?_cons, ih hb]

theorem runeBody_getLast? {cs body after : List Char} (h : runeBody cs = some (body, after)) :
    body.getLast? = some '\'' := by
  fun_induction runeBody cs generalizing body after with
  | case1 => simp at h
  | case2 => simp at h
  | case3 => simp at h
  | case4 c rest hline ih =>
      simp only [Option.map_eq_some_iff, Prod.exists, Prod.mk.injEq] at h
      obtain ⟨b, a, hb, rfl, rfl⟩ := h
      simp [List.getLast?_cons, ih hb]
  | case5 rest =>
      simp only [Option.some.injEq, Prod.mk.injEq] at h
      simp [← h.1]
  | case6 => simp at h
  | case7 c rest hlone hpair hquote hline ih =>
      simp only [Option.map_eq_some_iff, Prod.exists, Prod.mk.injEq] at h
      obtain ⟨b, a, hb, rfl, rfl⟩ := h
      simp [List.getLast?_cons, ih hb]

theorem runeRest_getLast? {cs body after : List Char} (h : runeRest cs = some (body, after)) :
    body.getLast? = some '\'' := by
  unfold runeRest at h
  split at h
  · simp at h
  · exact runeBody_getLast? h

theorem solid_of_lexeme {p : Piece} (h : Lexeme p) : Solid p.text := by
  cases h with
  | raw hb => exact ⟨backquote, by simp [List.getLast?_cons, rawBody_getLast? hb], by decide⟩
  | string hb => exact ⟨'"', by simp [List.getLast?_cons, stringBody_getLast? hb], by decide⟩
  | char hb => exact ⟨'\'', by simp [List.getLast?_cons, runeRest_getLast? hb], by decide⟩
  | number ht =>
      exact solid_of_forall (by simp) (List.forall_mem_cons.2 ⟨ht.head_not_blank, ht.tail_not_blank⟩)
  | imaginary ht => exact ⟨'i', by simp [List.getLast?_cons], by decide⟩
  | word hc hcs =>
      refine solid_of_forall (by simp) (List.forall_mem_cons.2 ⟨?_, ?_⟩)
      · exact isBlank_of_isWord (isWord_of_startsWord hc)
      · exact fun d hd => isBlank_of_isWord (hcs d hd)
  | @op o ho =>
      refine solid_of_forall (operators_ne_nil o ho) fun c hc => ?_
      simpa using operators_chars (p := fun c => !isBlank c) (by decide) ho c hc

theorem operators_no_word {o : String} (ho : o ∈ operators) : Stops isWord o.toList := by
  obtain ⟨c, cs, hocs⟩ := List.exists_cons_of_ne_nil (operators_ne_nil o ho)
  rw [hocs, stops_cons]
  simpa using operators_head (p := fun c => !isWord c) (by decide) ho hocs

theorem NumberTail.ne_operator {c : Char} {tail : List Char} (h : NumberTail c tail) {o : String}
    (ho : o ∈ operators) (more : List Char) : c :: (tail ++ more) ≠ o.toList := by
  intro heq
  rcases h.cases_head with hc | ⟨d, ds, power, rfl, rfl, hd, -⟩
  · simp [(opensOperator ho heq.symm).digit] at hc
  · have hpoint := operators_no_number o ho
    rw [← heq] at hpoint
    simp [startsPoint, hd] at hpoint

theorem Lexeme.text_ne_operator {p : Piece} (h : Lexeme p) (hk : p.kind ≠ .op) {o : String}
    (ho : o ∈ operators) : p.text ≠ o.toList := by
  intro heq
  cases h with
  | raw => exact (opensOperator ho heq.symm).raw rfl
  | string => exact (opensOperator ho heq.symm).string rfl
  | char => exact (opensOperator ho heq.symm).rune rfl
  | number ht => exact ht.ne_operator ho [] (by simpa using heq)
  | imaginary ht => exact ht.ne_operator ho ['i'] heq
  | word hc => simp [(opensOperator ho heq.symm).word] at hc
  | op => exact hk rfl

theorem Lexeme.operator_of_head {p : Piece} (h : Lexeme p) {c : Char}
    (hhead : p.text.head? = some c) (hc : c ∈ ['/', '*', ';']) :
    ∃ o ∈ operators, p = ⟨.op, o.toList⟩ := by
  have hword : isWord c = false ∧ c ≠ '.' := by
    simp only [List.mem_cons, List.not_mem_nil, or_false] at hc
    rcases hc with rfl | rfl | rfl <;> decide
  have hnumber : ∀ {d : Char} {tail : List Char}, NumberTail d tail → d ≠ c := by
    rintro d tail ht rfl
    rcases ht.isDigit_or_point with hd | hd
    · exact absurd (isWord_of_isDigit hd) (by simp [hword.1])
    · exact hword.2 hd
  cases h with
  | raw => simp [← Option.some.inj hhead] at hc
  | string => simp [← Option.some.inj hhead] at hc
  | char => simp [← Option.some.inj hhead] at hc
  | number ht => exact absurd (Option.some.inj hhead) (hnumber ht)
  | imaginary ht => exact absurd (Option.some.inj hhead) (hnumber ht)
  | word hd =>
      have hd := isWord_of_startsWord hd
      rw [Option.some.inj hhead, hword.1] at hd
      simp at hd
  | op ho => exact ⟨_, ho, rfl⟩

theorem Lexeme.stops_isBlank {p : Piece} (h : Lexeme p) (more : List Char) :
    Stops isBlank (p.text ++ more) := by
  cases h with
  | raw => exact stops_cons.2 (by decide)
  | string => exact stops_cons.2 (by decide)
  | char => exact stops_cons.2 (by decide)
  | number ht => exact stops_cons.2 ht.head_not_blank
  | imaginary ht => exact stops_cons.2 ht.head_not_blank
  | word hc => exact stops_cons.2 (isBlank_of_isWord (isWord_of_startsWord hc))
  | @op o ho =>
      obtain ⟨c, cs, hocs⟩ := List.exists_cons_of_ne_nil (operators_ne_nil o ho)
      have hc := operators_head (p := fun c => !isBlank c) (by decide) ho hocs
      simpa [hocs] using stops_cons.2 (by simpa using hc)

theorem isBlank_of_isBlankChar {c : Char} (h : isBlankChar c = true) : isBlank c = true := by
  simp only [isBlankChar, Bool.or_eq_true, beq_iff_eq] at h
  rcases h with ((rfl | rfl) | rfl) | rfl <;> decide

theorem Lexeme.stops_blank {p : Piece} (h : Lexeme p) (more : List Char) :
    Stops isBlankChar (p.text ++ more) := by
  intro c hc
  cases hblank : isBlankChar c with
  | false => rfl
  | true =>
      have hno := h.stops_isBlank more c hc
      simp [isBlank_of_isBlankChar hblank] at hno

end Gosmith.Go.Piece
