import Gosmith.Go.Token.Lexer
import Mathlib.Data.List.Infix
import Mathlib.Data.List.TakeWhile

namespace Gosmith.Go.Piece

open Gosmith.Text

def Stops (p : Char → Bool) (cs : List Char) : Prop :=
  ∀ c ∈ cs.head?, p c = false

theorem stops_nil (p : Char → Bool) : Stops p [] := by
  simp [Stops]

theorem stops_cons {p : Char → Bool} {c : Char} {cs : List Char} :
    Stops p (c :: cs) ↔ p c = false := by
  simp [Stops]

theorem Stops.append {p : Char → Bool} {as bs : List Char} (ha : Stops p as) (hb : Stops p bs) :
    Stops p (as ++ bs) := by
  cases as with
  | nil => simpa using hb
  | cons a as => simpa [stops_cons] using ha

theorem Stops.mono {p q : Char → Bool} {cs : List Char} (h : Stops q cs)
    (hpq : ∀ c, p c = true → q c = true) : Stops p cs := by
  intro c hc
  have hq := h c hc
  by_contra hp
  simp [hpq c (by simpa using hp)] at hq

theorem takeWhile_append_stops {p : Char → Bool} {as more : List Char}
    (ha : ∀ a ∈ as, p a = true) (hm : Stops p more) : (as ++ more).takeWhile p = as := by
  rw [List.takeWhile_append_of_pos ha]
  cases more with
  | nil => simp
  | cons c cs => simp [stops_cons.1 hm]

theorem dropWhile_append_stops {p : Char → Bool} {as more : List Char}
    (ha : ∀ a ∈ as, p a = true) (hm : Stops p more) : (as ++ more).dropWhile p = more := by
  rw [List.dropWhile_append_of_pos ha]
  cases more with
  | nil => simp
  | cons c cs => simp [stops_cons.1 hm]

theorem of_mem_takeWhile {p : Char → Bool} {cs : List Char} :
    ∀ c ∈ cs.takeWhile p, p c = true :=
  fun _ h => List.mem_takeWhile_imp h

def Digits (q : Char → Bool) (ds : List Char) : Prop :=
  ∀ d ∈ ds, isDigitOr q d = true

def IsFraction (q : Char → Bool) (part : List Char) : Prop :=
  part = [] ∨ ∃ ds, part = '.' :: ds ∧ Digits q ds

def IsSign (s : List Char) : Prop :=
  s = [] ∨ s = ['+'] ∨ s = ['-']

def IsExponent (lower upper : Char) (power : List Char) : Prop :=
  power = [] ∨ ∃ mark s ds, power = mark :: (s ++ ds) ∧ (mark = lower ∨ mark = upper) ∧
    IsSign s ∧ ds ≠ [] ∧ Digits Char.isDigit ds

theorem takeDigits_digits (q : Char → Bool) (cs : List Char) : Digits q (takeDigits q cs).1 :=
  of_mem_takeWhile

theorem takeDigits_append_stops {q : Char → Bool} {ds more : List Char} (hd : Digits q ds)
    (hm : Stops (isDigitOr q) more) : takeDigits q (ds ++ more) = (ds, more) := by
  simp [takeDigits, takeWhile_append_stops hd hm, dropWhile_append_stops hd hm]

theorem fraction_isFraction (q : Char → Bool) (cs : List Char) :
    IsFraction q (fraction q cs).1 := by
  unfold fraction
  split
  · exact .inr ⟨_, rfl, takeDigits_digits q _⟩
  · exact .inl rfl

theorem fraction_of_head_ne {q : Char → Bool} {cs : List Char} (h : cs.head? ≠ some '.') :
    fraction q cs = ([], cs) := by
  unfold fraction
  split
  · simp at h
  · rfl

theorem fraction_append_stops {q : Char → Bool} {part more : List Char} (hp : IsFraction q part)
    (hm : Stops (isDigitOr q) more) (hpoint : part = [] → more.head? ≠ some '.') :
    fraction q (part ++ more) = (part, more) := by
  rcases hp with rfl | ⟨ds, rfl, hd⟩
  · exact fraction_of_head_ne (hpoint rfl)
  · simp [fraction, takeDigits_append_stops hd hm]

theorem sign_isSign (cs : List Char) : IsSign (sign cs).1 := by
  unfold sign IsSign
  split <;> simp

theorem sign_append_digits {s ds : List Char} (hs : IsSign s) (hne : ds ≠ [])
    (hd : Digits Char.isDigit ds) (more : List Char) : sign (s ++ (ds ++ more)) = (s, ds ++ more) := by
  rcases hs with rfl | rfl | rfl
  · obtain ⟨d, ds, rfl⟩ := List.exists_cons_of_ne_nil hne
    have hd0 := hd d List.mem_cons_self
    unfold sign
    split
    · rename_i heq
      simp only [List.nil_append, List.cons_append, List.cons.injEq] at heq
      simp [heq.1, isDigitOr] at hd0
    · rename_i heq
      simp only [List.nil_append, List.cons_append, List.cons.injEq] at heq
      simp [heq.1, isDigitOr] at hd0
    · simp
  · simp [sign]
  · simp [sign]

theorem exponent_isExponent (lower upper : Char) (cs : List Char) :
    IsExponent lower upper (exponent lower upper cs).1 := by
  cases cs with
  | nil => exact .inl rfl
  | cons c rest =>
      simp only [exponent]
      split
      · rename_i hmark
        split
        · exact .inl rfl
        · rename_i hne
          exact .inr ⟨c, (sign rest).1, _, rfl, hmark, sign_isSign rest, by simpa using hne,
            takeDigits_digits _ _⟩
      · exact .inl rfl

theorem exponent_of_stops {lower upper : Char} {cs : List Char}
    (h : Stops (fun c => c == lower || c == upper) cs) :
    exponent lower upper cs = ([], cs) := by
  cases cs with
  | nil => rfl
  | cons c cs =>
      have hc := stops_cons.1 h
      simp only [Bool.or_eq_false_iff, beq_eq_false_iff_ne] at hc
      simp [exponent, hc.1, hc.2]

theorem exponent_append_stops {lower upper : Char} {power more : List Char}
    (hp : IsExponent lower upper power) (hm : Stops (isDigitOr Char.isDigit) more)
    (hmark : Stops (fun c => c == lower || c == upper) more) :
    exponent lower upper (power ++ more) = (power, more) := by
  rcases hp with rfl | ⟨mark, s, ds, rfl, hmk, hs, hne, hd⟩
  · exact exponent_of_stops hmark
  · simp only [List.cons_append, List.append_assoc, exponent, if_pos hmk,
      sign_append_digits hs hne hd, takeDigits_append_stops hd hm]
    rw [if_neg (by simpa using hne)]

def scaledTail (q : Char → Bool) (lower upper : Char) (cs : List Char) : List Char × List Char :=
  let (whole, afterWhole) := takeDigits q cs
  let (part, afterPart) := fraction q afterWhole
  let (power, after) := exponent lower upper afterPart
  (whole ++ part ++ power, after)

theorem decimalTail_eq (cs : List Char) : decimalTail cs = scaledTail Char.isDigit 'e' 'E' cs := rfl

theorem hexTail_eq (cs : List Char) : hexTail cs = scaledTail isHexDigit 'p' 'P' cs := rfl

def IsScaled (q : Char → Bool) (lower upper : Char) (tail : List Char) : Prop :=
  ∃ whole part power, tail = whole ++ part ++ power ∧ Digits q whole ∧ IsFraction q part ∧
    IsExponent lower upper power

theorem scaledTail_isScaled (q : Char → Bool) (lower upper : Char) (cs : List Char) :
    IsScaled q lower upper (scaledTail q lower upper cs).1 :=
  ⟨_, _, _, rfl, takeDigits_digits _ _, fraction_isFraction _ _, exponent_isExponent _ _ _⟩

def isNumberChar (c : Char) : Bool :=
  isHexDigit c || ['_', 'x', 'X', 'o', 'O', 'p', 'P'].contains c

theorem isNumberChar_of_digit {q : Char → Bool} (hq : ∀ c, q c = true → isHexDigit c = true)
    {c : Char} (h : isDigitOr q c = true) : isNumberChar c = true := by
  simp only [isDigitOr, Bool.or_eq_true, beq_iff_eq] at h
  rcases h with h | rfl
  · simp [isNumberChar, hq c h]
  · decide

theorem isHexDigit_of_isDigit {c : Char} (h : c.isDigit = true) : isHexDigit c = true := by
  simp [isHexDigit, h]

theorem isHexDigit_of_isOctalDigit {c : Char} (h : isOctalDigit c = true) : isHexDigit c = true := by
  simp only [isOctalDigit, Bool.and_eq_true, decide_eq_true_eq] at h
  apply isHexDigit_of_isDigit
  have h7 : c ≤ '9' := Char.le_trans h.2 (show '7' ≤ '9' by decide)
  simp only [Char.isDigit, Bool.and_eq_true, decide_eq_true_eq]
  exact ⟨h.1, h7⟩

theorem isHexDigit_of_isBinaryDigit {c : Char} (h : isBinaryDigit c = true) :
    isHexDigit c = true := by
  simp only [isBinaryDigit, Bool.or_eq_true, beq_iff_eq] at h
  rcases h with rfl | rfl <;> decide

structure Scale (q : Char → Bool) (lower upper : Char) : Prop where
  digit : ∀ c, q c = true → isHexDigit c = true
  point : isDigitOr q '.' = false
  lower_stop : isDigitOr q lower = false
  upper_stop : isDigitOr q upper = false
  lower_mark : isNumberChar lower = true
  upper_mark : isNumberChar upper = true
  lower_point : lower ≠ '.'
  upper_point : upper ≠ '.'

theorem scale_decimal : Scale Char.isDigit 'e' 'E' :=
  ⟨fun _ => isHexDigit_of_isDigit, by decide, by decide, by decide, by decide, by decide, by decide,
    by decide⟩

theorem scale_hex : Scale isHexDigit 'p' 'P' :=
  ⟨fun _ h => h, by decide, by decide, by decide, by decide, by decide, by decide, by decide⟩

section Scale

variable {q : Char → Bool} {lower upper : Char}

theorem Scale.digits_stop (sc : Scale q lower upper) {more : List Char}
    (hm : Stops isNumberChar more) : Stops (isDigitOr q) more :=
  hm.mono fun _ => isNumberChar_of_digit sc.digit

theorem Scale.marks_stop (sc : Scale q lower upper) {more : List Char}
    (hm : Stops isNumberChar more) : Stops (fun c => c == lower || c == upper) more := by
  refine hm.mono fun c hc => ?_
  simp only [Bool.or_eq_true, beq_iff_eq] at hc
  rcases hc with rfl | rfl
  · exact sc.lower_mark
  · exact sc.upper_mark

theorem Scale.exponent_stop (sc : Scale q lower upper) {power : List Char}
    (hp : IsExponent lower upper power) : Stops (isDigitOr q) power := by
  rcases hp with rfl | ⟨mark, s, ds, rfl, hmark, -⟩
  · exact stops_nil _
  · rcases hmark with rfl | rfl
    · exact stops_cons.2 sc.lower_stop
    · exact stops_cons.2 sc.upper_stop

theorem Scale.exponent_head (sc : Scale q lower upper) {power : List Char}
    (hp : IsExponent lower upper power) (hne : power ≠ []) (more : List Char) :
    (power ++ more).head? ≠ some '.' := by
  rcases hp with rfl | ⟨mark, s, ds, rfl, hmark, -⟩
  · exact absurd rfl hne
  · rcases hmark with rfl | rfl
    · simpa using sc.lower_point
    · simpa using sc.upper_point

theorem Scale.fraction_stop (sc : Scale q lower upper) {part : List Char} (hp : IsFraction q part) :
    Stops (isDigitOr q) part := by
  rcases hp with rfl | ⟨ds, rfl, -⟩
  · exact stops_nil _
  · exact stops_cons.2 sc.point

theorem scaledTail_append_stops (sc : Scale q lower upper) {whole part power more : List Char}
    (hw : Digits q whole) (hf : IsFraction q part) (he : IsExponent lower upper power)
    (hm : Stops isNumberChar more) (hpoint : part = [] → power = [] → more.head? ≠ some '.') :
    scaledTail q lower upper (whole ++ part ++ power ++ more) = (whole ++ part ++ power, more) := by
  have hdigits := sc.digits_stop hm
  have hpower : Stops (isDigitOr q) (power ++ more) := (sc.exponent_stop he).append hdigits
  have hwhole : takeDigits q (whole ++ (part ++ (power ++ more))) = (whole, part ++ (power ++ more)) :=
    takeDigits_append_stops hw ((sc.fraction_stop hf).append hpower)
  have hpart : fraction q (part ++ (power ++ more)) = (part, power ++ more) := by
    refine fraction_append_stops hf hpower fun hnil => ?_
    by_cases hp : power = []
    · simpa [hp] using hpoint hnil hp
    · exact sc.exponent_head he hp more
  have hexp : exponent lower upper (power ++ more) = (power, more) :=
    exponent_append_stops he (scale_decimal.digits_stop hm) (sc.marks_stop hm)
  simp only [List.append_assoc] at *
  simp only [scaledTail, hwhole, hpart, hexp]
  simp

end Scale

inductive NumberTail : Char → List Char → Prop
  | decimal {c tail} : c.isDigit = true → IsScaled Char.isDigit 'e' 'E' tail → NumberTail c tail
  | hex {x tail} : x = 'x' ∨ x = 'X' → IsScaled isHexDigit 'p' 'P' tail → NumberTail '0' (x :: tail)
  | binary {b ds} : b = 'b' ∨ b = 'B' → ds ≠ [] → Digits isBinaryDigit ds → NumberTail '0' (b :: ds)
  | octal {o ds} : o = 'o' ∨ o = 'O' → ds ≠ [] → Digits isOctalDigit ds → NumberTail '0' (o :: ds)
  | point {d ds power} : d.isDigit = true → Digits Char.isDigit ds → IsExponent 'e' 'E' power →
      NumberTail '.' (d :: ds ++ power)

def takesPoint (text : List Char) : Bool :=
  text.all (isDigitOr Char.isDigit) ||
    match text with
    | '0' :: x :: ds => (x == 'x' || x == 'X') && ds.all (isDigitOr isHexDigit)
    | _ => false

theorem decimalTail_of_stops {cs : List Char} (h : Stops (isDigitOr Char.isDigit) cs)
    (hpoint : cs.head? ≠ some '.') (hmark : Stops (fun c => c == 'e' || c == 'E') cs) :
    decimalTail cs = ([], cs) := by
  have hnone : Digits Char.isDigit [] := by simp [Digits]
  have hwhole : takeDigits Char.isDigit cs = ([], cs) := takeDigits_append_stops hnone h
  simp [decimalTail, hwhole, fraction_of_head_ne hpoint, exponent_of_stops hmark]

theorem basedTail_tail (p : Char → Bool) {mark : Char} (cs : List Char)
    (hm : isDigitOr Char.isDigit mark = false ∧ mark ≠ '.' ∧ mark ≠ 'e' ∧ mark ≠ 'E') :
    (basedTail p mark cs).1 = [] ∨ ∃ ds, (basedTail p mark cs).1 = mark :: ds ∧ ds ≠ [] ∧ Digits p ds := by
  simp only [basedTail]
  split
  · left
    rw [decimalTail_of_stops (stops_cons.2 hm.1) (by simpa using hm.2.1)
      (stops_cons.2 (by simp [hm.2.2]))]
  · rename_i hne
    exact .inr ⟨_, rfl, by simpa using hne, takeDigits_digits _ _⟩

theorem isScaled_nil (q : Char → Bool) (lower upper : Char) : IsScaled q lower upper [] :=
  ⟨[], [], [], rfl, by simp [Digits], .inl rfl, .inl rfl⟩

theorem numberTail_tail {c : Char} (hc : c.isDigit = true) (cs : List Char) :
    NumberTail c (numberTail c cs).1 := by
  cases cs with
  | nil => exact .decimal hc (isScaled_nil _ _ _)
  | cons d rest =>
      simp only [numberTail]
      split
      · rename_i h
        rw [h.1]
        exact .hex h.2 (scaledTail_isScaled _ _ _ _)
      split
      · rename_i h
        have hmark : isDigitOr Char.isDigit d = false ∧ d ≠ '.' ∧ d ≠ 'e' ∧ d ≠ 'E' := by
          rcases h.2 with rfl | rfl <;> decide
        rcases basedTail_tail isBinaryDigit rest hmark with hnil | ⟨ds, heq, hne, hd⟩
        · rw [hnil]
          exact .decimal hc (isScaled_nil _ _ _)
        · rw [heq, h.1]
          exact .binary h.2 hne hd
      split
      · rename_i h
        have hmark : isDigitOr Char.isDigit d = false ∧ d ≠ '.' ∧ d ≠ 'e' ∧ d ≠ 'E' := by
          rcases h.2 with rfl | rfl <;> decide
        rcases basedTail_tail isOctalDigit rest hmark with hnil | ⟨ds, heq, hne, hd⟩
        · rw [hnil]
          exact .decimal hc (isScaled_nil _ _ _)
        · rw [heq, h.1]
          exact .octal h.2 hne hd
      · exact .decimal hc (scaledTail_isScaled _ _ _ _)

def isBaseMark (c : Char) : Bool :=
  ['x', 'X', 'b', 'B', 'o', 'O'].contains c

theorem isBaseMark_cases {c : Char} (h : isBaseMark c = true) :
    isNumberChar c = true ∧ isDigitOr Char.isDigit c = false ∧ c ≠ '.' ∧ c ≠ 'e' ∧ c ≠ 'E' := by
  simp only [isBaseMark, List.contains_iff_mem, List.mem_cons, List.not_mem_nil, or_false] at h
  rcases h with rfl | rfl | rfl | rfl | rfl | rfl <;> decide

theorem stops_baseMark {tail more : List Char} (h : IsScaled Char.isDigit 'e' 'E' tail)
    (hm : Stops isNumberChar more) : Stops isBaseMark (tail ++ more) := by
  obtain ⟨whole, part, power, rfl, hw, hf, he⟩ := h
  have hwhole : Stops isBaseMark whole := by
    intro c hc
    by_contra hmark
    have hdigit := hw c (List.mem_of_mem_head? hc)
    simp [(isBaseMark_cases (by simpa using hmark)).2.1] at hdigit
  have hpart : Stops isBaseMark part := by
    rcases hf with rfl | ⟨ds, rfl, -⟩
    · exact stops_nil _
    · exact stops_cons.2 (by decide)
  have hpower : Stops isBaseMark power := by
    rcases he with rfl | ⟨mark, s, ds, rfl, hmark, -⟩
    · exact stops_nil _
    · rcases hmark with rfl | rfl <;> exact stops_cons.2 (by decide)
  have hmore : Stops isBaseMark more := hm.mono fun c hc => (isBaseMark_cases hc).1
  exact ((hwhole.append hpart).append hpower).append hmore

theorem numberTail_of_stops {c : Char} {cs : List Char} (h : Stops isBaseMark cs) :
    numberTail c cs = decimalTail cs := by
  cases cs with
  | nil => rfl
  | cons d ds =>
      have hd := stops_cons.1 h
      simp only [isBaseMark, List.contains_eq_mem, List.mem_cons, List.not_mem_nil, or_false,
        decide_eq_false_iff_not, not_or] at hd
      obtain ⟨hx, hX, hb, hB, ho, hO⟩ := hd
      simp [numberTail, hx, hX, hb, hB, ho, hO]

theorem numberTail_append_decimal {c : Char} {tail more : List Char} (hc : c.isDigit = true)
    (h : IsScaled Char.isDigit 'e' 'E' tail) (hm : Stops isNumberChar more)
    (hpoint : takesPoint (c :: tail) = true → more.head? ≠ some '.') :
    numberTail c (tail ++ more) = (tail, more) := by
  rw [numberTail_of_stops (stops_baseMark h hm)]
  obtain ⟨whole, part, power, rfl, hw, hf, he⟩ := h
  refine scaledTail_append_stops scale_decimal hw hf he hm ?_
  rintro rfl rfl
  apply hpoint
  have hd : isDigitOr Char.isDigit c = true := by simp [isDigitOr, hc]
  simp only [List.append_nil, takesPoint, List.all_cons, hd, Bool.true_and, Bool.or_eq_true,
    List.all_eq_true]
  exact .inl hw

theorem numberTail_append_hex {x : Char} {tail more : List Char} (hx : x = 'x' ∨ x = 'X')
    (h : IsScaled isHexDigit 'p' 'P' tail) (hm : Stops isNumberChar more)
    (hpoint : takesPoint ('0' :: x :: tail) = true → more.head? ≠ some '.') :
    numberTail '0' (x :: tail ++ more) = (x :: tail, more) := by
  obtain ⟨whole, part, power, rfl, hw, hf, he⟩ := h
  have hscaled : hexTail (whole ++ part ++ power ++ more) = (whole ++ part ++ power, more) := by
    refine scaledTail_append_stops scale_hex hw hf he hm ?_
    rintro rfl rfl
    apply hpoint
    have hxb : (x == 'x' || x == 'X') = true := by simpa using hx
    simp only [List.append_nil, takesPoint, hxb, Bool.true_and, Bool.or_eq_true, List.all_eq_true]
    exact .inr hw
  simp only [List.cons_append, numberTail, hx, and_self, if_true, hscaled]

theorem basedTail_append_stops {p : Char → Bool} (hp : ∀ c, p c = true → isHexDigit c = true)
    {ds more : List Char} (hne : ds ≠ []) (hd : Digits p ds) (hm : Stops isNumberChar more)
    (mark : Char) : basedTail p mark (ds ++ more) = (mark :: ds, more) := by
  have htake : takeDigits p (ds ++ more) = (ds, more) :=
    takeDigits_append_stops hd (hm.mono fun _ => isNumberChar_of_digit hp)
  simp only [basedTail, htake]
  rw [if_neg (by simpa using hne)]

theorem numberTail_append_stops {c : Char} {tail more : List Char} (h : NumberTail c tail)
    (hc : c ≠ '.') (hm : Stops isNumberChar more)
    (hpoint : takesPoint (c :: tail) = true → more.head? ≠ some '.') :
    numberTail c (tail ++ more) = (tail, more) := by
  cases h with
  | decimal hd ht => exact numberTail_append_decimal hd ht hm hpoint
  | hex hx ht => exact numberTail_append_hex hx ht hm hpoint
  | binary hb hne hd =>
      rcases hb with rfl | rfl <;>
        simpa [numberTail] using basedTail_append_stops (fun _ => isHexDigit_of_isBinaryDigit) hne hd hm _
  | octal ho hne hd =>
      rcases ho with rfl | rfl <;>
        simpa [numberTail] using basedTail_append_stops (fun _ => isHexDigit_of_isOctalDigit) hne hd hm _
  | point => exact absurd rfl hc

theorem pointTail_append_stops {ds power more : List Char} (hd : Digits Char.isDigit ds)
    (he : IsExponent 'e' 'E' power) (hm : Stops isNumberChar more) :
    pointTail (ds ++ power ++ more) = (ds ++ power, more) := by
  have hdigits : takeDigits Char.isDigit (ds ++ (power ++ more)) = (ds, power ++ more) :=
    takeDigits_append_stops hd
      ((scale_decimal.exponent_stop he).append (scale_decimal.digits_stop hm))
  have hexp : exponent 'e' 'E' (power ++ more) = (power, more) :=
    exponent_append_stops he (scale_decimal.digits_stop hm) (scale_decimal.marks_stop hm)
  simp [pointTail, List.append_assoc, hdigits, hexp]

end Gosmith.Go.Piece
