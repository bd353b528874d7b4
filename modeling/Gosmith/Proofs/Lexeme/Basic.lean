import Gosmith.Proofs.Lexeme.Number

namespace Gosmith.Go.Piece

open Gosmith.Text

theorem toNat_of_isAlphanum {c : Char} (h : c.isAlphanum = true) : c.toNat < 0x80 := by
  unfold Char.isAlphanum Char.isAlpha Char.isUpper Char.isLower Char.isDigit at h
  simp only [Bool.or_eq_true, Bool.and_eq_true, decide_eq_true_eq, ge_iff_le,
    UInt32.le_iff_toNat_le, Char.reduceVal, UInt32.reduceToNat] at h
  simp only [Char.toNat]
  omega

theorem isWord_of_isAlphanum {c : Char} (h : c.isAlphanum = true) : isWord c = true := by
  simp [isWord, toNat_of_isAlphanum h, h]

theorem isAlphanum_of_isHexDigit {c : Char} (h : isHexDigit c = true) : c.isAlphanum = true := by
  unfold isHexDigit at h
  unfold Char.isAlphanum Char.isAlpha Char.isUpper Char.isLower Char.isDigit at *
  simp only [Bool.or_eq_true, Bool.and_eq_true, decide_eq_true_eq, ge_iff_le, Char.le_def,
    UInt32.le_iff_toNat_le, Char.reduceVal, UInt32.reduceToNat] at h ⊢
  omega

theorem isWord_of_isNumberChar {c : Char} (h : isNumberChar c = true) : isWord c = true := by
  simp only [isNumberChar, Bool.or_eq_true, List.contains_iff_mem] at h
  rcases h with h | h
  · exact isWord_of_isAlphanum (isAlphanum_of_isHexDigit h)
  · simp only [List.mem_cons, List.not_mem_nil, or_false] at h
    rcases h with rfl | rfl | rfl | rfl | rfl | rfl | rfl <;> decide

theorem isAlphanum_of_isDigit {c : Char} (h : c.isDigit = true) : c.isAlphanum = true := by
  simp [Char.isAlphanum, h]

theorem isWord_of_isDigit {c : Char} (h : c.isDigit = true) : isWord c = true :=
  isWord_of_isAlphanum (isAlphanum_of_isDigit h)

theorem isDecimal_of_isDigit {c : Char} (h : c.isDigit = true) : isDecimal c = true := by
  simp [isDecimal, toNat_of_isAlphanum (isAlphanum_of_isDigit h), h]

theorem not_isDigit_of_startsWord {c : Char} (h : startsWord c = true) : c.isDigit = false := by
  by_contra hd
  simp [startsWord, isDecimal_of_isDigit (by simpa using hd)] at h

structure InWord (c : Char) : Prop where
  blank : isBlankChar c = false
  newline : c ≠ '\n'
  slash : c ≠ '/'
  raw : c ≠ backquote
  string : c ≠ '"'
  rune : c ≠ '\''
  point : c ≠ '.'

theorem inWord {c : Char} (h : isWord c = true) : InWord c := by
  have hne : ∀ d, isWord d = false → c ≠ d := by
    rintro d hd rfl
    simp [hd] at h
  refine ⟨?_, hne _ (by decide), hne _ (by decide), hne _ (by decide), hne _ (by decide),
    hne _ (by decide), hne _ (by decide)⟩
  simp only [isBlankChar, Bool.or_eq_false_iff, beq_eq_false_iff_ne]
  exact ⟨⟨⟨hne _ (by decide), hne _ (by decide)⟩, hne _ (by decide)⟩, hne _ (by decide)⟩

theorem rawBody_append_of {cs body after : List Char} (h : rawBody cs = some (body, after))
    (more : List Char) : rawBody (body ++ more) = some (body, more) := by
  induction cs generalizing body with
  | nil => simp [rawBody] at h
  | cons c rest ih =>
      simp only [rawBody] at h
      split at h
      · rename_i hc
        simp only [Option.some.injEq, Prod.mk.injEq] at h
        simp [← h.1, rawBody, hc]
      · rename_i hc
        simp only [Option.map_eq_some_iff, Prod.exists, Prod.mk.injEq] at h
        obtain ⟨b, a, hb, rfl, rfl⟩ := h
        simp [rawBody, hc, ih hb]

theorem stringBody_append_of {cs body after : List Char} (h : stringBody cs = some (body, after))
    (more : List Char) : stringBody (body ++ more) = some (body, more) := by
  fun_induction stringBody cs generalizing body after with
  | case1 => simp at h
  | case2 => simp at h
  | case3 c rest ih =>
      simp only [Option.map_eq_some_iff, Prod.exists, Prod.mk.injEq] at h
      obtain ⟨b, a, hb, rfl, rfl⟩ := h
      simp [stringBody, ih hb]
  | case4 rest =>
      simp only [Option.some.injEq, Prod.mk.injEq] at h
      simp [← h.1, stringBody]
  | case5 rest => simp at h
  | case6 c rest hlone hpair hquote hline ih =>
      simp only [Option.map_eq_some_iff, Prod.exists, Prod.mk.injEq] at h
      obtain ⟨b, a, hb, rfl, rfl⟩ := h
      have hslash : c ≠ '\\' := by
        rintro rfl
        cases rest with
        | nil => exact hlone rfl rfl
        | cons d ds => exact hpair d ds rfl rfl
      rw [List.cons_append, stringBody]
      · simp [hquote, hline, ih hb]
      · simp [hslash]
      · simp [hslash]

theorem runeBody_append_of {cs body after : List Char} (h : runeBody cs = some (body, after))
    (more : List Char) : runeBody (body ++ more) = some (body, more) := by
  fun_induction runeBody cs generalizing body after with
  | case1 => simp at h
  | case2 => simp at h
  | case3 => simp at h
  | case4 c rest hline ih =>
      simp only [Option.map_eq_some_iff, Prod.exists, Prod.mk.injEq] at h
      obtain ⟨b, a, hb, rfl, rfl⟩ := h
      simp [runeBody, hline, ih hb]
  | case5 rest =>
      simp only [Option.some.injEq, Prod.mk.injEq] at h
      simp [← h.1, runeBody]
  | case6 => simp at h
  | case7 c rest hlone hpair hquote hline ih =>
      simp only [Option.map_eq_some_iff, Prod.exists, Prod.mk.injEq] at h
      obtain ⟨b, a, hb, rfl, rfl⟩ := h
      have hslash : c ≠ '\\' := by
        rintro rfl
        cases rest with
        | nil => exact hlone rfl rfl
        | cons d ds => exact hpair d ds rfl rfl
      rw [List.cons_append, runeBody]
      · simp [hquote, hline, ih hb]
      · simp [hslash]
      · simp [hslash]

theorem runeRest_append_of {cs body after : List Char} (h : runeRest cs = some (body, after))
    (more : List Char) : runeRest (body ++ more) = some (body, more) := by
  have hbody : runeBody cs = some (body, after) ∧ cs.head? ≠ some '\'' := by
    unfold runeRest at h
    split at h
    · simp at h
    · rename_i hne
      refine ⟨h, fun hhead => ?_⟩
      obtain ⟨ds, rfl⟩ := List.head?_eq_some_iff.1 hhead
      exact hne ds rfl
  have happ := runeBody_append_of hbody.1 more
  have hcs := runeBody_append hbody.1
  have hne : body ≠ [] := by
    rintro rfl
    simpa [runeBody] using runeBody_append_of hbody.1 []
  obtain ⟨d, ds, rfl⟩ := List.exists_cons_of_ne_nil hne
  have hd : d ≠ '\'' := by
    rintro rfl
    simp [← hcs] at hbody
  unfold runeRest
  split
  · rename_i heq
    simp only [List.cons_append, List.cons.injEq] at heq
    exact absurd heq.1 hd
  · exact happ

theorem operators_sorted :
    operators.Pairwise fun a b => b.toList.length ≤ a.toList.length := by
  decide

theorem operator?_longest {o : String} {cs : List Char} (ho : o ∈ operators)
    (hpre : o.toList <+: cs) : ∃ a ∈ operators, a.toList <+: cs ∧
      operator? cs = some (a.toList, cs.drop a.toList.length) ∧
      o.toList.length ≤ a.toList.length := by
  have hfound : (operators.find? fun a => a.toList.isPrefixOf cs).isSome := by
    rw [List.find?_isSome]
    exact ⟨o, ho, by simpa using hpre⟩
  obtain ⟨a, ha⟩ := Option.isSome_iff_exists.1 hfound
  obtain ⟨hap, before, behind, hsplit, hbefore⟩ := List.find?_eq_some_iff_append.1 ha
  refine ⟨a, by simp [hsplit], by simpa using hap, by simp [operator?, ha], ?_⟩
  have hsorted := operators_sorted
  rw [hsplit, List.mem_append, List.mem_cons] at ho
  rw [hsplit] at hsorted
  rcases ho with ho | rfl | ho
  · have hnot := hbefore o ho
    simp [List.isPrefixOf_iff_prefix.2 hpre] at hnot
  · exact le_rfl
  · exact (List.pairwise_cons.1 (List.pairwise_append.1 hsorted).2.1).1 o ho

theorem operator?_of_longest {o : String} {cs : List Char} (ho : o ∈ operators)
    (hpre : o.toList <+: cs)
    (hmax : ∀ a ∈ operators, a.toList <+: cs → a.toList.length ≤ o.toList.length) :
    operator? cs = some (o.toList, cs.drop o.toList.length) := by
  obtain ⟨a, ha, hapre, hop, hge⟩ := operator?_longest ho hpre
  have hle := hmax a ha hapre
  have heq : a.toList = o.toList :=
    (List.prefix_of_prefix_length_le hapre hpre hle).eq_of_length (le_antisymm hle hge)
  rw [hop, heq]

structure OpensOperator (c : Char) : Prop where
  blank : isBlankChar c = false
  newline : c ≠ '\n'
  raw : c ≠ backquote
  string : c ≠ '"'
  rune : c ≠ '\''
  digit : c.isDigit = false
  word : startsWord c = false

theorem operators_head {p : Char → Bool} (hall : ∀ o ∈ operators, o.toList.head?.all p = true)
    {o : String} {c : Char} {cs : List Char} (ho : o ∈ operators) (h : o.toList = c :: cs) :
    p c = true := by
  simpa [h] using hall o ho

theorem operators_chars {p : Char → Bool} (hall : ∀ o ∈ operators, o.toList.all p = true)
    {o : String} (ho : o ∈ operators) : ∀ c ∈ o.toList, p c = true :=
  List.all_eq_true.1 (hall o ho)

theorem opensOperator {o : String} {c : Char} {cs : List Char} (ho : o ∈ operators)
    (h : o.toList = c :: cs) : OpensOperator c where
  blank := by simpa using operators_head (p := fun c => !isBlankChar c) (by decide) ho h
  newline := by simpa using operators_head (p := fun c => c != '\n') (by decide) ho h
  raw := by simpa using operators_head (p := fun c => c != backquote) (by decide) ho h
  string := by simpa using operators_head (p := fun c => c != '"') (by decide) ho h
  rune := by simpa using operators_head (p := fun c => c != '\'') (by decide) ho h
  digit := by simpa using operators_head (p := fun c => !c.isDigit) (by decide) ho h
  word := by simpa using operators_head (p := fun c => !startsWord c) (by decide) ho h

theorem operators_no_comment : ∀ o ∈ operators, ¬ ['/', '/'] <+: o.toList ∧ ¬ ['/', '*'] <+: o.toList := by
  decide

theorem operators_no_number : ∀ o ∈ operators, startsPoint o.toList = false := by
  decide

inductive Lexeme : Piece → Prop
  | raw {body} : rawBody body = some (body, []) → Lexeme ⟨.rawString, backquote :: body⟩
  | string {body} : stringBody body = some (body, []) → Lexeme ⟨.string, '"' :: body⟩
  | char {body} : runeRest body = some (body, []) → Lexeme ⟨.char, '\'' :: body⟩
  | number {c tail} : NumberTail c tail → Lexeme ⟨.number, c :: tail⟩
  | imaginary {c tail} : NumberTail c tail → Lexeme ⟨.number, c :: (tail ++ ['i'])⟩
  | word {c cs} : startsWord c = true → (∀ d ∈ cs, isWord d = true) → Lexeme ⟨.word, c :: cs⟩
  | op {o : String} : o ∈ operators → Lexeme ⟨.op, o.toList⟩

theorem Lexeme.isGap {p : Piece} (h : Lexeme p) : p.kind.isGap = false := by
  cases h <;> rfl

def Clear (p : Piece) (more : List Char) : Prop :=
  match p.kind with
  | .number => Stops isWord more ∧ (takesPoint p.text = true → more.head? ≠ some '.')
  | .word => Stops isWord more
  | .op =>
      (∀ o ∈ operators, o.toList <+: p.text ++ more → o.toList.length ≤ p.text.length) ∧
        (p.text = ['/'] → more.head? ≠ some '/' ∧ more.head? ≠ some '*') ∧
        (p.text = ['.'] → Stops Char.isDigit more)
  | _ => True

theorem next_of_isDigit {c : Char} (h : c.isDigit = true) (rest : List Char) :
    next c rest = .ok (⟨.number, c :: (imaginary (numberTail c rest)).1⟩,
      (imaginary (numberTail c rest)).2) := by
  have hw := inWord (isWord_of_isDigit h)
  simp [next, hw.blank, hw.newline, hw.slash, hw.raw, hw.string, hw.rune, h]

theorem isWord_of_startsWord {c : Char} (h : startsWord c = true) : isWord c = true := by
  simp only [startsWord, Bool.and_eq_true] at h
  exact h.1

theorem next_of_startsWord {c : Char} (h : startsWord c = true) (rest : List Char) :
    next c rest = .ok (⟨.word, c :: rest.takeWhile isWord⟩, rest.dropWhile isWord) := by
  have hw := inWord (isWord_of_startsWord h)
  have hpoint : startsPoint (c :: rest) = false := by
    unfold startsPoint
    split
    · rename_i heq
      simp only [List.cons.injEq] at heq
      exact absurd heq.1 hw.point
    · rfl
  simp [next, hw.blank, hw.newline, hw.slash, hw.raw, hw.string, hw.rune, hpoint,
    not_isDigit_of_startsWord h, h]

theorem next_of_point {d : Char} (h : d.isDigit = true) (rest : List Char) :
    next '.' (d :: rest) = .ok (⟨.number, '.' :: (imaginary (pointTail (d :: rest))).1⟩,
      (imaginary (pointTail (d :: rest))).2) := by
  have hpoint : startsPoint ('.' :: d :: rest) = true := by simp [startsPoint, h]
  simp [next, isBlankChar, hpoint]

theorem next_of_operator {c : Char} {rest o after : List Char} (hc : OpensOperator c)
    (hline : ¬ (c = '/' ∧ rest.head? = some '/')) (hblock : ¬ (c = '/' ∧ rest.head? = some '*'))
    (hpoint : startsPoint (c :: rest) = false) (ho : operator? (c :: rest) = some (o, after)) :
    next c rest = .ok (⟨.op, o⟩, after) := by
  simp only [next, hc.blank, hc.newline, hc.raw, hc.string, hc.rune, hc.digit, hc.word, hline,
    hblock, hpoint, ho, if_false, Bool.false_eq_true]

theorem imaginary_of_stops {tail more : List Char} (h : more.head? ≠ some 'i') :
    imaginary (tail, more) = (tail, more) := by
  unfold imaginary
  split
  · rename_i heq
    simp only [Prod.mk.injEq] at heq
    simp [heq.2] at h
  · rename_i heq
    simpa using heq.symm

theorem stops_isNumberChar {more : List Char} (h : Stops isWord more) : Stops isNumberChar more :=
  h.mono fun _ => isWord_of_isNumberChar

theorem head_ne_of_stops {more : List Char} {c : Char} (h : Stops isWord more)
    (hc : isWord c = true) : more.head? ≠ some c := by
  intro hhead
  simp [h c hhead] at hc

theorem NumberTail.cases_head {c : Char} {tail : List Char} (h : NumberTail c tail) :
    c.isDigit = true ∨ ∃ d ds power, c = '.' ∧ tail = d :: ds ++ power ∧ d.isDigit = true ∧
      Digits Char.isDigit ds ∧ IsExponent 'e' 'E' power := by
  cases h with
  | decimal hc _ => exact .inl hc
  | hex _ _ => exact .inl (by decide)
  | binary _ _ _ => exact .inl (by decide)
  | octal _ _ _ => exact .inl (by decide)
  | point hd hds he => exact .inr ⟨_, _, _, rfl, rfl, hd, hds, he⟩

theorem NumberTail.isDigit_or_point {c : Char} {tail : List Char} (h : NumberTail c tail) :
    c.isDigit = true ∨ c = '.' := by
  rcases h.cases_head with hc | ⟨d, ds, power, hc, -⟩
  · exact .inl hc
  · exact .inr hc

theorem next_of_numberTail {c : Char} {tail more : List Char} (h : NumberTail c tail)
    (hm : Stops isNumberChar more) (hpoint : takesPoint (c :: tail) = true → more.head? ≠ some '.') :
    next c (tail ++ more) = .ok (⟨.number, c :: (imaginary (tail, more)).1⟩,
      (imaginary (tail, more)).2) := by
  rcases h.cases_head with hc | ⟨d, ds, power, rfl, rfl, hd, hds, he⟩
  · have hne : c ≠ '.' := by
      rintro rfl
      simp at hc
    rw [next_of_isDigit hc, numberTail_append_stops h hne hm hpoint]
  · have hdds : Digits Char.isDigit (d :: ds) := by
      intro x hx
      rcases List.mem_cons.1 hx with rfl | hx
      · simp [isDigitOr, hd]
      · exact hds x hx
    have htail : pointTail (d :: ds ++ power ++ more) = (d :: ds ++ power, more) :=
      pointTail_append_stops hdds he hm
    simp only [List.cons_append] at htail ⊢
    rw [next_of_point hd, htail]

theorem next_of_word {c : Char} {cs more : List Char} (hc : startsWord c = true)
    (hcs : ∀ d ∈ cs, isWord d = true) (hm : Stops isWord more) :
    next c (cs ++ more) = .ok (⟨.word, c :: cs⟩, more) := by
  rw [next_of_startsWord hc, takeWhile_append_stops hcs hm, dropWhile_append_stops hcs hm]

theorem not_comment {o : String} {c : Char} {cs more : List Char} (ho : o ∈ operators)
    (hocs : o.toList = c :: cs)
    (hslash : c :: cs = ['/'] → more.head? ≠ some '/' ∧ more.head? ≠ some '*') :
    ¬ (c = '/' ∧ (cs ++ more).head? = some '/') ∧ ¬ (c = '/' ∧ (cs ++ more).head? = some '*') := by
  have hcomment (d : Char) (hd : ¬ ['/', d] <+: o.toList)
      (hm : c :: cs = ['/'] → more.head? ≠ some d) :
      ¬ (c = '/' ∧ (cs ++ more).head? = some d) := by
    rintro ⟨rfl, hhead⟩
    cases cs with
    | nil => exact hm rfl (by simpa using hhead)
    | cons e es =>
        simp only [List.cons_append, List.head?_cons, Option.some.injEq] at hhead
        exact hd ⟨es, by simp [hocs, hhead]⟩
  exact ⟨hcomment '/' (operators_no_comment o ho).1 fun h => (hslash h).1,
    hcomment '*' (operators_no_comment o ho).2 fun h => (hslash h).2⟩

theorem next_of_op {o : String} {c : Char} {cs more : List Char} (ho : o ∈ operators)
    (hocs : o.toList = c :: cs) (hclear : Clear ⟨.op, c :: cs⟩ more) :
    next c (cs ++ more) = .ok (⟨.op, c :: cs⟩, more) := by
  obtain ⟨hmax, hslash, hdot⟩ := hclear
  have hpoint : startsPoint (c :: (cs ++ more)) = false := by
    have hno := operators_no_number o ho
    rw [hocs] at hno
    cases cs with
    | cons e es =>
        unfold startsPoint at hno ⊢
        split at hno
        · simp_all
        · split
          · simp_all
          · rfl
    | nil =>
        unfold startsPoint
        split
        · rename_i d ds heq
          simp only [List.nil_append, List.cons.injEq] at heq
          rw [heq.1] at hdot
          have hstop := hdot rfl
          rw [heq.2] at hstop
          exact stops_cons.1 hstop
        · rfl
  have hop : operator? (c :: (cs ++ more)) = some (c :: cs, more) := by
    have hpre : o.toList <+: c :: (cs ++ more) := ⟨more, by simp [hocs]⟩
    have hlongest := operator?_of_longest ho hpre (by simpa [hocs] using hmax)
    simpa [hocs] using hlongest
  obtain ⟨hline, hblock⟩ := not_comment ho hocs hslash
  exact next_of_operator (opensOperator ho hocs) hline hblock hpoint hop

theorem next_of_lexeme {p : Piece} (h : Lexeme p) {more : List Char} (hclear : Clear p more) :
    ∃ c cs, p.text = c :: cs ∧ next c (cs ++ more) = .ok (p, more) := by
  cases h with
  | raw hb =>
      refine ⟨_, _, rfl, ?_⟩
      simp [next, isBlankChar, quotedPiece, rawBody_append_of hb]
  | string hb =>
      refine ⟨_, _, rfl, ?_⟩
      simp [next, isBlankChar, quotedPiece, stringBody_append_of hb]
  | char hb =>
      refine ⟨_, _, rfl, ?_⟩
      simp [next, isBlankChar, quotedPiece, runeRest_append_of hb]
  | number ht =>
      refine ⟨_, _, rfl, ?_⟩
      rw [next_of_numberTail ht (stops_isNumberChar hclear.1) hclear.2,
        imaginary_of_stops (head_ne_of_stops hclear.1 (by decide))]
  | @imaginary c tail ht =>
      refine ⟨_, _, rfl, ?_⟩
      have hmark : Stops isNumberChar ('i' :: more) := stops_cons.2 (by decide)
      simpa [imaginary] using next_of_numberTail ht hmark (by simp)
  | word hc hcs => exact ⟨_, _, rfl, next_of_word hc hcs hclear⟩
  | @op o ho =>
      obtain ⟨c, cs, hocs⟩ := List.exists_cons_of_ne_nil (operators_ne_nil o ho)
      simp only [hocs] at hclear ⊢
      exact ⟨c, cs, rfl, next_of_op ho hocs hclear⟩

theorem imaginary_cases (tail more : List Char) :
    (imaginary (tail, more)).1 = tail ∨ (imaginary (tail, more)).1 = tail ++ ['i'] := by
  unfold imaginary
  split
  · rename_i heq
    simp only [Prod.mk.injEq] at heq
    simp [heq.1]
  · rename_i heq
    simp only [Prod.mk.injEq] at heq
    simp [heq.1]

theorem lexeme_of_numberTail {c : Char} {tail : List Char} (h : NumberTail c tail)
    (more : List Char) : Lexeme ⟨.number, c :: (imaginary (tail, more)).1⟩ := by
  rcases imaginary_cases tail more with heq | heq
  · rw [heq]
    exact .number h
  · rw [heq]
    exact .imaginary h

theorem pointTail_tail {d : Char} (hd : d.isDigit = true) (cs : List Char) :
    NumberTail '.' (pointTail (d :: cs)).1 := by
  have hdigit : isDigitOr Char.isDigit d = true := by simp [isDigitOr, hd]
  have htake : takeDigits Char.isDigit (d :: cs) =
      (d :: (takeDigits Char.isDigit cs).1, (takeDigits Char.isDigit cs).2) := by
    simp [takeDigits, hdigit]
  simp only [pointTail, htake]
  exact .point hd (takeDigits_digits _ _) (exponent_isExponent _ _ _)

theorem lexeme_of_next {c : Char} {rest : List Char} {p : Piece} {after : List Char}
    (h : next c rest = .ok (p, after)) (hgap : p.kind.isGap = false) : Lexeme p := by
  cases cut_of_next h with
  | blank => simp [Kind.isGap] at hgap
  | newline => simp [Kind.isGap] at hgap
  | lineComment => simp [Kind.isGap] at hgap
  | blockComment => simp [Kind.isGap] at hgap
  | raw hc hbody =>
      rw [hc]
      exact .raw (by simpa using rawBody_append_of hbody [])
  | string hc hbody =>
      rw [hc]
      exact .string (by simpa using stringBody_append_of hbody [])
  | char hc hbody =>
      rw [hc]
      exact .char (by simpa using runeRest_append_of hbody [])
  | number hc => exact lexeme_of_numberTail (numberTail_tail hc rest) _
  | point hc =>
      unfold startsPoint at hc
      split at hc
      · rename_i d ds heq
        simp only [List.cons.injEq] at heq
        rw [heq.1, heq.2]
        exact lexeme_of_numberTail (pointTail_tail hc ds) _
      · simp at hc
  | word hc => exact .word hc of_mem_takeWhile
  | op ho =>
      simp only [operator?, Option.map_eq_some_iff, Prod.mk.injEq] at ho
      obtain ⟨a, ha, rfl, -⟩ := ho
      exact .op (List.mem_of_find?_eq_some ha)

theorem split_cons {c : Char} {rest after : List Char} {p : Piece}
    (h : next c rest = .ok (p, after)) :
    split (c :: rest) = (p :: (split after).1, (split after).2) := by
  rw [split]
  split
  · rename_i heq
    simp [h] at heq
  · rename_i heq
    simp only [h, Except.ok.injEq, Prod.mk.injEq] at heq
    rw [heq.1, heq.2]

theorem split_lexeme {p : Piece} (h : Lexeme p) {more : List Char} (hclear : Clear p more) :
    split (p.text ++ more) = (p :: (split more).1, (split more).2) := by
  obtain ⟨c, cs, htext, hnext⟩ := next_of_lexeme h hclear
  rw [htext, List.cons_append, split_cons hnext]

theorem lexeme_of_mem_split : ∀ {cs : List Char} {p : Piece}, p ∈ (split cs).1 →
    p.kind.isGap = false → Lexeme p := by
  intro cs
  fun_induction split cs with
  | case1 => simp
  | case2 c rest fault h => simp
  | case3 c rest p after h ih =>
      intro q hq hgap
      rcases List.mem_cons.1 hq with rfl | hq
      · exact lexeme_of_next h hgap
      · exact ih hq hgap

end Gosmith.Go.Piece
