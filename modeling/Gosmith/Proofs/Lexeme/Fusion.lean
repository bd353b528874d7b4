import Gosmith.Proofs.Lexeme.Basic

namespace Gosmith.Go.Piece

open Gosmith.Text

def fuses (p : Piece) (more : List Char) : Bool :=
  match p.kind with
  | .number => takesPoint p.text && more.head? == some '.'
  | .word => more.head?.any isWord
  | .op =>
      operators.any (fun o =>
        decide (p.text.length < o.toList.length) && o.toList.isPrefixOf (p.text ++ more)) ||
      p.text == ['.'] && more.head?.any Char.isDigit
  | _ => false

structure Parted (p : Piece) (more : List Char) : Prop where
  number : p.kind = .number → Stops isWord more
  comment : p.text = ['/'] → more.head? ≠ some '/' ∧ more.head? ≠ some '*'

theorem stops_of_any {q : Char → Bool} {more : List Char} (h : more.head?.any q = false) :
    Stops q more := by
  intro c hc
  rw [Option.mem_def] at hc
  simpa [hc] using h

theorem clear_of_not_fuses {p : Piece} {more : List Char} (hp : Parted p more)
    (h : p.fuses more = false) : Clear p more := by
  obtain ⟨kind, text⟩ := p
  cases kind with
  | number =>
      refine ⟨hp.number rfl, fun htakes hhead => ?_⟩
      simp only at htakes
      simp [fuses, htakes, hhead] at h
  | word => exact stops_of_any h
  | op =>
      simp only [fuses, Bool.or_eq_false_iff, List.any_eq_false, Bool.and_eq_true,
        decide_eq_true_eq, List.isPrefixOf_iff_prefix, not_and, Bool.and_eq_false_imp,
        beq_iff_eq] at h
      refine ⟨fun o ho hpre => ?_, hp.comment, fun hdot => stops_of_any (h.2 hdot)⟩
      by_contra hlt
      exact h.1 o ho (by simpa using hlt) hpre
  | _ => trivial

theorem digits_no_point {q : Char → Bool} (hq : q '.' = false) {ds : List Char}
    (hd : Digits q ds) : '.' ∉ ds := by
  intro hmem
  have := hd '.' hmem
  simp [isDigitOr, hq] at this

theorem scaledTail_takes_point {q : Char → Bool} (hq : q '.' = false) (lower upper : Char)
    {ds : List Char} (hd : Digits q ds) (more : List Char) :
    '.' ∈ (scaledTail q lower upper (ds ++ '.' :: more)).1 := by
  have hstop : Stops (isDigitOr q) ('.' :: more) := stops_cons.2 (by simp [isDigitOr, hq])
  simp [scaledTail, takeDigits_append_stops hd hstop, fraction]

theorem numberTail_takes_point {c : Char} {tail : List Char} (h : takesPoint (c :: tail) = true)
    (more : List Char) : '.' ∉ c :: tail ∧ '.' ∈ (numberTail c (tail ++ '.' :: more)).1 := by
  simp only [takesPoint, Bool.or_eq_true, List.all_eq_true] at h
  rcases h with h | h
  · have htail : Digits Char.isDigit tail := fun d hd => h d (List.mem_cons_of_mem _ hd)
    have hstop : Stops isBaseMark (tail ++ '.' :: more) := by
      refine Stops.append ?_ (stops_cons.2 (by decide))
      intro d hd
      by_contra hmark
      have hdigit := htail d (List.mem_of_mem_head? hd)
      simp [(isBaseMark_cases (by simpa using hmark)).2.1] at hdigit
    refine ⟨digits_no_point (by decide) h, ?_⟩
    rw [numberTail_of_stops hstop, decimalTail_eq]
    exact scaledTail_takes_point (by decide) _ _ htail more
  · split at h
    · rename_i x ds heq
      simp only [List.cons.injEq] at heq
      obtain ⟨rfl, rfl⟩ := heq
      simp only [Bool.and_eq_true, Bool.or_eq_true, beq_iff_eq, List.all_eq_true] at h
      have hds : Digits isHexDigit ds := h.2
      have hx : x ≠ '.' := by
        rcases h.1 with rfl | rfl <;> decide
      refine ⟨?_, ?_⟩
      · simp [hx.symm, digits_no_point (by decide) hds]
      · simp only [List.cons_append, numberTail, h.1, and_self, if_true, hexTail_eq]
        exact List.mem_cons_of_mem _ (scaledTail_takes_point (by decide) _ _ hds more)
    · simp at h

theorem mem_imaginary {c : Char} {r : List Char × List Char} (h : c ∈ r.1) :
    c ∈ (imaginary r).1 := by
  obtain ⟨tail, more⟩ := r
  rcases imaginary_cases tail more with heq | heq
  · rwa [heq]
  · rw [heq]
    exact List.mem_append_left _ h

theorem next_of_taken_point {c : Char} {tail more : List Char} (hc : c.isDigit = true)
    (h : takesPoint (c :: tail) = true) : ∃ q after,
      next c (tail ++ '.' :: more) = .ok (q, after) ∧ q.kind = .number ∧ q.text ≠ c :: tail := by
  obtain ⟨hno, htakes⟩ := numberTail_takes_point h more
  refine ⟨_, _, next_of_isDigit hc _, rfl, fun heq => hno ?_⟩
  rw [← heq]
  exact List.mem_cons_of_mem _ (mem_imaginary htakes)

theorem next_of_longer_word {c : Char} {cs more : List Char} (hc : startsWord c = true)
    (hcs : ∀ d ∈ cs, isWord d = true) (h : more.head?.any isWord = true) : ∃ q after,
      next c (cs ++ more) = .ok (q, after) ∧ q.kind = .word ∧ q.text ≠ c :: cs := by
  refine ⟨_, _, next_of_startsWord hc _, rfl, fun heq => ?_⟩
  cases more with
  | nil => simp at h
  | cons d more =>
      simp only [List.head?_cons, Option.any_some] at h
      rw [List.takeWhile_append_of_pos hcs, List.takeWhile_cons_of_pos h] at heq
      simp at heq

theorem mem_pointTail {d : Char} (h : d.isDigit = true) (ds : List Char) :
    d ∈ (pointTail (d :: ds)).1 := by
  have hdigit : isDigitOr Char.isDigit d = true := by simp [isDigitOr, h]
  simp [pointTail, takeDigits, hdigit]

theorem next_of_point_op {o : String} {c : Char} {cs more : List Char} (ho : o ∈ operators)
    (hocs : o.toList = c :: cs) (hpoint : startsPoint (c :: (cs ++ more)) = true) : ∃ q after,
      next c (cs ++ more) = .ok (q, after) ∧ q.kind.isGap = false ∧ q.text ≠ c :: cs := by
  unfold startsPoint at hpoint
  split at hpoint
  · rename_i d ds heq
    simp only [List.cons.injEq] at heq
    obtain ⟨rfl, hrest⟩ := heq
    rw [hrest]
    refine ⟨_, _, next_of_point hpoint ds, rfl, fun hsame => ?_⟩
    have hd : d ∈ cs := by
      simp only [List.cons.injEq, true_and] at hsame
      rw [← hsame]
      exact mem_imaginary (mem_pointTail hpoint ds)
    have hmem : d ∈ o.toList := hocs ▸ List.mem_cons_of_mem _ hd
    have hdigit := operators_chars (p := fun e => !e.isDigit) (by decide) ho d hmem
    simp [hpoint] at hdigit
  · simp at hpoint

theorem next_of_longer_op {o : String} {c : Char} {cs more : List Char} (ho : o ∈ operators)
    (hocs : o.toList = c :: cs) (hp : Parted ⟨.op, c :: cs⟩ more)
    (h : fuses ⟨.op, c :: cs⟩ more = true) : ∃ q after,
      next c (cs ++ more) = .ok (q, after) ∧ q.kind.isGap = false ∧ q.text ≠ c :: cs := by
  by_cases hpoint : startsPoint (c :: (cs ++ more)) = true
  · exact next_of_point_op ho hocs hpoint
  · rw [Bool.not_eq_true] at hpoint
    simp only [fuses, Bool.or_eq_true, List.any_eq_true, Bool.and_eq_true, decide_eq_true_eq,
      List.isPrefixOf_iff_prefix, beq_iff_eq] at h
    rcases h with ⟨a, ha, hlt, hpre⟩ | ⟨hdot, hdigit⟩
    · rw [List.cons_append] at hpre
      obtain ⟨b, hb, -, hop, hge⟩ := operator?_longest ha hpre
      obtain ⟨hline, hblock⟩ := not_comment ho hocs hp.comment
      refine ⟨_, _, next_of_operator (opensOperator ho hocs) hline hblock hpoint hop, rfl, ?_⟩
      intro heq
      have hlen := congrArg List.length heq
      simp only at hlen hlt
      omega
    · simp only [List.cons.injEq] at hdot
      obtain ⟨rfl, rfl⟩ := hdot
      cases more with
      | nil => simp at hdigit
      | cons d more =>
          simp only [List.head?_cons, Option.any_some] at hdigit
          simp [startsPoint, hdigit] at hpoint

theorem next_of_fuses {p : Piece} (h : Lexeme p) {more : List Char} (hp : Parted p more)
    (hf : p.fuses more = true) : ∃ c cs q after, p.text = c :: cs ∧
      next c (cs ++ more) = .ok (q, after) ∧ q.kind.isGap = false ∧ q.text ≠ p.text := by
  have htaken : ∀ {c : Char} {tail : List Char}, (c.isDigit = true ∨ c = '.') →
      fuses ⟨.number, c :: tail⟩ more = true → ∃ c' cs q after, c :: tail = c' :: cs ∧
        next c' (cs ++ more) = .ok (q, after) ∧ q.kind.isGap = false ∧ q.text ≠ c :: tail := by
    intro c tail hc hfuse
    simp only [fuses, Bool.and_eq_true, beq_iff_eq] at hfuse
    obtain ⟨htakes, hhead⟩ := hfuse
    obtain ⟨more, rfl⟩ := List.head?_eq_some_iff.1 hhead
    have hdigit : c.isDigit = true := by
      refine hc.resolve_right ?_
      rintro rfl
      exact (numberTail_takes_point htakes []).1 List.mem_cons_self
    obtain ⟨q, after, hnext, hkind, hne⟩ := next_of_taken_point hdigit htakes
    exact ⟨c, tail, q, after, rfl, hnext, by simp [hkind, Kind.isGap], hne⟩
  cases h with
  | raw => simp [fuses] at hf
  | string => simp [fuses] at hf
  | char => simp [fuses] at hf
  | number ht => exact htaken ht.isDigit_or_point hf
  | imaginary ht => exact htaken ht.isDigit_or_point hf
  | word hc hcs =>
      obtain ⟨q, after, hnext, hkind, hne⟩ := next_of_longer_word hc hcs hf
      exact ⟨_, _, q, after, rfl, hnext, by simp [hkind, Kind.isGap], hne⟩
  | @op o ho =>
      obtain ⟨c, cs, hocs⟩ := List.exists_cons_of_ne_nil (operators_ne_nil o ho)
      simp only [hocs] at hp hf ⊢
      obtain ⟨q, after, hnext, hgap, hne⟩ := next_of_longer_op ho hocs hp hf
      exact ⟨c, cs, q, after, rfl, hnext, hgap, hne⟩

def Spaced (cs : List Char) : Prop :=
  ∀ c ∈ cs.head?, c = ' ' ∨ c = '\n'

theorem operators_no_space : ∀ o ∈ operators, ' ' ∉ o.toList ∧ '\n' ∉ o.toList := by
  decide

theorem any_append_spaced {q : Char → Bool} (hspace : q ' ' = false) (hline : q '\n' = false)
    {tail : List Char} (ht : Spaced tail) (cs : List Char) :
    (cs ++ tail).head?.any q = cs.head?.any q := by
  cases cs with
  | cons c cs => rfl
  | nil =>
      cases tail with
      | nil => rfl
      | cons c tail => rcases ht c rfl with rfl | rfl <;> simp [hspace, hline]

theorem isPrefixOf_append_spaced {o : String} (ho : o ∈ operators) {tail : List Char}
    (ht : Spaced tail) (cs : List Char) :
    o.toList.isPrefixOf (cs ++ tail) = o.toList.isPrefixOf cs := by
  rw [Bool.eq_iff_iff, List.isPrefixOf_iff_prefix, List.isPrefixOf_iff_prefix]
  refine ⟨fun h => ?_, fun h => h.trans (List.prefix_append _ _)⟩
  rcases List.prefix_or_prefix_of_prefix h (List.prefix_append cs tail) with hpre | ⟨more, hmore⟩
  · exact hpre
  · rw [← hmore, List.prefix_append_right_inj] at h
    cases more with
    | nil => simp [← hmore]
    | cons c more =>
        obtain ⟨hspace, hline⟩ := operators_no_space o ho
        have hmem : c ∈ o.toList := by simp [← hmore]
        obtain ⟨last, rfl⟩ := h
        rcases ht c rfl with rfl | rfl
        · exact absurd hmem hspace
        · exact absurd hmem hline

theorem fuses_append_spaced (p : Piece) {tail : List Char} (ht : Spaced tail) (cs : List Char) :
    p.fuses (cs ++ tail) = p.fuses cs := by
  obtain ⟨kind, text⟩ := p
  cases kind with
  | number =>
      have hpoint (more : List Char) :
          (more.head? == some '.') = more.head?.any fun c => c == '.' := by
        cases more <;> rfl
      simp only [fuses, hpoint]
      rw [any_append_spaced (by decide) (by decide) ht]
  | word => exact any_append_spaced (by decide) (by decide) ht cs
  | op =>
      have hlonger : ∀ o ∈ operators,
          o.toList.isPrefixOf (text ++ (cs ++ tail)) = o.toList.isPrefixOf (text ++ cs) := by
        intro o ho
        rw [← List.append_assoc, isPrefixOf_append_spaced ho ht]
      simp only [fuses]
      rw [any_append_spaced (by decide) (by decide) ht]
      congr 1
      rw [Bool.eq_iff_iff, List.any_eq_true, List.any_eq_true]
      exact exists_congr fun o => and_congr_right fun ho => by rw [hlonger o ho]
  | _ => rfl

theorem parted_spaced (p : Piece) {more : List Char} (h : Spaced more) : Parted p more := by
  refine ⟨fun _ c hc => ?_, fun _ => ⟨fun hhead => ?_, fun hhead => ?_⟩⟩
  · rcases h c hc with rfl | rfl <;> decide
  · simpa using h _ hhead
  · simpa using h _ hhead

theorem fuses_nil (p : Piece) : p.fuses [] = false := by
  obtain ⟨kind, text⟩ := p
  cases kind with
  | number => simp [fuses]
  | op =>
      have hshort : ∀ o ∈ operators, text.length < o.toList.length → ¬ o.toList <+: text :=
        fun o _ hlt hpre => absurd hpre.length_le (by omega)
      simpa [fuses] using hshort
  | _ => rfl

theorem clear_spaced (p : Piece) {more : List Char} (h : Spaced more) : Clear p more := by
  refine clear_of_not_fuses (parted_spaced p h) ?_
  have hnil := fuses_append_spaced p h []
  rw [List.nil_append] at hnil
  rw [hnil, fuses_nil]

end Gosmith.Go.Piece
