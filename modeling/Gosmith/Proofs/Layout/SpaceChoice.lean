import Gosmith.Proofs.Layout.Boundaries

namespace Gosmith.Go.Layout

open Gosmith.Text (braceOpen braceClose)

structure Similar (t u : Token) : Prop where
  key : u.key = t.key
  lines : min u.newlinesBefore 2 = min t.newlinesBefore 2

instance (t u : Token) : Decidable (Similar t u) :=
  decidable_of_iff (u.key = t.key ∧ min u.newlinesBefore 2 = min t.newlinesBefore 2)
    ⟨fun h => ⟨h.1, h.2⟩, fun h => ⟨h.key, h.lines⟩⟩

def isAmbiguous (prev : Option Token) (t : Token) : Bool :=
  ambiguousOps.contains t.text || ["...", "[", braceOpen].contains t.text ||
    prev.any fun p =>
      ambiguousOps.contains p.text || p.text == "]" || t.text == "(" && p.text == ")"

def settling : List String := [",", ";", ":", "(", "[", ".", "...", braceOpen]

/-- Operators that are always unary, on one line with an operand before them. -/
def isLoose (prev : Option Token) (t : Token) : Bool :=
  t.kind == .op && unaryOps.contains t.text && t.newlinesBefore == 0 &&
    prev.any fun p => p.endsOperand && !settling.contains p.text

def AgreeOn (place : Option Token → Token → Bool) : Option Token → List Token → List Token → Prop
  | prev, t :: ts, u :: us =>
      (place prev t = true → u.spaceBefore = t.spaceBefore) ∧ AgreeOn place (some t) ts us
  | _, _, _ => True

instance decidableAgreeOn (place : Option Token → Token → Bool) :
    (prev : Option Token) → (ts us : List Token) → Decidable (AgreeOn place prev ts us)
  | _, [], _ => .isTrue trivial
  | _, _ :: _, [] => .isTrue trivial
  | _, t :: ts, _ :: us =>
      have := decidableAgreeOn place (some t) ts us
      inferInstanceAs (Decidable (_ ∧ _))

variable {t v : Token} {ts us : List Token}

theorem Similar.text (h : Similar t v) : v.text = t.text :=
  congrArg Prod.snd h.key

theorem Similar.kind (h : Similar t v) : v.kind = t.kind :=
  congrArg Prod.fst h.key

theorem Similar.pos_iff (h : Similar t v) : 0 < v.newlinesBefore ↔ 0 < t.newlinesBefore := by
  have := h.lines
  omega

theorem Similar.blank_iff (h : Similar t v) : 1 < v.newlinesBefore ↔ 1 < t.newlinesBefore := by
  have := h.lines
  omega

theorem isDropped_of_similar (ht : Similar t v) (h : List.Forall₂ Similar ts us) :
    isDropped v us.head? = isDropped t ts.head? := by
  have hauto : v.isAuto = t.isAuto := by rw [Token.isAuto, Token.isAuto, ht.kind, ht.text]
  cases h with
  | nil => simp only [isDropped, List.head?_nil, ht.kind, hauto]
  | cons hu _ => simp only [isDropped, List.head?_cons, ht.kind, hauto, hu.pos_iff, hu.text]

theorem similar_dropSemicolons (h : List.Forall₂ Similar ts us) :
    List.Forall₂ Similar (dropSemicolons ts) (dropSemicolons us) := by
  induction h with
  | nil => exact .nil
  | @cons t v ts us ht h ih =>
      cases hd : isDropped t ts.head? with
      | true =>
          rwa [dropSemicolons_of_isDropped hd,
            dropSemicolons_of_isDropped ((isDropped_of_similar ht h).trans hd)]
      | false =>
          rw [dropSemicolons_of_kept hd,
            dropSemicolons_of_kept ((isDropped_of_similar ht h).trans hd)]
          exact .cons ht ih

theorem closesOnLine_of_similar (h : List.Forall₂ Similar ts us) (depth : Nat) :
    closesOnLine depth us = closesOnLine depth ts := by
  induction h generalizing depth with
  | nil => rfl
  | cons ht _ ih =>
      simp only [closesOnLine, ht.pos_iff, Token.isOpener_of_key ht.key,
        Token.isCloser_of_key ht.key, ih]

theorem balanced_of_similar (h : List.Forall₂ Similar ts us) (depth : Nat) :
    balanced depth us = balanced depth ts := by
  induction h generalizing depth with
  | nil => rfl
  | cons ht _ ih =>
      simp only [balanced, Token.isOpener_of_key ht.key, Token.isCloser_of_key ht.key, ih]

theorem balanced_of_gaps {ctx : Context} {placed : List (Gap × Token)}
    (h : gaps ctx ts = .ok placed) : balanced ctx.stack.length ts = true := by
  induction ts generalizing ctx placed with
  | nil => rfl
  | cons t ts ih =>
      obtain ⟨below, more, hclose, hmore, -⟩ := gaps_cons_eq_ok h
      have hrest := ih hmore
      rcases close_eq_ok hclose with ⟨hno, rfl⟩ | ⟨hcloser, b, bs, hbs, rfl⟩
      · cases ho : t.isOpener <;> simpa [balanced, hno, after, ho] using hrest
      · simpa [balanced, hcloser, hbs, after, Token.isOpener_of_isCloser hcloser] using hrest

variable {ctx ctx' : Context} {prev prev' : Token}

theorem needsSpace_blind (hambiguous : isAmbiguous (some prev) t = false)
    (hloose : isLoose (some prev) t = false) (hflat : t.newlinesBefore = 0) (b : Bool)
    (following : Option Token) (rest : List Token) :
    needsSpace ctx prev { t with spaceBefore := b } (role ctx t following) rest =
      needsSpace ctx prev t (role ctx t following) rest := by
  simp only [isAmbiguous, Bool.or_eq_false_iff, Option.any_some, List.contains_eq_mem,
    decide_eq_false_iff_not, List.mem_cons, List.not_mem_nil, or_false, not_or,
    Bool.and_eq_false_imp, beq_iff_eq, beq_eq_false_iff_ne] at hambiguous
  obtain ⟨⟨hop, hdots, hsquare, hbrace⟩, ⟨-, hclosed⟩, hparen⟩ := hambiguous
  by_cases hunary : role ctx t following = some .unary
  -- the role is that of `!` or `~`, which would be loose after an operand
  · have hkind : t.kind = .op := by
      by_contra hk
      simp [role, hk] at hunary
    have htext : t.text ∈ unaryOps := by
      by_contra hno
      simp [role, hkind, hno, hop] at hunary
    simp only [isLoose, hkind, hflat, htext, Option.any_some, List.contains_eq_mem, beq_self_eq_true,
      decide_true, Bool.and_true, Bool.true_and, Bool.and_eq_false_imp, Bool.not_eq_false',
      decide_eq_true_eq] at hloose
    cases hends : prev.endsOperand with
    | false => simp [needsSpace, hunary, hends, hdots, hbrace]
    | true =>
        have hsettled := hloose hends
        simp only [settling, List.mem_cons, List.not_mem_nil, or_false] at hsettled
        rcases hsettled with h | h | h | h | h | h | h | h <;>
          simp [needsSpace, h, hdots, braceOpen]
  · have hspace : spaceBeforeParen ctx prev { t with spaceBefore := b } = spaceBeforeParen ctx prev t ∨
        t.text ≠ "(" := by
      by_cases ht : t.text = "("
      · simp [spaceBeforeParen, hparen ht]
      · exact .inr ht
    rcases hspace with hspace | hspace <;>
      simp [needsSpace, hunary, hdots, hsquare, hbrace, hclosed, hspace]

theorem role_of_isLoose (h : isLoose (some prev) t = true) (ctx : Context)
    (following : Option Token) : role ctx t following = some .unary ∧ prev.endsOperand = true := by
  have hbinary : ∀ o ∈ unaryOps, o ∉ binaryOps := by decide
  simp only [isLoose, Option.any_some, Bool.and_eq_true, beq_iff_eq, List.contains_eq_mem,
    decide_eq_true_eq] at h
  obtain ⟨⟨⟨hkind, htext⟩, -⟩, hends, -⟩ := h
  exact ⟨by simp [role, hkind, htext, hbinary t.text htext], hends⟩

theorem needsSpace_of_isLoose (h : isLoose (some prev) t = true) (hrole : ctx.prevRole = none)
    (rest : List Token) : needsSpace ctx prev t (some .unary) rest = t.spaceBefore := by
  simp only [isLoose, Option.any_some, Bool.and_eq_true, beq_iff_eq, List.contains_eq_mem,
    decide_eq_true_eq, Bool.not_eq_true', decide_eq_false_iff_not, settling, braceOpen,
    List.mem_cons, List.not_mem_nil, or_false, not_or, unaryOps] at h
  obtain ⟨⟨⟨-, htext⟩, -⟩, hends, hsettling⟩ := h
  rcases htext with htext | htext <;>
    simp [needsSpace, htext, hsettling, hrole, hends, endsOperand_ne_keyword hends, braceOpen,
      braceClose]

theorem isAmbiguous_after (h : t.text ∈ ambiguousOps) (u : Token) :
    isAmbiguous (some t) u = true := by
  simp [isAmbiguous, h]

theorem isParted_of_agree (h : List.Forall₂ Similar ts us) (ht : t.text ∈ ambiguousOps)
    (hagree : AgreeOn isAmbiguous (some t) ts us) : isParted us.head? = isParted ts.head? := by
  cases h with
  | nil => rfl
  | cons hu _ =>
      have hspace := hagree.1 (isAmbiguous_after ht _)
      simp only [isParted, List.head?_cons, Option.all_some, hu.pos_iff, hspace]

theorem role_of_agree (h : Agrees ctx ctx' prev prev') (ht : Similar t v)
    (hrest : List.Forall₂ Similar ts us) (hagree : AgreeOn isAmbiguous (some prev) (t :: ts) (v :: us)) :
    role ctx' v us.head? = role ctx t ts.head? := by
  cases hopen : isOpen prev t with
  | false => exact role_of_agrees h ht.key hopen _ _
  | true =>
      obtain ⟨-, hop, hends⟩ := kind_of_isOpen hopen
      obtain ⟨hrole, hrole'⟩ := h.operand hends
      have hopen' := (isOpen_of_key h.key ht.key).trans hopen
      have hspace : v.spaceBefore = t.spaceBefore := hagree.1 (by simp [isAmbiguous, hop])
      rw [role_of_isOpen h.prev_eq hrole hopen, role_of_isOpen h.prev_eq' hrole' hopen', hspace,
        isParted_of_agree hrest hop hagree.2]

theorem gap_eq_iff (h : Agrees ctx ctx' prev prev') (hrole : ctx'.prevRole = ctx.prevRole)
    (ht : Similar t v) (hrest : List.Forall₂ Similar ts us)
    (hambiguous : isAmbiguous (some prev) t = true → v.spaceBefore = t.spaceBefore)
    {following following' : Option Token} (hr : role ctx' v following' = role ctx t following) :
    gap ctx' v (role ctx' v following') us = gap ctx t (role ctx t following) ts ↔
      (isLoose (some prev) t = true → v.spaceBefore = t.spaceBefore) := by
  by_cases hline : 0 < t.newlinesBefore
  · have hloose : isLoose (some prev) t = false := by
      have hne : (t.newlinesBefore == 0) = false := by simpa using Nat.pos_iff_ne_zero.1 hline
      simp [isLoose, hne]
    have hindent : indentation ctx' v = indentation ctx t :=
      indentation_again h ht.key hline (.inl hrole)
    simp [gap, h.prev_eq, h.prev_eq', ht.pos_iff, ht.blank_iff, hline, hindent, hloose]
  · have hflat : t.newlinesBefore = 0 := by omega
    have hflat' : v.newlinesBefore = 0 := by
      have := ht.pos_iff
      omega
    have hspace := needsSpace_of_agrees h ht.key hrole (role ctx t following)
      (closesOnLine_of_similar hrest 1)
    rw [gap_of_flat h.prev_eq hflat, gap_of_flat h.prev_eq' hflat', hr, hspace]
    cases hloose : isLoose (some prev) t with
    | true =>
        obtain ⟨hunary, hends⟩ := role_of_isLoose hloose ctx following
        have hnone := (h.operand hends).1
        have hloose' : isLoose (some prev) { t with spaceBefore := v.spaceBefore } = true := hloose
        rw [hunary, needsSpace_of_isLoose hloose hnone, needsSpace_of_isLoose hloose' hnone]
        cases v.spaceBefore <;> cases t.spaceBefore <;> simp
    | false =>
        cases hamb : isAmbiguous (some prev) t with
        | true => simp [hambiguous hamb]
        | false => simp [needsSpace_blind hamb hloose hflat]

theorem isOpener_of_isLoose (h : isLoose (some prev) t = true) : t.isOpener = false := by
  have hopeners : ∀ o ∈ unaryOps, o ∉ Token.openers := by decide
  simp only [isLoose, Bool.and_eq_true, List.contains_eq_mem, decide_eq_true_eq] at h
  simp [Token.isOpener, hopeners t.text h.1.1.2]

theorem after_of_plain (h : t.isOpener = false) (ctx : Context) (r : Option Role) (g g' : Gap) :
    after ctx t r g' = after ctx t r g := by
  simp [after, h]

structure Variant (a a' : Gap × Token) : Prop where
  text : a'.2.text = a.2.text
  gap : a'.1 = a.1 ∨
    a.2.text ∈ unaryOps ∧ (a.1 = .none ∨ a.1 = .space) ∧ (a'.1 = .none ∨ a'.1 = .space)

theorem flat_gap (hprev : ctx.prev = some prev) (hflat : t.newlinesBefore = 0) (r : Option Role)
    (rest : List Token) : gap ctx t r rest = .none ∨ gap ctx t r rest = .space := by
  rw [gap_of_flat hprev hflat]
  split
  · exact .inr rfl
  · exact .inl rfl

theorem variant_gap (h : Agrees ctx ctx' prev prev') (ht : Similar t v) {r r' : Option Role}
    (hgap : gap ctx' v r' us = gap ctx t r ts ↔
      (isLoose (some prev) t = true → v.spaceBefore = t.spaceBefore)) :
    Variant (gap ctx t r ts, t) (gap ctx' v r' us, v) := by
  refine ⟨ht.text, ?_⟩
  cases hloose : isLoose (some prev) t with
  | false => exact .inl (hgap.2 (by simp [hloose]))
  | true =>
      simp only [isLoose, Bool.and_eq_true, beq_iff_eq, List.contains_eq_mem, decide_eq_true_eq]
        at hloose
      obtain ⟨⟨⟨-, htext⟩, hflat⟩, -⟩ := hloose
      have hflat' : v.newlinesBefore = 0 := by
        have := ht.pos_iff
        omega
      exact .inr ⟨htext, flat_gap h.prev_eq hflat r ts, flat_gap h.prev_eq' hflat' r' us⟩

theorem gaps_eq_iff (h : Agrees ctx ctx' prev prev') (hrole : ctx'.prevRole = ctx.prevRole)
    (hsimilar : List.Forall₂ Similar ts us) (hagree : AgreeOn isAmbiguous (some prev) ts us)
    {placed placed' : List (Gap × Token)} (hts : gaps ctx ts = .ok placed)
    (hus : gaps ctx' us = .ok placed') :
    List.Forall₂ Variant placed placed' ∧
      (placed'.map Prod.fst = placed.map Prod.fst ↔ AgreeOn isLoose (some prev) ts us) := by
  induction hsimilar generalizing ctx ctx' prev prev' placed placed' with
  | nil =>
      cases hts
      cases hus
      exact ⟨.nil, by simp [AgreeOn]⟩
  | @cons t v ts us ht hsimilar ih =>
      obtain ⟨below, more, hclose, hmore, rfl⟩ := gaps_cons_eq_ok hts
      obtain ⟨below', more', hclose', hmore', rfl⟩ := gaps_cons_eq_ok hus
      have hbelow := h.close ht.key hclose hclose'
      have hsame : below'.prevRole = below.prevRole := by
        rw [(close_prev hclose).2, (close_prev hclose').2, hrole]
      have hr := role_of_agree hbelow ht hsimilar hagree
      have hgap := gap_eq_iff hbelow hsame ht hsimilar hagree.1 hr
      -- a gap matters to what follows only after an opening bracket, which is not loose
      have hafter : after below' v (role below' v us.head?) (gap below' v (role below' v us.head?) us) =
          after below' v (role below' v us.head?) (gap below t (role below t ts.head?) ts) := by
        cases hloose : isLoose (some prev) t with
        | false => rw [hgap.2 (by simp [hloose])]
        | true =>
            refine after_of_plain ?_ _ _ _ _
            rw [Token.isOpener_of_key ht.key, isOpener_of_isLoose hloose]
      rw [hafter] at hmore'
      obtain ⟨hvariants, hrest⟩ := ih (hbelow.after ht.key _ _ _) hr hagree.2 hmore hmore'
      refine ⟨.cons (variant_gap hbelow ht hgap) hvariants, ?_⟩
      rw [List.map_cons, List.map_cons, List.cons.injEq, hgap, hrest]
      rfl

theorem isPrefix_trimRight {core cs : List Char} (hcore : Piece.Solid core) (h : core <+: cs) :
    core <+: Text.trimRight cs := by
  obtain ⟨c, hlast, hc⟩ := hcore
  obtain ⟨init, rfl⟩ := List.getLast?_eq_some_iff.1 hlast
  obtain ⟨tail, rfl⟩ := h
  rw [Text.trimRight, List.reverse_append, List.dropWhile_append]
  split
  · simp [hc]
  · rw [List.reverse_append, List.reverse_reverse]
    exact List.prefix_append _ _

theorem breakLines_starts {core : List Char} (hcore : Piece.Solid core) {line : String}
    (h : core <+: line.toList) (rest : List (Gap × Token)) :
    ∃ first more, breakLines line rest = first :: more ∧ core <+: first.toList := by
  have htrim : core <+: (trimEnd line).toList := by
    simpa [trimEnd] using isPrefix_trimRight hcore h
  induction rest generalizing line with
  | nil => exact ⟨_, _, rfl, htrim⟩
  | cons a rest ih =>
      obtain ⟨g, t⟩ := a
      have hlonger (more : String) : core <+: (line ++ more).toList := by
        rw [String.toList_append]
        exact h.trans (List.prefix_append _ _)
      have htrimmed (more : String) : core <+: (trimEnd (line ++ more)).toList := by
        simpa [trimEnd] using isPrefix_trimRight hcore (by simpa using hlonger more)
      cases g with
      | none => exact ih (hlonger t.text) (htrimmed t.text)
      | space =>
          rw [breakLines, String.append_assoc]
          exact ih (hlonger _) (htrimmed _)
      | newline blank depth => exact ⟨_, _, rfl, htrim⟩

theorem breakLines_space_ne {text : String} (htext : text ∈ unaryOps) (line : String)
    (rest rest' : List (Gap × Token)) :
    breakLines (line ++ " " ++ text) rest ≠ breakLines (line ++ text) rest' := by
  obtain ⟨c, hc, hblank, hspace⟩ : ∃ c, text.toList = [c] ∧ Text.isBlank c = false ∧ ' ' ≠ c := by
    simp only [unaryOps, List.mem_cons, List.not_mem_nil, or_false] at htext
    rcases htext with rfl | rfl
    · exact ⟨'!', rfl, by decide, by decide⟩
    · exact ⟨'~', rfl, by decide, by decide⟩
  have hsolid : Piece.Solid [c] := ⟨c, rfl, hblank⟩
  have hspaced : line.toList ++ [' '] ++ [c] <+: (line ++ " " ++ text).toList := by simp [hc]
  have hjoined : line.toList ++ [c] <+: (line ++ text).toList := by simp [hc]
  obtain ⟨first, more, hlines, hstart⟩ := breakLines_starts (hsolid.append _) hspaced rest
  obtain ⟨first', more', hlines', hstart'⟩ := breakLines_starts (hsolid.append _) hjoined rest'
  intro heq
  rw [hlines, hlines', List.cons.injEq] at heq
  rw [heq.1] at hstart
  obtain ⟨tail, htail⟩ := hstart
  obtain ⟨tail', htail'⟩ := hstart'
  rw [← htail', List.append_assoc, List.append_assoc, List.append_assoc,
    List.append_cancel_left_eq] at htail
  exact hspace (List.cons.inj htail).1

theorem fst_eq_of_breakLines {placed placed' : List (Gap × Token)}
    (h : List.Forall₂ Variant placed placed') {line : String}
    (heq : breakLines line placed' = breakLines line placed) :
    placed'.map Prod.fst = placed.map Prod.fst := by
  induction h generalizing line with
  | nil => rfl
  | @cons a a' placed placed' ha _ ih =>
      obtain ⟨g, t⟩ := a
      obtain ⟨g', t'⟩ := a'
      obtain ⟨htext, hgap⟩ := ha
      simp only at htext hgap
      rw [List.map_cons, List.map_cons]
      rcases hgap with rfl | ⟨hop, rfl | rfl, rfl | rfl⟩
      · cases g' with
        | none => rw [ih (by simpa only [breakLines, htext] using heq)]
        | space => rw [ih (by simpa only [breakLines, htext] using heq)]
        | newline blank depth =>
            simp only [breakLines, htext, List.cons_append, List.cons.injEq, true_and,
              List.append_cancel_left_eq] at heq
            rw [ih heq]
      · rw [ih (by simpa only [breakLines, htext] using heq)]
      · simp only [breakLines, htext] at heq
        exact absurd heq (breakLines_space_ne hop line placed' placed)
      · simp only [breakLines, htext] at heq
        exact absurd heq.symm (breakLines_space_ne hop line placed placed')
      · rw [ih (by simpa only [breakLines, htext] using heq)]

theorem breakLines_of_fst {placed placed' : List (Gap × Token)}
    (h : List.Forall₂ Variant placed placed')
    (heq : placed'.map Prod.fst = placed.map Prod.fst) (line : String) :
    breakLines line placed' = breakLines line placed := by
  induction h generalizing line with
  | nil => rfl
  | @cons a a' placed placed' ha _ ih =>
      obtain ⟨g, t⟩ := a
      obtain ⟨g', t'⟩ := a'
      rw [List.map_cons, List.map_cons, List.cons.injEq] at heq
      obtain ⟨rfl, heq⟩ := heq
      have htext : t'.text = t.text := ha.text
      cases g' <;> simp only [breakLines, htext, ih heq]

theorem gaps_first {placed : List (Gap × Token)} (h : gaps {} (t :: ts) = .ok placed) :
    ∃ more, gaps (after {} t (role {} t ts.head?) .none) ts = .ok more ∧
      placed = (.none, t) :: more := by
  obtain ⟨ctx, more, hclose, hmore, rfl⟩ := gaps_cons_eq_ok h
  rcases close_eq_ok hclose with ⟨-, rfl⟩ | ⟨-, b, bs, hbs, -⟩
  · exact ⟨more, hmore, rfl⟩
  · simp at hbs

theorem agrees_first (ht : Similar t v) (following following' : Option Token) :
    Agrees (after {} t (role {} t following) .none) (after {} v (role {} v following') .none) t v ∧
      role {} v following' = role {} t following := by
  have hrole : role {} v following' = role {} t following := by
    simp [role, ht.kind, ht.text]
  refine ⟨⟨rfl, rfl, ht.key, ?_, rfl, rfl, fun hends => ?_⟩, hrole⟩
  · simp [after, Token.isOpener_of_key ht.key, ht.text, isSpacedBlock]
  · have hnone := role_of_endsOperand hends {} following
    exact ⟨hnone, hrole.trans hnone⟩

theorem gaps_error_iff : (∃ e, gaps {} ts = .error e) ↔ balanced 0 ts = false := by
  cases hgaps : gaps {} ts with
  | error e =>
      refine iff_of_true ⟨e, rfl⟩ (Bool.eq_false_iff.2 fun hbalanced => ?_)
      obtain ⟨placed, hplaced⟩ : ∃ placed, gaps {} ts = .ok placed := gaps_of_balanced hbalanced
      simp [hgaps] at hplaced
  | ok placed =>
      have hbalanced : balanced 0 ts = true := balanced_of_gaps hgaps
      simp [hbalanced]

theorem lines_of_gaps {g : Gap} {more : List (Gap × Token)}
    (h : gaps {} (dropSemicolons ts) = .ok ((g, t) :: more)) :
    lines ts = .ok (breakLines t.text more) := by
  simp [lines, h, Except.map]

theorem lines_error_iff : (∃ e, lines ts = .error e) ↔ balanced 0 (dropSemicolons ts) = false := by
  rw [← gaps_error_iff, lines]
  cases gaps {} (dropSemicolons ts) <;> simp [Except.map]

theorem lines_eq_of_balanced (h : List.Forall₂ Similar (dropSemicolons ts) (dropSemicolons us))
    (hagree : AgreeOn isAmbiguous none (dropSemicolons ts) (dropSemicolons us))
    (hbalanced : balanced 0 (dropSemicolons ts) = true) :
    lines us = lines ts ↔ AgreeOn isLoose none (dropSemicolons ts) (dropSemicolons us) := by
  have hbalanced' : balanced 0 (dropSemicolons us) = true := by
    rw [balanced_of_similar h, hbalanced]
  obtain ⟨placed, hts⟩ : ∃ placed, gaps {} (dropSemicolons ts) = .ok placed :=
    gaps_of_balanced hbalanced
  obtain ⟨placed', hus⟩ : ∃ placed', gaps {} (dropSemicolons us) = .ok placed' :=
    gaps_of_balanced hbalanced'
  cases hkept : dropSemicolons ts with
  | nil =>
      rw [hkept, List.forall₂_nil_left_iff] at h
      simp [lines, hkept, h, AgreeOn]
  | cons t rest =>
      rw [hkept] at h hagree hts
      obtain ⟨v, rest', ht, hrest, hkept'⟩ := List.forall₂_cons_left_iff.1 h
      rw [hkept'] at hagree hus ⊢
      obtain ⟨more, hmore, rfl⟩ := gaps_first hts
      obtain ⟨more', hmore', rfl⟩ := gaps_first hus
      obtain ⟨hagrees, hrole⟩ := agrees_first ht rest.head? rest'.head?
      obtain ⟨hvariants, hiff⟩ := gaps_eq_iff hagrees hrole hrest hagree.2 hmore hmore'
      have hlines := lines_of_gaps (hkept ▸ hts)
      have hlines' := lines_of_gaps (hkept' ▸ hus)
      rw [hlines, hlines', Except.ok.injEq, ht.text]
      have hfirst : AgreeOn isLoose none (t :: rest) (v :: rest') ↔
          AgreeOn isLoose (some t) rest rest' := by
        simp [AgreeOn, isLoose]
      rw [hfirst, ← hiff]
      exact ⟨fst_eq_of_breakLines hvariants, fun heq => breakLines_of_fst hvariants heq t.text⟩

theorem lines_eq_iff_loose (h : List.Forall₂ Similar ts us)
    (hagree : AgreeOn isAmbiguous none (dropSemicolons ts) (dropSemicolons us)) :
    (lines us).toOption = (lines ts).toOption ↔
      (∃ e, lines ts = .error e) ∨ AgreeOn isLoose none (dropSemicolons ts) (dropSemicolons us) := by
  have hkept := similar_dropSemicolons h
  have herror : (∃ e, lines us = .error e) ↔ balanced 0 (dropSemicolons ts) = false := by
    rw [lines_error_iff, balanced_of_similar hkept]
  cases hbalanced : balanced 0 (dropSemicolons ts) with
  | false =>
      obtain ⟨e, he⟩ := lines_error_iff.2 hbalanced
      obtain ⟨e', he'⟩ := herror.2 hbalanced
      simp [he, he', Except.toOption]
  | true =>
      have hok : ¬ ∃ e, lines ts = .error e := by simp [lines_error_iff, hbalanced]
      rw [or_iff_right hok, ← lines_eq_of_balanced hkept hagree hbalanced]
      cases hts : lines ts with
      | error e => exact absurd ⟨e, hts⟩ hok
      | ok ls => cases lines us <;> simp [Except.toOption]

def tokensOf (source : String) : List Token :=
  ((Token.ofSource source).toOption.getD []).dropLast

theorem lines_eq_iff_loose_call :
    List.Forall₂ Similar (tokensOf "x:=f(a,!b)*c") (tokensOf "x := f ( a , ! b )*c") ∧
      tokensOf "x:=f(a,!b)*c" ≠ tokensOf "x := f ( a , ! b )*c" ∧
      (lines (tokensOf "x := f ( a , ! b )*c")).toOption =
        (lines (tokensOf "x:=f(a,!b)*c")).toOption := by
  have h : List.Forall₂ Similar (tokensOf "x:=f(a,!b)*c") (tokensOf "x := f ( a , ! b )*c") ∧
      tokensOf "x:=f(a,!b)*c" ≠ tokensOf "x := f ( a , ! b )*c" ∧
      AgreeOn isAmbiguous none (dropSemicolons (tokensOf "x:=f(a,!b)*c"))
        (dropSemicolons (tokensOf "x := f ( a , ! b )*c")) ∧
      AgreeOn isLoose none (dropSemicolons (tokensOf "x:=f(a,!b)*c"))
        (dropSemicolons (tokensOf "x := f ( a , ! b )*c")) := by
    decide +kernel
  obtain ⟨hsimilar, hne, hambiguous, hloose⟩ := h
  exact ⟨hsimilar, hne, (lines_eq_iff_loose hsimilar hambiguous).2 (.inr hloose)⟩

theorem lines_differ_before_tilde :
    List.Forall₂ Similar (tokensOf "type N[T ~int] []T") (tokensOf "type N[T~int] []T") ∧
      AgreeOn isAmbiguous none (dropSemicolons (tokensOf "type N[T ~int] []T"))
        (dropSemicolons (tokensOf "type N[T~int] []T")) ∧
      (lines (tokensOf "type N[T ~int] []T")).toOption = some ["type N[T ~int] []T"] ∧
      (lines (tokensOf "type N[T~int] []T")).toOption = some ["type N[T~int] []T"] := by
  decide +kernel

end Gosmith.Go.Layout
