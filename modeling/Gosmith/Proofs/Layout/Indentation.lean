import Gosmith.Proofs.Layout.Boundaries

namespace Gosmith.Go

open Gosmith.Text (braceOpen braceClose braced)

namespace Grammar

theorem Nested.append {free : Bool} {us ts : List Token} (h : Nested free us)
    (ht : Nested free ts) : Nested free (us ++ ts) := by
  induction h with
  | nil => exact ht
  | plain ho hc he hs _ ih => exact .plain ho hc he hs (ih ht)
  | group ho hc hm hi _ _ ihr =>
      rw [List.cons_append, List.append_assoc, List.cons_append]
      exact .group ho hc hm hi (ihr ht)

theorem Nested.countP_eq {free : Bool} {ts : List Token} (h : Nested free ts) :
    ts.countP Token.isOpener = ts.countP Token.isCloser := by
  induction h with
  | nil => rfl
  | plain ho hc _ _ _ ih => simp [ho, hc, ih]
  | group ho hc _ _ _ ihi ihr =>
      simp only [List.countP_cons, List.countP_append, ho, hc, Token.isCloser_of_isOpener ho,
        Token.isOpener_of_isCloser hc, ihi, ihr]
      simp only [Bool.false_eq_true, if_false, if_true]
      omega

/-- Tokens with the brackets that they open and do not close, the innermost first. All other
brackets match. -/
inductive Unclosed : List String → List Token → Prop
  | nested {ts : List Token} (h : Nested true ts) : Unclosed [] ts
  | opener {stack : List String} {o : Token} {ts us : List Token} (h : Unclosed stack ts)
      (ho : o.isOpener = true) (hu : Nested true us) : Unclosed (o.text :: stack) (ts ++ o :: us)

namespace Unclosed

variable {stack stack' : List String} {ts us : List Token} {t : Token}

theorem append (h : Unclosed stack ts) (hu : Nested true us) : Unclosed stack (ts ++ us) := by
  cases h with
  | nested h => exact .nested (h.append hu)
  | opener h ho hn =>
      rw [List.append_assoc, List.cons_append]
      exact .opener h ho (hn.append hu)

theorem moves (h : Unclosed stack ts) (hm : Moves stack t stack') :
    Unclosed stack' (ts ++ [t]) := by
  cases hm with
  | opener ho => exact .opener h ho .nil
  | plain ho hc he => exact h.append (.plain ho hc he (fun _ => rfl) .nil)
  | closer hc hm =>
      -- with its partner the bracket makes a group, which belongs to what stands before
      cases h with
      | opener h ho hn =>
          rw [List.append_assoc, List.cons_append]
          exact h.append (.group ho hc hm hn .nil)

theorem countP_eq (h : Unclosed stack ts) :
    ts.countP Token.isOpener = ts.countP Token.isCloser + stack.length := by
  induction h with
  | nested h => simpa using h.countP_eq
  | opener _ ho hu ih =>
      simp only [List.countP_append, List.countP_cons, ho, Token.isCloser_of_isOpener ho, ih,
        hu.countP_eq, List.length_cons]
      simp only [Bool.false_eq_true, if_false, if_true]
      omega

theorem length_eq (h : Unclosed stack ts) (h' : Unclosed stack' ts) :
    stack.length = stack'.length := by
  have hcount := h.countP_eq
  rw [h'.countP_eq] at hcount
  omega

end Unclosed

end Grammar

namespace Layout

open Grammar (Enclosed Moves Unclosed Nested)

def isBinary (prev : Option Token) (t : Token) (following : Option Token) : Bool :=
  t.kind == .op && (binaryOps.contains t.text ||
    ambiguousOps.contains t.text && prev.any fun p =>
      p.isKeyword "chan" && t.text == "<-" ||
        p.endsOperand && t.spaceBefore && isParted following)

def endsBinary (before : List Token) (following : Option Token) : Bool :=
  before.getLast?.any fun t => isBinary before.dropLast.getLast? t following

def lineDepth (depth : Nat) (before : List Token) (t : Token) : Nat :=
  if isCaseLabel t && 0 < depth then depth - 1
  else if endsBinary before (some t) then depth + 1
  else depth

/-- What stands between the tokens `before` and a token after them. Brackets that the token closes
are not open. -/
structure Separated (before : List Token) (t : Token) (s : String) : Prop where
  flat : t.newlinesBefore = 0 → s = "" ∨ s = " "
  nested : ∃ stack, Unclosed stack (before ++ [t].filter Token.isCloser)
  line : 0 < t.newlinesBefore → ∀ stack, Unclosed stack (before ++ [t].filter Token.isCloser) →
    s = (if 1 < t.newlinesBefore then "\n\n" else "\n") ++ tabs (lineDepth stack.length before t)

theorem role_eq_binary_iff {ctx : Context} {t : Token} {following : Option Token}
    (h : ∀ p ∈ ctx.prev, p.endsOperand = true → ctx.prevRole = none) :
    role ctx t following = some .binary ↔ isBinary ctx.prev t following = true := by
  have hunary : ∀ o ∈ unaryOps, o ∉ ambiguousOps := by decide
  by_cases hk : t.kind = .op
  · by_cases hb : t.text ∈ binaryOps
    · simp [role, isBinary, hk, hb]
    · by_cases hu : t.text ∈ unaryOps
      · simp [role, isBinary, hk, hb, hu, hunary t.text hu]
      · by_cases ha : t.text ∈ ambiguousOps
        · cases hp : ctx.prev with
          | none => simp [role, isBinary, hk, hb, hu, ha, hp]
          | some p =>
              cases he : p.endsOperand with
              | true =>
                  have hrole := role_of_isOpen hp (h p hp he) (t := t)
                    (by simp [isOpen, hk, ha, he]) following
                  simp [hrole, isBinary, hk, hb, ha, he, endsOperand_ne_keyword he]
              | false => simp [role, isBinary, hk, hb, hu, ha, hp, he]
        · simp [role, isBinary, hk, hb, hu, ha]
  · simp [role, isBinary, hk]

structure Context.Follows (ctx : Context) (before : List Token) (stack : List String)
    (following : Option Token) : Prop where
  prev : ctx.prev = before.getLast?
  ne_nil : before ≠ []
  unclosed : Unclosed stack before
  depth : stack.length = ctx.stack.length
  operand : ∀ p ∈ ctx.prev, p.endsOperand = true → ctx.prevRole = none
  binary : ctx.prevRole = some .binary ↔ endsBinary before following = true

variable {ctx below : Context} {before : List Token} {stack stack' : List String} {t : Token}
  {following : Option Token}

theorem unclosed_close (h : ctx.Follows before stack (some t)) (hm : Moves stack t stack')
    (hclose : close ctx t = .ok below) :
    ∃ open', Unclosed open' (before ++ [t].filter Token.isCloser) ∧
      open'.length = below.stack.length := by
  rcases close_eq_ok hclose with ⟨hno, rfl⟩ | ⟨hcloser, b, bs, hbs, rfl⟩
  · exact ⟨stack, by simpa [hno] using h.unclosed, h.depth⟩
  · refine ⟨stack', by simpa [hcloser] using h.unclosed.moves hm, ?_⟩
    have hdepth := h.depth
    cases hm with
    | opener ho => simp [Token.isCloser_of_isOpener ho] at hcloser
    | closer => simpa [hbs] using hdepth
    | plain _ hc => simp [hcloser] at hc

theorem indentation_eq (h : ctx.Follows before stack (some t)) (hclose : close ctx t = .ok below) :
    indentation below t = lineDepth below.stack.length before t := by
  simp [indentation, lineDepth, isCaseLabel, (close_prev hclose).2, h.binary]

theorem separated_gap (h : ctx.Follows before stack (some t)) (hm : Moves stack t stack')
    (hclose : close ctx t = .ok below) (r : Option Role) (rest : List Token) :
    Separated before t (String.ofList (gap below t r rest).chars) := by
  obtain ⟨prev, hprev⟩ : ∃ prev, below.prev = some prev := by
    rw [(close_prev hclose).1, h.prev]
    exact ⟨_, List.getLast?_eq_some_getLast h.ne_nil⟩
  obtain ⟨open', hopen, hlength⟩ := unclosed_close h hm hclose
  refine ⟨fun hflat => ?_, ⟨open', hopen⟩, fun hline stack'' hstack => ?_⟩
  · rw [gap_of_flat hprev hflat]
    split
    · exact .inr rfl
    · exact .inl rfl
  · rw [hstack.length_eq hopen, hlength, ← indentation_eq h hclose, gap, hprev]
    simp only [if_pos hline, Gap.chars, decide_eq_true_eq, tabs]
    split <;> simp [← String.toList_inj]

theorem Context.Follows.after (h : ctx.Follows before stack (some t)) (hm : Moves stack t stack')
    (hclose : close ctx t = .ok below) (following : Option Token) (g : Gap) :
    (after below t (role below t following) g).Follows (before ++ [t]) stack' following := by
  have hprev := (close_prev hclose).1
  have hoperand : ∀ p ∈ below.prev, p.endsOperand = true → below.prevRole = none := by
    rw [hprev, (close_prev hclose).2]
    exact h.operand
  refine ⟨by simp [Layout.after], by simp, h.unclosed.moves hm,
    depth_after hm h.depth hclose _ g, ?_, ?_⟩
  · rintro p ⟨⟩ hends
    exact role_of_endsOperand hends below following
  · have hrole : role below t following = some .binary ↔ isBinary below.prev t following = true :=
      role_eq_binary_iff hoperand
    rw [hprev, h.prev] at hrole
    simpa [Layout.after, endsBinary] using hrole

theorem separated_gaps {ts : List Token} {placed : List (Gap × Token)} {breaks : Bool}
    (hctx : ctx.Follows before stack ts.head?) (hen : Enclosed stack breaks ts)
    (h : gaps ctx ts = .ok placed) (first : List (Gap × Token)) (g : Gap) (t : Token)
    (rest : List (Gap × Token)) (hsplit : placed = first ++ (g, t) :: rest) :
    Separated (before ++ first.map Prod.snd) t (String.ofList g.chars) := by
  induction ts generalizing ctx before stack breaks placed first with
  | nil =>
      cases h
      simp at hsplit
  | cons u ts ih =>
      obtain ⟨below, more, hclose, hmore, rfl⟩ := gaps_cons_eq_ok h
      cases hen with
      | cons hm _ hen =>
      cases first with
      | nil =>
          rw [List.nil_append, List.cons.injEq, Prod.mk.injEq] at hsplit
          obtain ⟨⟨rfl, rfl⟩, -⟩ := hsplit
          simpa using separated_gap hctx hm hclose _ ts
      | cons a first =>
          rw [List.cons_append, List.cons.injEq] at hsplit
          obtain ⟨rfl, hsplit⟩ := hsplit
          have hnext := ih (hctx.after hm hclose ts.head? _) hen hmore first hsplit
          simpa using hnext

theorem follows_start {k : Token} (hk : k.kind = .keyword) (following : Option Token) :
    (start k).Follows [k] [] following := by
  have hplain : Nested true [k] :=
    .plain (by simp [Token.isOpener, hk]) (by simp [Token.isCloser, hk]) (by simp [hk])
      (fun _ => rfl) .nil
  refine ⟨rfl, by simp, .nested hplain, rfl, fun _ _ _ => rfl, ?_⟩
  simp [start, endsBinary, isBinary, hk]

theorem toList_join_placed (placed : List (Gap × Token)) :
    (String.join (placed.map fun a => String.ofList a.1.chars ++ a.2.text)).toList =
      printed placed := by
  induction placed with
  | nil => rfl
  | cons a placed ih => simp [printed, ← ih]

end Layout

namespace Declaration

open Layout

theorem format_separated {source : String} {file : SourceFile}
    (h : SourceFile.ofSource source = .ok file) {d : Declaration} (hd : d ∈ file.decls) :
    ∃ (k : Token) (placed : List (String × Token)),
      dropSemicolons d.tokens = k :: placed.map Prod.snd ∧
      d.format = .ok (k.text ++ String.join (placed.map fun a => a.1 ++ a.2.text)) ∧
      ∀ first s t rest, placed = first ++ (s, t) :: rest →
        Separated (k :: first.map Prod.snd) t s := by
  obtain ⟨k, rest, placed, text, hlaid⟩ := exists_laid h hd
  have hkind := (Grammar.kind_of_isKeyword hlaid.keyword).1
  refine ⟨k, placed.map fun a => (String.ofList a.1.chars, a.2), ?_, ?_, ?_⟩
  · rw [hlaid.dropSemicolons, List.map_map]
    rfl
  · rw [hlaid.format, Except.ok.injEq, ← String.toList_inj, String.toList_append, List.map_map,
      hlaid.text, ← toList_join_placed]
    rfl
  · intro first s t more hsplit
    obtain ⟨first, tail, rfl, rfl, htail⟩ := List.map_eq_append_iff.1 hsplit
    obtain ⟨⟨g, u⟩, more, rfl, hu, rfl⟩ := List.map_eq_cons_iff.1 htail
    obtain ⟨rfl, rfl⟩ := Prod.mk.inj hu
    have hseparated := separated_gaps (follows_start hkind _) hlaid.enclosed hlaid.gaps first g u
      more rfl
    simpa [Function.comp_def] using hseparated

def switchSource : String :=
  "package p\nfunc f() " ++
    braced ("\nswitch x " ++ braced "\n\n\ncase 1:\ng( a +\nb,);\n" ++ "\n")

def switchText : String :=
  "func f() " ++
    braced ("\n\tswitch x " ++ braced "\n\n\tcase 1:\n\t\tg(a +\n\t\t\t\tb,)\n\t" ++ "\n")

theorem format_separated_switch : ∃ file, SourceFile.ofSource switchSource = .ok file ∧
    ∃ d ∈ file.decls, d.format = .ok switchText ∧
      ∃ (k : Token) (placed : List (String × Token)),
        dropSemicolons d.tokens = k :: placed.map Prod.snd ∧
        switchText = k.text ++ String.join (placed.map fun a => a.1 ++ a.2.text) ∧
        ∀ first s t rest, placed = first ++ (s, t) :: rest →
          Separated (k :: first.map Prod.snd) t s := by
  have hview : (SourceFile.ofSource switchSource).toOption.map
      (fun file => file.decls.map fun d => (d.format.toOption, d.tokens.map Token.key)) =
        some [(some switchText, headKeys ++ [(.keyword, "switch"), (.ident, "x"), (.op, braceOpen),
          (.keyword, "case"), (.int, "1"), (.op, ":"), (.ident, "g"), (.op, "("), (.ident, "a"),
          (.op, "+"), (.ident, "b"), (.op, ","), (.op, ")"), (.semicolon, ";"), (.op, braceClose),
          (.semicolon, "\n"), (.op, braceClose)])] := by
    decide +kernel
  obtain ⟨file, hfile, d, hmem, hformat, -⟩ := exists_declaration_of_view hview
  obtain ⟨k, placed, htokens, hformat', hseparated⟩ := format_separated hfile hmem
  have htext := Except.ok.inj (hformat.symm.trans hformat')
  exact ⟨file, hfile, d, hmem, hformat, k, placed, htokens, htext, hseparated⟩

end Declaration

end Gosmith.Go
