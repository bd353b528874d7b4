import Gosmith.Proofs.Grammar.File

namespace Gosmith.Go

namespace Token

/-- No token starts a line right after one that can end a statement, and semicolons of line ends
stand only after such tokens. The flag tells whether one stands just before. -/
def Unbroken : Bool → List Token → Prop
  | _, [] => True
  | breaks, t :: ts => (breaks = true → t.newlinesBefore = 0) ∧ (t.isAuto = true → breaks = true) ∧
      Unbroken t.endsStatement ts

theorem endsStatement_of_semicolon {t : Token} (h : t.kind = .semicolon) :
    t.endsStatement = false := by
  simp [endsStatement, h, Kind.isLiteral]

theorem Unbroken.left {breaks : Bool} {us vs : List Token} (h : Unbroken breaks (us ++ vs)) :
    Unbroken breaks us := by
  induction us generalizing breaks with
  | nil => trivial
  | cons u us ih =>
      obtain ⟨hline, hauto, hrest⟩ := h
      exact ⟨hline, hauto, ih hrest⟩

theorem Unbroken.right {breaks : Bool} {us vs : List Token} (h : Unbroken breaks (us ++ vs)) :
    ∃ breaks', Unbroken breaks' vs := by
  induction us generalizing breaks with
  | nil => exact ⟨breaks, h⟩
  | cons u us ih => exact ih h.2.2

namespace Pending

theorem unbroken_lineEnd (s : Pending) {ts : List Token} (h : Unbroken false ts) :
    Unbroken s.breaks (s.lineEnd ++ ts) := by
  cases hb : s.breaks with
  | false => simpa [lineEnd, hb] using h
  | true =>
      simp only [lineEnd, hb, if_true, List.singleton_append]
      exact ⟨fun _ => rfl, fun _ => rfl, h⟩

theorem unbroken_run {s : Pending} (hs : s.breaks = true → s.newlines = 0) (ps : List Piece) :
    Unbroken s.breaks ((s.run ps).1 ++ (s.run ps).2.finish) := by
  induction ps generalizing s with
  | nil => exact s.unbroken_lineEnd ⟨by simp, by simp [isAuto], trivial⟩
  | cons p ps ih =>
      have hstep : (s.step p).2.breaks = true → (s.step p).2.newlines = 0 := by
        cases hgap : p.kind.isGap with
        | false => simp [step_lexeme hgap]
        | true =>
            by_cases hline : p.text.count '\n' = 0
            · simpa [step_plain hgap hline] using hs
            · simp [step_line hgap hline]
      have hrest := ih hstep
      rw [run_cons, List.append_assoc]
      cases hgap : p.kind.isGap with
      | false =>
          rw [step_lexeme hgap] at hrest ⊢
          refine ⟨hs, fun hauto => ?_, hrest⟩
          simp [isAuto_of_key (s.key_token p)] at hauto
      | true =>
          by_cases hline : p.text.count '\n' = 0
          · rw [step_plain hgap hline] at hrest ⊢
            exact hrest
          · rw [step_line hgap hline] at hrest ⊢
            exact s.unbroken_lineEnd hrest

end Pending

theorem unbroken_ofSource {source : String} {ts : List Token} (h : ofSource source = .ok ts) :
    Unbroken false ts := by
  rw [(ofSource_eq_ok.1 h).2]
  have hstart : ({} : Pending).breaks = true → ({} : Pending).newlines = 0 := fun _ => rfl
  exact Pending.unbroken_run hstart _

theorem exists_unbroken {source : String} {ts us : List Token} (h : ofSource source = .ok ts)
    (hpart : us <:+: ts) : ∃ breaks, Unbroken breaks us := by
  obtain ⟨before, behind, rfl⟩ := hpart
  exact (unbroken_ofSource h).left.right

end Token

namespace Grammar

inductive Moves : List String → Token → List String → Prop
  | opener {stack : List String} {t : Token} (ho : t.isOpener = true) : Moves stack t (t.text :: stack)
  | closer {o : String} {stack : List String} {t : Token} (hc : t.isCloser = true)
      (hm : Token.closerOf o = t.text) : Moves (o :: stack) t stack
  | plain {stack : List String} {t : Token} (ho : t.isOpener = false) (hc : t.isCloser = false)
      (he : t.kind ≠ .eof) : Moves stack t stack

/-- Tokens that close all open brackets. Semicolons, and line ends after a token that can end a
statement, stand only inside brackets. The flag tells whether such a token stands just before. -/
inductive Enclosed : List String → Bool → List Token → Prop
  | nil {breaks : Bool} : Enclosed [] breaks []
  | cons {stack stack' : List String} {breaks : Bool} {t : Token} {ts : List Token}
      (hm : Moves stack t stack')
      (hfree : stack = [] → t.kind ≠ .semicolon ∧ (breaks = true → t.newlinesBefore = 0))
      (h : Enclosed stack' t.endsStatement ts) : Enclosed stack breaks (t :: ts)

theorem Moves.congr {stack stack' : List String} {t u : Token} (h : Moves stack t stack')
    (hkey : t.key = u.key) : Moves stack u stack' := by
  have htext : t.text = u.text := congrArg Prod.snd hkey
  have hkind : t.kind = u.kind := congrArg Prod.fst hkey
  have hopener := Token.isOpener_of_key hkey
  have hcloser := Token.isCloser_of_key hkey
  cases h with
  | opener ho =>
      rw [htext]
      exact .opener (hopener ▸ ho)
  | closer hc hm => exact .closer (hcloser ▸ hc) (htext ▸ hm)
  | plain ho hc he => exact .plain (hopener ▸ ho) (hcloser ▸ hc) (hkind ▸ he)

theorem Moves.of_semicolon {stack stack' : List String} {t : Token} (h : Moves stack t stack')
    (ht : t.kind = .semicolon) : stack' = stack := by
  cases h with
  | opener ho => simp [Token.isOpener, ht] at ho
  | closer hc => simp [Token.isCloser, ht] at hc
  | plain => rfl

theorem Enclosed.inside {stack : List String} {breaks : Bool} {ts : List Token}
    (h : Enclosed stack breaks ts) (hs : stack ≠ []) (breaks' : Bool) :
    Enclosed stack breaks' ts := by
  cases h with
  | nil => exact absurd rfl hs
  | cons hm hfree h => exact .cons hm (fun hnil => absurd hnil hs) h

theorem enclosed_nested {free : Bool} {us : List Token} (hn : Nested free us) {stack : List String}
    (hstack : free = true → stack ≠ []) {ts : List Token}
    (hts : ∀ breaks, Token.Unbroken breaks ts → Enclosed stack breaks ts) {breaks : Bool}
    (h : Token.Unbroken breaks (us ++ ts)) : Enclosed stack breaks (us ++ ts) := by
  induction hn generalizing stack ts breaks with
  | nil => exact hts breaks h
  | plain ho hc he hs hn ih =>
      obtain ⟨hline, -, hrest⟩ := h
      refine .cons (.plain ho hc he) (fun hnil => ⟨fun hk => ?_, hline⟩) (ih hstack hts hrest)
      exact hstack (hs hk) hnil
  | @group free o c inner rest ho hc hm hi hr ihi ihr =>
      rw [List.cons_append, List.append_assoc, List.cons_append] at h ⊢
      obtain ⟨hline, -, hrest⟩ := h
      have hkind : o.kind ≠ .semicolon := by simp [Token.kind_of_isOpener ho]
      refine .cons (.opener ho) (fun _ => ⟨hkind, hline⟩) (ihi (by simp) ?_ hrest)
      intro breaks' h'
      exact .cons (.closer hc hm) (by simp) (ihr hstack hts h'.2.2)

theorem enclosed_of_decl {kind : Declaration.Kind} {k : Token} {ts : List Token} {breaks : Bool}
    (hd : Decl kind (k :: ts)) (h : Token.Unbroken breaks (k :: ts)) :
    Enclosed [] k.endsStatement ts := by
  cases hd with
  | mk hk hn hh =>
      have hrest : Token.Unbroken k.endsStatement (ts ++ []) := by
        rw [List.append_nil]
        exact h.2.2
      have henclosed : Enclosed [] k.endsStatement (ts ++ []) :=
        enclosed_nested hn (by simp) (fun _ _ => .nil) hrest
      rwa [List.append_nil] at henclosed

theorem Enclosed.chain {stack : List String} {breaks : Bool} {ts : List Token}
    (h : Enclosed stack breaks ts) : Chain stack ts := by
  induction h with
  | nil => exact Nested.nil
  | cons hm hfree h ih =>
      cases hm with
      | opener ho => exact chain_opener ho ih
      | closer hc hm => exact chain_closer hc hm ih
      | plain ho hc he => exact chain_plain ho hc he (fun hk hnil => (hfree hnil).1 hk) ih

end Grammar

end Gosmith.Go
