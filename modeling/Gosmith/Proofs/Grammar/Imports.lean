import Gosmith.Proofs.Grammar.Header

namespace Gosmith.Go.Grammar

open SourceFile Gosmith.Text

def content (t : Token) : String :=
  String.ofList t.text.toList.tail.dropLast

def PathText (path : String) : Prop :=
  path.toList ≠ [] ∧ ∀ c ∈ path.toList, c ≠ '\\' ∧ isBlank c = false

inductive Spec : List Token → ImportSpec → Prop
  | plain {s : Token} (hs : s.kind = .string) (hp : PathText (content s)) :
      Spec [s] ⟨content s, none, s.pos.line⟩
  | named {n s : Token} (hn : n.kind = .ident ∨ n.isOp "." = true) (hs : s.kind = .string)
      (hp : PathText (content s)) : Spec [n, s] ⟨content s, some n.text, n.pos.line⟩

inductive Specs : List Token → List ImportSpec → Prop
  | nil : Specs [] []
  | single {us : List Token} {spec : ImportSpec} (h : Spec us spec) : Specs us [spec]
  | cons {us vs : List Token} {t : Token} {spec : ImportSpec} {specs : List ImportSpec}
      (h : Spec us spec) (ht : t.kind = .semicolon) (hs : Specs vs specs) :
      Specs (us ++ t :: vs) (spec :: specs)

inductive Clause : List Token → List ImportSpec → Prop
  | single {us : List Token} {spec : ImportSpec} (h : Spec us spec) : Clause us [spec]
  | group {l r : Token} {us : List Token} {specs : List ImportSpec} (hl : l.isOp "(" = true)
      (hr : r.isOp ")" = true) (h : Specs us specs) : Clause (l :: (us ++ [r])) specs

inductive Imports : List Token → List ImportSpec → List Token → Prop
  | nil {ts : List Token} : Imports ts [] ts
  | cons {k : Token} {us vs ws rest : List Token} {specs more : List ImportSpec}
      (hk : k.isKeyword "import" = true) (hc : Clause us specs) (ht : Terminator vs ws)
      (h : Imports ws more rest) : Imports (k :: (us ++ vs)) (specs ++ more) rest

theorem isWritable_iff {path : String} :
    ImportPath.isWritable path = true ↔ PathText path := by
  simp only [ImportPath.isWritable, PathText, Bool.and_eq_true, Bool.not_eq_true',
    List.contains_eq_mem, decide_eq_false_iff_not, List.any_eq_false]
  constructor
  · rintro ⟨⟨hne, hslash⟩, hblank⟩
    refine ⟨by simpa using hne, fun c hc => ⟨?_, by simpa using hblank c hc⟩⟩
    rintro rfl
    exact hslash hc
  · rintro ⟨hne, h⟩
    exact ⟨⟨by simpa using hne, fun hc => (h _ hc).1 rfl⟩, fun c hc => by simp [(h c hc).2]⟩

theorem specPath_iff {t : Token} {path : String} :
    specPath t = .ok path ↔ path = content t ∧ PathText path := by
  change (if ImportPath.isWritable (content t) then _ else _) = _ ↔ _
  split
  · rename_i hw
    constructor
    · rintro ⟨⟩
      exact ⟨rfl, isWritable_iff.1 hw⟩
    · rintro ⟨rfl, -⟩
      rfl
  · rename_i hw
    constructor
    · simp [fail]
    · rintro ⟨rfl, hp⟩
      exact absurd (isWritable_iff.2 hp) hw

theorem importSpec_eq {ts : List Token} {name : Option String} {t : Token} {rest : List Token}
    (h : specName ts = (name, t :: rest)) (ht : t.kind = .string) (hp : PathText (content t)) :
    importSpec ts = .ok (⟨content t, name, (peek ts).pos.line⟩, rest) := by
  simp [importSpec, h, peek, ht, specPath_iff.2 ⟨rfl, hp⟩]

theorem importSpec_eq_ok {ts rest : List Token} {spec : ImportSpec}
    (h : importSpec ts = .ok (spec, rest)) : ∃ name t, specName ts = (name, t :: rest) ∧
      t.kind = .string ∧ PathText (content t) ∧
      spec = ⟨content t, name, (peek ts).pos.line⟩ := by
  simp only [importSpec] at h
  cases hts : (specName ts).2 with
  | nil => simp [hts, peek, fail] at h
  | cons t us =>
      rw [hts] at h
      by_cases hk : t.kind = .string
      · cases hp : specPath t with
        | error e => simp [peek, hk, hp] at h
        | ok path =>
            simp only [peek, hk, if_true, hp, List.tail_cons, Except.ok.injEq, Prod.mk.injEq] at h
            obtain ⟨rfl, hpath⟩ := specPath_iff.1 hp
            exact ⟨_, t, by rw [← h.2, ← hts], hk, hpath, h.1.symm⟩
      · simp [peek, hk, fail] at h

theorem importSpec_iff {ts rest : List Token} {spec : ImportSpec} :
    importSpec ts = .ok (spec, rest) ↔ ∃ us, ts = us ++ rest ∧ Spec us spec := by
  constructor
  · intro h
    obtain ⟨name, s, hname, hs, hp, rfl⟩ := importSpec_eq_ok h
    cases ts with
    | nil => simp [specName] at hname
    | cons t us =>
        by_cases hn : (t.kind == .ident || t.isOp ".") = true
        · simp only [specName, hn, if_true, Prod.mk.injEq] at hname
          obtain ⟨rfl, rfl⟩ := hname
          exact ⟨[t, s], rfl, .named (by simpa using hn) hs hp⟩
        · simp only [specName, hn, Bool.false_eq_true, if_false, Prod.mk.injEq,
            List.cons.injEq] at hname
          obtain ⟨rfl, rfl, rfl⟩ := hname
          exact ⟨[t], rfl, .plain hs hp⟩
  · rintro ⟨us, rfl, h⟩
    cases h with
    | @plain s hs hp =>
        refine importSpec_eq ?_ hs hp
        simp [specName, hs, Token.isOp]
    | @named n s hn hs hp =>
        refine importSpec_eq ?_ hs hp
        simp [specName, hn]

theorem Spec.isOp_peek {us : List Token} {spec : ImportSpec} (h : Spec us spec) {text : String}
    (ht : text ≠ ".") (ts : List Token) : (peek (us ++ ts)).isOp text = false := by
  cases h with
  | plain hs hp => simp [peek, Token.isOp, hs]
  | named hn hs hp =>
      rcases hn with hn | hn
      · exact isOp_of_ident hn text
      · refine isOp_of_text_ne ?_
        simp only [List.cons_append, peek, (isOp_iff.1 hn).2]
        exact ht.symm

theorem importGroup_last {ts rest : List Token} {spec : ImportSpec} {r : Token}
    (hp : (peek ts).isOp ")" = false) (hs : importSpec ts = .ok (spec, r :: rest))
    (hr : r.isOp ")" = true) : importGroup ts = .ok ([spec], rest) := by
  rw [importGroup, if_neg (by simp [hp])]
  split
  · rename_i h
    simp [hs] at h
  · rename_i h
    rw [hs] at h
    cases h
    simp [peek, hr]

theorem importGroup_more {ts rest : List Token} {spec : ImportSpec} {t : Token}
    (hp : (peek ts).isOp ")" = false) (hs : importSpec ts = .ok (spec, t :: rest))
    (ht : t.kind = .semicolon) :
    importGroup ts = (importGroup rest).map fun r => (spec :: r.1, r.2) := by
  have hop : t.isOp ")" = false := by simp [Token.isOp, ht]
  rw [importGroup, if_neg (by simp [hp])]
  split
  · rename_i h
    simp [hs] at h
  · rename_i h
    rw [hs] at h
    cases h
    simp only [peek, hop, ht, List.tail_cons, Bool.false_eq_true, if_false, if_true]
    cases importGroup rest <;> rfl

theorem importGroup_of_specs {us : List Token} {specs : List ImportSpec} (h : Specs us specs)
    {r : Token} (hr : r.isOp ")" = true) (rest : List Token) :
    importGroup (us ++ r :: rest) = .ok (specs, rest) := by
  induction h with
  | nil =>
      rw [importGroup]
      simp [peek, hr]
  | single h =>
      exact importGroup_last (h.isOp_peek (by decide) _) (importSpec_iff.2 ⟨_, rfl, h⟩) hr
  | cons h ht hs ih =>
      rw [List.append_assoc, List.cons_append,
        importGroup_more (h.isOp_peek (by decide) _) (importSpec_iff.2 ⟨_, rfl, h⟩) ht, ih]
      rfl

theorem peek_of_isOp {ts : List Token} {text : String} (h : (peek ts).isOp text = true) :
    ∃ t us, ts = t :: us ∧ t.isOp text = true := by
  cases ts with
  | nil => simp [peek, Token.isOp] at h
  | cons t us => exact ⟨t, us, rfl, h⟩

theorem specs_of_importGroup {ts rest : List Token} {specs : List ImportSpec}
    (h : importGroup ts = .ok (specs, rest)) :
    ∃ us r, ts = us ++ r :: rest ∧ r.isOp ")" = true ∧ Specs us specs := by
  fun_induction importGroup ts generalizing specs rest with
  | case1 ts hp =>
      cases h
      obtain ⟨r, us, rfl, hr⟩ := peek_of_isOp hp
      exact ⟨[], r, rfl, hr, .nil⟩
  | case2 ts hp e hs => simp at h
  | case3 ts hp spec after hs t =>
      rename_i ht
      cases h
      obtain ⟨r, vs, rfl, hr⟩ := peek_of_isOp ht
      obtain ⟨us, rfl, hspec⟩ := importSpec_iff.1 hs
      exact ⟨us, r, rfl, hr, .single hspec⟩
  | case4 => simp at h
  | case5 ts hp spec after hs t ht hk specs' last he =>
      rename_i ih
      cases h
      obtain ⟨us, rfl, hspec⟩ := importSpec_iff.1 hs
      cases after with
      | nil => simp [t, peek] at hk
      | cons u vs =>
          obtain ⟨ws, r, heq, hr, hspecs⟩ := ih he
          obtain rfl : vs = ws ++ r :: last := heq
          exact ⟨us ++ u :: ws, r, by simp, hr, .cons hspec hk hspecs⟩
  | case6 => simp [fail] at h

theorem Spec.kind_ne_eof {us : List Token} {spec : ImportSpec} (h : Spec us spec) :
    ∀ t ∈ us, t.kind ≠ .eof := by
  cases h with
  | plain hs hp => simp [hs]
  | named hn hs hp =>
      rcases hn with hn | hn
      · simp [hn, hs]
      · simp [(isOp_iff.1 hn).1, hs]

theorem Specs.kind_ne_eof {us : List Token} {specs : List ImportSpec} (h : Specs us specs) :
    ∀ t ∈ us, t.kind ≠ .eof := by
  induction h with
  | nil => simp
  | single h => exact h.kind_ne_eof
  | cons h ht hs ih =>
      intro t hmem
      simp only [List.mem_append, List.mem_cons] at hmem
      rcases hmem with hmem | rfl | hmem
      · exact h.kind_ne_eof t hmem
      · simp [ht]
      · exact ih t hmem

theorem Clause.kind_ne_eof {us : List Token} {specs : List ImportSpec} (h : Clause us specs) :
    ∀ t ∈ us, t.kind ≠ .eof := by
  cases h with
  | single h => exact h.kind_ne_eof
  | group hl hr h =>
      intro t hmem
      simp only [List.mem_append, List.mem_cons, List.not_mem_nil, or_false] at hmem
      rcases hmem with rfl | hmem | rfl
      · simp [(isOp_iff.1 hl).1]
      · exact h.kind_ne_eof t hmem
      · simp [(isOp_iff.1 hr).1]

def clause (ts : List Token) : Except Diagnostic (List ImportSpec × List Token) :=
  if (peek ts).isOp "(" then importGroup ts.tail
  else (importSpec ts).map fun (spec, rest) => ([spec], rest)

theorem clause_iff {ts rest : List Token} {specs : List ImportSpec} :
    clause ts = .ok (specs, rest) ↔ ∃ us, ts = us ++ rest ∧ Clause us specs := by
  constructor
  · intro h
    unfold clause at h
    split at h
    · rename_i hp
      obtain ⟨l, us, rfl, hl⟩ := peek_of_isOp hp
      obtain ⟨vs, r, heq, hr, hspecs⟩ := specs_of_importGroup h
      obtain rfl : us = vs ++ r :: rest := heq
      exact ⟨l :: (vs ++ [r]), by simp, .group hl hr hspecs⟩
    · cases hs : importSpec ts with
      | error e => simp [hs, Except.map] at h
      | ok r =>
          simp only [hs, Except.map, Except.ok.injEq, Prod.mk.injEq] at h
          obtain ⟨rfl, rfl⟩ := h
          obtain ⟨us, heq, hspec⟩ := importSpec_iff.1 hs
          exact ⟨us, heq, .single hspec⟩
  · rintro ⟨us, rfl, h⟩
    cases h with
    | single h =>
        simp [clause, h.isOp_peek, importSpec_iff.2 ⟨us, rfl, h⟩, Except.map]
    | group hl hr h =>
        simp [clause, peek, hl, importGroup_of_specs h hr]

theorem importDecl_eq (ts : List Token) : importDecl ts =
    match clause ts with
    | .error e => .error e
    | .ok (specs, rest) => (terminator rest).map fun after => (specs, after) := rfl

theorem importDecl_iff {ts rest : List Token} {specs : List ImportSpec} (hts : Closed ts) :
    importDecl ts = .ok (specs, rest) ↔
      ∃ us vs, ts = us ++ vs ∧ Clause us specs ∧ Terminator vs rest := by
  rw [importDecl_eq]
  constructor
  · intro h
    cases hc : clause ts with
    | error e => simp [hc] at h
    | ok r =>
        obtain ⟨us, heq, hclause⟩ := clause_iff.1 hc
        have hclosed : Closed r.2 := (closed_append hclause.kind_ne_eof).1 (heq ▸ hts)
        simp only [hc] at h
        cases ht : terminator r.2 with
        | error e => simp [ht, Except.map] at h
        | ok after =>
            simp only [ht, Except.map, Except.ok.injEq, Prod.mk.injEq] at h
            obtain ⟨rfl, rfl⟩ := h
            exact ⟨us, r.2, heq, hclause, (terminator_iff hclosed).1 ht⟩
  · rintro ⟨us, vs, rfl, hclause, ht⟩
    have hclosed : Closed vs := (closed_append hclause.kind_ne_eof).1 hts
    rw [clause_iff.2 ⟨us, rfl, hclause⟩]
    simp [(terminator_iff hclosed).2 ht, Except.map]

theorem kind_of_isKeyword {t : Token} {text : String} (h : t.isKeyword text = true) :
    t.kind = .keyword ∧ t.text = text := by
  simpa [Token.isKeyword] using h

theorem imports_of_importDecls {ts rest : List Token} {specs : List ImportSpec} (hts : Closed ts)
    (h : importDecls ts = .ok (specs, rest)) : Imports ts specs rest ∧ Closed rest := by
  fun_induction importDecls ts generalizing specs rest with
  | case1 => exact hts.elim
  | case2 => simp at h
  | case3 => simp at h
  | case4 t us hk specs' after hd more last he =>
      rename_i ih
      cases h
      have hkind : t.kind ≠ .eof := by simp [(kind_of_isKeyword hk).1]
      have hclosed := closed_tail hts hkind
      obtain ⟨vs, ws, rfl, hclause, ht⟩ := (importDecl_iff hclosed).1 hd
      obtain ⟨hi, hrest⟩ := ih (ht.closed ((closed_append hclause.kind_ne_eof).1 hclosed)) he
      exact ⟨.cons hk hclause ht hi, hrest⟩
  | case5 =>
      cases h
      exact ⟨.nil, hts⟩

theorem importDecls_of_imports {ts rest : List Token} {specs : List ImportSpec} (hts : Closed ts)
    (h : Imports ts specs rest) (hrest : (peek rest).isKeyword "import" = false) :
    importDecls ts = .ok (specs, rest) := by
  induction h with
  | @nil ts =>
      cases ts with
      | nil => exact hts.elim
      | cons t us =>
          rw [importDecls]
          simp only [peek] at hrest
          simp [hrest]
  | @cons k us vs ws rest specs more hk hc ht h ih =>
      have hkind : k.kind ≠ .eof := by simp [(kind_of_isKeyword hk).1]
      have hclosed := closed_tail hts hkind
      have hdecl := (importDecl_iff hclosed).2 ⟨us, vs, rfl, hc, ht⟩
      have hmore := ih (ht.closed ((closed_append hc.kind_ne_eof).1 hclosed)) hrest
      rw [importDecls, if_pos hk]
      split
      · rename_i he
        simp [hdecl] at he
      · rename_i he
        rw [hdecl] at he
        cases he
        simp [hmore]

theorem Specs.spec_of_mem {us : List Token} {specs : List ImportSpec} (h : Specs us specs) :
    ∀ spec ∈ specs, ∃ vs, vs ⊆ us ∧ Spec vs spec := by
  induction h with
  | nil => simp
  | single h =>
      intro spec hspec
      rw [List.mem_singleton.1 hspec]
      exact ⟨_, List.Subset.refl _, h⟩
  | cons h ht hs ih =>
      intro spec hspec
      rcases List.mem_cons.1 hspec with rfl | hspec
      · exact ⟨_, List.subset_append_left _ _, h⟩
      · obtain ⟨vs, hsub, hv⟩ := ih spec hspec
        refine ⟨vs, fun t ht => ?_, hv⟩
        exact List.mem_append_right _ (List.mem_cons_of_mem _ (hsub ht))

theorem Clause.spec_of_mem {us : List Token} {specs : List ImportSpec} (h : Clause us specs) :
    ∀ spec ∈ specs, ∃ vs, vs ⊆ us ∧ Spec vs spec := by
  cases h with
  | single h => exact (Specs.single h).spec_of_mem
  | group hl hr h =>
      intro spec hspec
      obtain ⟨vs, hsub, hv⟩ := h.spec_of_mem spec hspec
      refine ⟨vs, fun t ht => ?_, hv⟩
      exact List.mem_cons_of_mem _ (List.mem_append_left _ (hsub ht))

theorem Terminator.suffix {ts rest : List Token} (h : Terminator ts rest) : rest <:+ ts := by
  cases h with
  | semicolon => exact List.suffix_cons _ _
  | atEnd => exact List.suffix_refl _

theorem Imports.spec_of_mem {ts rest : List Token} {specs : List ImportSpec}
    (h : Imports ts specs rest) : ∀ spec ∈ specs, ∃ vs, vs ⊆ ts ∧ Spec vs spec := by
  induction h with
  | nil => simp
  | cons hk hc ht h ih =>
      intro spec hspec
      rcases List.mem_append.1 hspec with hspec | hspec
      · obtain ⟨vs, hsub, hv⟩ := hc.spec_of_mem spec hspec
        refine ⟨vs, fun t ht => ?_, hv⟩
        exact List.mem_cons_of_mem _ (List.mem_append_left _ (hsub ht))
      · obtain ⟨vs, hsub, hv⟩ := ih spec hspec
        refine ⟨vs, fun t hmem => ?_, hv⟩
        exact List.mem_cons_of_mem _ (List.mem_append_right _ (ht.suffix.subset (hsub hmem)))

theorem Imports.suffix {ts rest : List Token} {specs : List ImportSpec}
    (h : Imports ts specs rest) : rest <:+ ts := by
  induction h with
  | nil => exact List.suffix_refl _
  | @cons k us vs ws rest specs more hk hc ht h ih =>
      have hvs : vs <:+ k :: (us ++ vs) := (List.suffix_append us vs).trans (List.suffix_cons k _)
      exact (ih.trans ht.suffix).trans hvs

theorem Spec.isWritable {us : List Token} {spec : ImportSpec} (h : Spec us spec) :
    ImportPath.isWritable spec.path = true := by
  cases h with
  | plain hs hp => exact isWritable_iff.2 hp
  | named hn hs hp => exact isWritable_iff.2 hp

theorem Spec.isName {source : String} {ts us : List Token} {spec : ImportSpec}
    (hts : Token.ofSource source = .ok ts) (hsub : us ⊆ ts) (h : Spec us spec) :
    ∀ name ∈ spec.name, name ≠ dotName → Token.isName name = true := by
  cases h with
  | plain => simp
  | named hn hs hp =>
      rintro name ⟨⟩ hdot
      rcases hn with hn | hn
      · exact Token.isName_of_ident hts (hsub List.mem_cons_self) hn
      · exact absurd (isOp_iff.1 hn).2 hdot

end Gosmith.Go.Grammar
