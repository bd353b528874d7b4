import Gosmith.Proofs.Grammar.Imports

namespace Gosmith.Go.Grammar

open SourceFile
open Gosmith.Text (braced)

inductive Decl : Declaration.Kind → List Token → Prop
  | mk {kind : Declaration.Kind} {k : Token} {ts : List Token} (hk : k.isKeyword kind.text = true)
      (hn : Nested false ts) (hh : Header kind ts) : Decl kind (k :: ts)

inductive Decls : List Token → List (Declaration.Kind × List Token) → Prop
  | nil {t : Token} (ht : t.kind = .eof) : Decls [t] []
  | cons {kind : Declaration.Kind} {us vs ws : List Token}
      {decls : List (Declaration.Kind × List Token)} (hd : Decl kind us) (ht : Terminator vs ws)
      (h : Decls ws decls) : Decls (us ++ vs) ((kind, us) :: decls)

inductive File : List Token → String → List ImportSpec →
    List (Declaration.Kind × List Token) → Prop
  | mk {k n : Token} {us vs ws : List Token} {imports : List ImportSpec}
      {decls : List (Declaration.Kind × List Token)} (hk : k.isKeyword "package" = true)
      (hn : n.kind = .ident) (ht : Terminator us vs) (hi : Imports vs imports ws)
      (hd : Decls ws decls) : File (k :: n :: us) n.text imports decls

theorem ofText?_iff {text : String} {kind : Declaration.Kind} :
    Declaration.Kind.ofText? text = some kind ↔ text = kind.text := by
  constructor
  · intro h
    have htext := List.find?_some h
    exact (beq_iff_eq.1 htext).symm
  · rintro rfl
    cases kind <;> decide

theorem startKind_iff {t : Token} {kind : Declaration.Kind} :
    startKind t = .ok kind ↔ t.isKeyword kind.text = true := by
  have himport : kind.text ≠ "import" := by cases kind <;> decide
  constructor
  · intro h
    unfold startKind at h
    split at h
    · simp [fail] at h
    · split at h
      · rename_i hkind
        cases h
        split at hkind
        · rename_i hk
          simp [Token.isKeyword, hk, ofText?_iff.1 hkind]
        · simp at hkind
      · simp [fail] at h
  · intro h
    obtain ⟨hk, ht⟩ := kind_of_isKeyword h
    have hlate : t.isKeyword "import" = false := by simp [Token.isKeyword, ht, himport]
    simp [startKind, hlate, hk, ofText?_iff.2 ht]

theorem declaration_iff (order : Nat) {t : Token} {us rest tokens : List Token}
    {kind : Declaration.Kind} (hts : Closed us) :
    (∃ d, declaration order t us = .ok (d, rest) ∧ d.kind = kind ∧ d.tokens = tokens) ↔
      ∃ vs, t :: us = tokens ++ vs ∧ Decl kind tokens ∧ Terminator vs rest := by
  constructor
  · rintro ⟨d, h, rfl, rfl⟩
    simp only [declaration] at h
    split at h
    · simp at h
    · simp at h
    · rename_i kind tokens after hk hd
      cases hh : header kind t tokens with
      | error e => simp [hh, Except.map] at h
      | ok r =>
          simp only [hh, Except.map, Except.ok.injEq, Prod.mk.injEq] at h
          obtain ⟨rfl, rfl⟩ := h
          obtain ⟨vs, rfl, hn, ht⟩ := (declTokens_iff hts).1 hd
          exact ⟨vs, rfl, .mk (startKind_iff.1 hk) hn ((header_isOk hn).1 ⟨r, hh⟩), ht⟩
  · rintro ⟨vs, heq, hd, ht⟩
    cases hd with
    | @mk k tokens hk hn hh =>
        simp only [List.cons_append, List.cons.injEq] at heq
        obtain ⟨rfl, rfl⟩ := heq
        obtain ⟨r, hr⟩ : ∃ r, header kind t tokens = .ok r := (header_isOk hn).2 hh
        have hbody := (declTokens_iff hts).2 ⟨vs, rfl, hn, ht⟩
        refine ⟨⟨kind, t :: tokens, r.1, r.2, t.pos.line, order⟩, ?_, rfl, rfl⟩
        simp [declaration, startKind_iff.2 hk, hbody, hr, Except.map]

theorem Decl.kind_ne_eof {kind : Declaration.Kind} {ts : List Token} (h : Decl kind ts) :
    ∀ t ∈ ts, t.kind ≠ .eof := by
  cases h with
  | mk hk hn hh =>
      intro t hmem
      rcases List.mem_cons.1 hmem with rfl | hmem
      · simp [(kind_of_isKeyword hk).1]
      · exact hn.kind_ne_eof t hmem

theorem Decl.exists_cons {kind : Declaration.Kind} {ts : List Token} (h : Decl kind ts) :
    ∃ k rest, ts = k :: rest ∧ k.isKeyword kind.text = true ∧ Nested false rest ∧
      Header kind rest := by
  cases h with
  | mk hk hn hh => exact ⟨_, _, rfl, hk, hn, hh⟩

def body (d : Declaration) : Declaration.Kind × List Token :=
  (d.kind, d.tokens)

theorem decls_of_declarations {order : Nat} {ts : List Token} {ds : List Declaration}
    (hts : Closed ts) (h : declarations order ts = .ok ds) : Decls ts (ds.map body) := by
  fun_induction declarations order ts generalizing ds with
  | case1 => exact hts.elim
  | case2 order t us ht =>
      cases h
      obtain rfl : us = [] := by simpa [Closed, ht] using hts
      exact .nil ht
  | case3 => simp at h
  | case4 => simp at h
  | case5 order t us hk d after hd more hm =>
      rename_i ih
      cases h
      have hclosed := closed_tail hts hk
      obtain ⟨vs, heq, hdecl, ht⟩ := (declaration_iff order hclosed).1 ⟨d, hd, rfl, rfl⟩
      rw [heq] at hts ⊢
      exact .cons hdecl ht (ih (ht.closed ((closed_append hdecl.kind_ne_eof).1 hts)) hm)

theorem declarations_of_decls {ts : List Token} {bodies : List (Declaration.Kind × List Token)}
    (hts : Closed ts) (h : Decls ts bodies) (order : Nat) :
    ∃ ds, declarations order ts = .ok ds ∧ ds.map body = bodies := by
  induction h generalizing order with
  | nil ht =>
      rw [declarations]
      simp [ht]
  | @cons kind us vs ws bodies hd ht h ih =>
      obtain ⟨more, hmore, hbodies⟩ := ih (ht.closed ((closed_append hd.kind_ne_eof).1 hts)) (order + 1)
      have hne := hd.kind_ne_eof
      cases hd with
      | @mk k tokens hk hn hh =>
          rw [List.cons_append] at hts ⊢
          have hkind := hne k List.mem_cons_self
          obtain ⟨d, hdecl, rfl, htokens⟩ := (declaration_iff order (closed_tail hts hkind)).2
            ⟨vs, rfl, .mk hk hn hh, ht⟩
          refine ⟨d :: more, ?_, by simp [hbodies, body, htokens]⟩
          rw [declarations, if_neg hkind]
          split
          · rename_i he
            simp [hdecl] at he
          · rename_i he
            rw [hdecl] at he
            cases he
            simp [hmore]

theorem packageClause_iff {ts rest : List Token} {package : String} (hts : Closed ts) :
    packageClause ts = .ok (package, rest) ↔ ∃ k n us, ts = k :: n :: us ∧
      k.isKeyword "package" = true ∧ n.kind = .ident ∧ n.text = package ∧ Terminator us rest := by
  constructor
  · intro h
    match ts, hts with
    | [k], hts => by_cases hk : k.isKeyword "package" <;> simp [packageClause, peek, hk, fail] at h
    | k :: n :: us, hts =>
        by_cases hk : k.isKeyword "package" = true
        · by_cases hn : n.kind = .ident
          · have hk' : k.kind ≠ .eof := by simp [(kind_of_isKeyword hk).1]
            have hclosed : Closed us := closed_tail (closed_tail hts hk') (by simp [hn])
            cases ht : terminator us with
            | error e => simp [packageClause, peek, hk, hn, ht, Except.map] at h
            | ok after =>
                simp only [packageClause, peek, hk, hn, ht, Except.map, List.tail_cons,
                  Bool.not_true, Bool.false_eq_true, if_false, ne_eq, not_true, Except.ok.injEq,
                  Prod.mk.injEq] at h
                obtain ⟨rfl, rfl⟩ := h
                exact ⟨k, n, us, rfl, hk, hn, rfl, (terminator_iff hclosed).1 ht⟩
          · simp [packageClause, peek, hk, hn, fail] at h
        · simp [packageClause, peek, hk, fail] at h
  · rintro ⟨k, n, us, rfl, hk, hn, rfl, ht⟩
    have hk' : k.kind ≠ .eof := by simp [(kind_of_isKeyword hk).1]
    have hclosed : Closed us := closed_tail (closed_tail hts hk') (by simp [hn])
    simp [packageClause, peek, hk, hn, (terminator_iff hclosed).2 ht, Except.map]

theorem Decls.peek_import {ts : List Token} {bodies : List (Declaration.Kind × List Token)}
    (h : Decls ts bodies) : (peek ts).isKeyword "import" = false := by
  cases h with
  | nil ht => simp [peek, Token.isKeyword, ht]
  | @cons kind us vs ws bodies hd ht h =>
      cases hd with
      | mk hk hn hh =>
          have himport : kind.text ≠ "import" := by cases kind <;> decide
          simp [peek, Token.isKeyword, (kind_of_isKeyword hk).2, himport]

theorem file_of_ofTokens {ts : List Token} {file : SourceFile} (hts : Closed ts)
    (h : ofTokens ts = .ok file) :
    File ts file.package file.imports (file.decls.map body) := by
  simp only [ofTokens] at h
  split at h
  · simp at h
  · rename_i package rest hp
    split at h
    · simp at h
    · rename_i imports after hi
      cases hd : declarations 0 after with
      | error e => simp [hd, Except.map] at h
      | ok decls =>
          simp only [hd, Except.map, Except.ok.injEq] at h
          obtain rfl := h
          obtain ⟨k, n, us, rfl, hk, hn, rfl, ht⟩ := (packageClause_iff hts).1 hp
          have hk' : k.kind ≠ .eof := by simp [(kind_of_isKeyword hk).1]
          have hclosed := ht.closed (closed_tail (closed_tail hts hk') (by simp [hn]))
          obtain ⟨himports, hafter⟩ := imports_of_importDecls hclosed hi
          exact .mk hk hn ht himports (decls_of_declarations hafter hd)

theorem Imports.closed {ts rest : List Token} {specs : List ImportSpec} (h : Imports ts specs rest)
    (hts : Closed ts) : Closed rest := by
  induction h with
  | nil => exact hts
  | cons hk hc ht h ih =>
      have hclosed := closed_tail hts (by simp [(kind_of_isKeyword hk).1])
      exact ih (ht.closed ((closed_append hc.kind_ne_eof).1 hclosed))

theorem ofTokens_of_file {ts : List Token} {package : String} {imports : List ImportSpec}
    {bodies : List (Declaration.Kind × List Token)} (hts : Closed ts)
    (h : File ts package imports bodies) : ∃ file, ofTokens ts = .ok file ∧
      file.package = package ∧ file.imports = imports ∧ file.decls.map body = bodies := by
  cases h with
  | @mk k n us vs ws _ _ hk hn ht hi hd =>
      have hk' : k.kind ≠ .eof := by simp [(kind_of_isKeyword hk).1]
      have hclosed := ht.closed (closed_tail (closed_tail hts hk') (by simp [hn]))
      obtain ⟨ds, hds, hbodies⟩ := declarations_of_decls (hi.closed hclosed) hd 0
      refine ⟨⟨n.text, imports, ds⟩, ?_, rfl, rfl, hbodies⟩
      rw [ofTokens, (packageClause_iff hts).2 ⟨k, n, us, rfl, hk, hn, rfl, ht⟩]
      simp [importDecls_of_imports hclosed hi hd.peek_import, hds, Except.map]

theorem File.spec_of_mem {ts : List Token} {package : String} {imports : List ImportSpec}
    {bodies : List (Declaration.Kind × List Token)} (h : File ts package imports bodies) :
    ∀ spec ∈ imports, ∃ vs, vs ⊆ ts ∧ Spec vs spec := by
  cases h with
  | mk hk hn ht hi hd =>
      intro spec hspec
      obtain ⟨vs, hsub, hv⟩ := hi.spec_of_mem spec hspec
      refine ⟨vs, fun t hmem => ?_, hv⟩
      exact List.mem_cons_of_mem _ (List.mem_cons_of_mem _ (ht.suffix.subset (hsub hmem)))

theorem spec_of_ofSource {source : String} {file : SourceFile}
    (h : SourceFile.ofSource source = .ok file) {spec : ImportSpec} (hspec : spec ∈ file.imports) :
    ∃ ts vs, Token.ofSource source = .ok ts ∧ vs ⊆ ts ∧ Spec vs spec := by
  cases hts : Token.ofSource source with
  | error e => simp [SourceFile.ofSource, hts] at h
  | ok ts =>
      simp only [SourceFile.ofSource, hts] at h
      obtain ⟨vs, hsub, hv⟩ := (file_of_ofTokens (closed_ofSource hts) h).spec_of_mem spec hspec
      exact ⟨ts, vs, rfl, hsub, hv⟩

theorem Decls.decl_of_mem {ts : List Token} {bodies : List (Declaration.Kind × List Token)}
    (h : Decls ts bodies) :
    ∀ b ∈ bodies, ∃ vs ws, b.2 ++ vs <:+ ts ∧ Decl b.1 b.2 ∧ Terminator vs ws := by
  induction h with
  | nil => simp
  | @cons kind us vs ws decls hd ht h ih =>
      intro b hb
      rcases List.mem_cons.1 hb with rfl | hb
      · exact ⟨vs, ws, List.suffix_rfl, hd, ht⟩
      · obtain ⟨vs', ws', hpart, hbody⟩ := ih b hb
        exact ⟨vs', ws', hpart.trans (ht.suffix.trans (List.suffix_append _ _)), hbody⟩

theorem File.decl_of_mem {ts : List Token} {package : String} {imports : List ImportSpec}
    {bodies : List (Declaration.Kind × List Token)} (h : File ts package imports bodies) :
    ∀ b ∈ bodies, ∃ vs ws, b.2 ++ vs <:+ ts ∧ Decl b.1 b.2 ∧ Terminator vs ws := by
  cases h with
  | @mk k n us vs ws _ _ hk hn ht hi hd =>
      intro b hb
      obtain ⟨vs', ws', hpart, hbody⟩ := hd.decl_of_mem b hb
      have hus : us <:+ k :: n :: us := (List.suffix_cons n us).trans (List.suffix_cons k _)
      exact ⟨vs', ws', hpart.trans ((hi.suffix.trans ht.suffix).trans hus), hbody⟩

theorem infix_of_ofSource {source : String} {file : SourceFile}
    (h : SourceFile.ofSource source = .ok file) {d : Declaration} (hd : d ∈ file.decls) :
    ∃ ts, Token.ofSource source = .ok ts ∧ d.tokens <:+: ts ∧ Decl d.kind d.tokens := by
  cases hts : Token.ofSource source with
  | error e => simp [SourceFile.ofSource, hts] at h
  | ok ts =>
      simp only [SourceFile.ofSource, hts] at h
      have hfile := file_of_ofTokens (closed_ofSource hts) h
      obtain ⟨vs, ws, hsuffix, hdecl, -⟩ := hfile.decl_of_mem (body d) (List.mem_map_of_mem hd)
      exact ⟨ts, rfl, (List.prefix_append _ vs).isInfix.trans hsuffix.isInfix, hdecl⟩

theorem decl_of_ofSource {source : String} {file : SourceFile}
    (h : SourceFile.ofSource source = .ok file) {d : Declaration} (hd : d ∈ file.decls) :
    ∃ ts, Token.ofSource source = .ok ts ∧ d.tokens ⊆ ts ∧ Decl d.kind d.tokens := by
  obtain ⟨ts, hts, hpart, hdecl⟩ := infix_of_ofSource h hd
  exact ⟨ts, hts, hpart.subset, hdecl⟩

def Headed (d : Declaration) : Prop :=
  ∃ k us, d.tokens = k :: us ∧ header d.kind k us = .ok (d.names, d.receiver)

theorem Headed.func {d : Declaration} (h : Headed d) (hkind : d.kind = .func) :
    ∃ k us name, d.tokens = k :: us ∧ funcHeader k us = .ok (name, d.receiver) ∧
      d.names = [name] := by
  obtain ⟨k, us, htokens, hheader⟩ := h
  rw [hkind, header] at hheader
  cases hfunc : funcHeader k us with
  | error e => simp [hfunc, Except.map] at hheader
  | ok r =>
      simp only [hfunc, Except.map, Except.ok.injEq, Prod.mk.injEq] at hheader
      exact ⟨k, us, r.1, htokens, by rw [← hheader.2, hfunc], hheader.1.symm⟩

theorem Headed.spec {d : Declaration} (h : Headed d) (hkind : d.kind ≠ .func) :
    ∃ k us, d.tokens = k :: us ∧ specNames k us = .ok d.names := by
  obtain ⟨k, us, htokens, hheader⟩ := h
  refine ⟨k, us, htokens, ?_⟩
  have hspec : header d.kind k us = (specNames k us).map fun names => (names, none) := by
    cases hd : d.kind with
    | func => exact absurd hd hkind
    | _ => rfl
  rw [hspec] at hheader
  cases hnames : specNames k us with
  | error e => simp [hnames, Except.map] at hheader
  | ok names =>
      simp only [hnames, Except.map, Except.ok.injEq, Prod.mk.injEq] at hheader
      rw [hheader.1]

theorem headed_of_declaration {order : Nat} {t : Token} {rest after : List Token} {d : Declaration}
    (h : declaration order t rest = .ok (d, after)) : Headed d := by
  simp only [declaration] at h
  split at h
  · simp at h
  · simp at h
  · rename_i kind tokens after hk hd
    cases hh : header kind t tokens with
    | error e => simp [hh, Except.map] at h
    | ok r =>
        simp only [hh, Except.map, Except.ok.injEq, Prod.mk.injEq] at h
        rw [← h.1]
        exact ⟨t, tokens, rfl, hh⟩

theorem headed_of_declarations {order : Nat} {ts : List Token} {ds : List Declaration}
    (h : declarations order ts = .ok ds) : ∀ d ∈ ds, Headed d := by
  fun_induction declarations order ts generalizing ds with
  | case1 =>
      cases h
      simp
  | case2 =>
      cases h
      simp
  | case3 => simp at h
  | case4 => simp at h
  | case5 order t us hk d after hd more hm =>
      rename_i ih
      cases h
      exact List.forall_mem_cons.2 ⟨headed_of_declaration hd, ih hm⟩

theorem headed_of_ofSource {source : String} {file : SourceFile}
    (h : SourceFile.ofSource source = .ok file) : ∀ d ∈ file.decls, Headed d := by
  simp only [SourceFile.ofSource, ofTokens] at h
  split at h
  · simp at h
  · split at h
    · simp at h
    · split at h
      · simp at h
      · rename_i imports after _
        cases hd : declarations 0 after with
        | error e => simp [hd, Except.map] at h
        | ok decls =>
            simp only [hd, Except.map, Except.ok.injEq] at h
            rw [← h]
            exact headed_of_declarations hd

theorem ofTokens_iff_file {source : String} {ts : List Token} (h : Token.ofSource source = .ok ts)
    (package : String) (imports : List ImportSpec)
    (bodies : List (Declaration.Kind × List Token)) :
    (∃ file, ofTokens ts = .ok file ∧ file.package = package ∧ file.imports = imports ∧
      file.decls.map (fun d => (d.kind, d.tokens)) = bodies) ↔ File ts package imports bodies := by
  constructor
  · rintro ⟨file, hfile, rfl, rfl, rfl⟩
    exact file_of_ofTokens (closed_ofSource h) hfile
  · exact ofTokens_of_file (closed_ofSource h)

def methodSource : String :=
  "package p\nimport (\n\"fmt\"\nx \"a/b\";\n)\nfunc (r *T[K]) F[A any]() " ++ braced " a; b " ++
    "\ntype T int"

def outline (file : SourceFile) :
    String × List (String × Option String) × List (Declaration.Kind × Nat) :=
  (file.package, file.imports.map fun i => (i.path, i.name),
    file.decls.map fun d => (d.kind, d.tokens.length))

theorem ofTokens_iff_file_method : ∃ ts imports bodies,
    Token.ofSource methodSource = .ok ts ∧ File ts "p" imports bodies ∧
      imports.map (fun i => (i.path, i.name)) = [("fmt", none), ("a/b", some "x")] ∧
      bodies.map (fun b => (b.1, b.2.length)) = [(.func, 21), (.type, 3)] := by
  have houtline : (SourceFile.ofSource methodSource).toOption.map outline =
      some ("p", [("fmt", none), ("a/b", some "x")], [(.func, 21), (.type, 3)]) := by
    decide +kernel
  cases hts : Token.ofSource methodSource with
  | error e => simp [SourceFile.ofSource, hts, Except.toOption] at houtline
  | ok ts =>
      cases hfile : ofTokens ts with
      | error e => simp [SourceFile.ofSource, hts, hfile, Except.toOption] at houtline
      | ok file =>
          simp only [SourceFile.ofSource, hts, hfile, Except.toOption, Option.map_some, outline,
            Option.some.injEq, Prod.mk.injEq] at houtline
          obtain ⟨hpackage, himports, hdecls⟩ := houtline
          refine ⟨ts, file.imports, file.decls.map fun d => (d.kind, d.tokens), rfl, ?_, himports, ?_⟩
          · exact (ofTokens_iff_file hts _ _ _).1 ⟨file, hfile, hpackage, rfl, rfl⟩
          · rw [List.map_map]
            exact hdecls

end Gosmith.Go.Grammar
