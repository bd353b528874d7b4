import Gosmith.Proofs.Grammar.File

namespace Gosmith.Go

def Fault.found : Fault → Option Token
  | expectedPackage t => some t
  | expectedPackageName t => some t
  | expectedSemicolon t => some t
  | expectedSpecEnd t => some t
  | expectedImportPath t => some t
  | expectedDeclaration t => some t
  | expectedSpec _ t => t
  | expectedFunctionName t => t
  | _ => none

namespace Grammar

open SourceFile

structure PointsInto (ts : List Token) (d : Diagnostic) : Prop where
  place : ∃ t ∈ ts, d.pos = t.pos
  found : ∀ t ∈ d.fault.found, t ∈ ts

variable {ts us : List Token} {d : Diagnostic}

theorem PointsInto.mono (h : PointsInto us d) (hsub : us ⊆ ts) : PointsInto ts d := by
  obtain ⟨t, ht, hpos⟩ := h.place
  exact ⟨⟨t, hsub ht, hpos⟩, fun u hu => hsub (h.found u hu)⟩

theorem pointsInto_fail {α : Type} {fault : Fault} {t : Token}
    (h : (fail fault t : Except Diagnostic α) = .error d) (ht : t ∈ ts)
    (hfound : ∀ u ∈ fault.found, u ∈ ts) : PointsInto ts d := by
  cases h
  exact ⟨⟨t, ht, rfl⟩, hfound⟩

theorem pointsInto_found {α : Type} {fault : Fault} {t : Token}
    (h : (fail fault t : Except Diagnostic α) = .error d) (ht : t ∈ ts)
    (hfound : fault.found = some t) : PointsInto ts d := by
  refine pointsInto_fail h ht ?_
  rw [hfound]
  rintro u ⟨⟩
  exact ht

theorem peek_mem (h : Closed ts) : peek ts ∈ ts := by
  cases ts with
  | nil => exact h.elim
  | cons t ts => exact List.mem_cons_self

theorem error_of_map {α β : Type} {f : α → β} {x : Except Diagnostic α}
    (h : x.map f = .error d) : x = .error d := by
  cases x with
  | error e =>
      cases h
      rfl
  | ok a => simp [Except.map] at h

theorem terminator_error (hts : Closed ts) (h : terminator ts = .error d) : PointsInto ts d := by
  simp only [terminator] at h
  split at h
  · simp at h
  · split at h
    · simp at h
    · exact pointsInto_found h (peek_mem hts) rfl

theorem specName_closed (hts : Closed ts) : Closed (specName ts).2 ∧ (specName ts).2 ⊆ ts := by
  cases ts with
  | nil => exact hts.elim
  | cons t rest =>
      rw [specName]
      split
      · rename_i hname
        have hkind : t.kind ≠ .eof := by
          simp only [Bool.or_eq_true, beq_iff_eq] at hname
          rcases hname with hk | hop
          · simp [hk]
          · simp [(isOp_iff.1 hop).1]
        exact ⟨closed_tail hts hkind, List.subset_cons_self _ _⟩
      · exact ⟨hts, List.Subset.refl _⟩

theorem specPath_error {t : Token} (h : specPath t = .error d) (ht : t ∈ ts) :
    PointsInto ts d := by
  simp only [specPath] at h
  split at h
  · simp at h
  · exact pointsInto_fail h ht (by simp [Fault.found])

theorem importSpec_error (hts : Closed ts) (h : importSpec ts = .error d) : PointsInto ts d := by
  obtain ⟨hclosed, hsub⟩ := specName_closed hts
  have hmem := hsub (peek_mem hclosed)
  simp only [importSpec] at h
  split at h
  · split at h
    · simp at h
    · rename_i e hpath
      cases h
      exact specPath_error hpath hmem
  · exact pointsInto_found h hmem rfl

theorem closed_of_importSpec {rest : List Token} {spec : ImportSpec} (hts : Closed ts)
    (h : importSpec ts = .ok (spec, rest)) : Closed rest ∧ rest ⊆ ts := by
  obtain ⟨vs, rfl, hspec⟩ := importSpec_iff.1 h
  exact ⟨(closed_append hspec.kind_ne_eof).1 hts, List.subset_append_right _ _⟩

theorem importGroup_error (hts : Closed ts) (h : importGroup ts = .error d) : PointsInto ts d := by
  fun_induction importGroup ts with
  | case1 => simp at h
  | case2 ts hp e hs =>
      cases h
      exact importSpec_error hts hs
  | case3 => simp at h
  | case4 ts hp spec after hs t ht hk e he ih =>
      cases h
      obtain ⟨hafter, hsub⟩ := closed_of_importSpec hts hs
      cases after with
      | nil => exact hafter.elim
      | cons u vs =>
          have hu : u.kind ≠ .eof := by
            have hsemicolon : u.kind = .semicolon := hk
            simp [hsemicolon]
          exact (ih (closed_tail hafter hu) he).mono (List.Subset.trans (List.subset_cons_self _ _) hsub)
  | case5 => simp at h
  | case6 ts hp spec after hs t ht hk =>
      obtain ⟨hafter, hsub⟩ := closed_of_importSpec hts hs
      exact pointsInto_found h (hsub (peek_mem hafter)) rfl

theorem clause_error (hts : Closed ts) (h : clause ts = .error d) : PointsInto ts d := by
  unfold clause at h
  split at h
  · rename_i hp
    obtain ⟨l, us, rfl, hl⟩ := peek_of_isOp hp
    have hkind : l.kind ≠ .eof := by simp [(isOp_iff.1 hl).1]
    exact (importGroup_error (closed_tail hts hkind) h).mono (List.subset_cons_self _ _)
  · exact importSpec_error hts (error_of_map h)

theorem importDecl_error (hts : Closed ts) (h : importDecl ts = .error d) : PointsInto ts d := by
  rw [importDecl_eq] at h
  cases hclause : clause ts with
  | error e =>
      rw [hclause] at h
      cases h
      exact clause_error hts hclause
  | ok r =>
      obtain ⟨us, hsplit, hspecs⟩ := clause_iff.1 hclause
      rw [hclause] at h
      rw [hsplit] at hts ⊢
      have hclosed := (closed_append hspecs.kind_ne_eof).1 hts
      exact (terminator_error hclosed (error_of_map h)).mono (List.subset_append_right _ _)

theorem importDecls_error (hts : Closed ts) (h : importDecls ts = .error d) :
    PointsInto ts d := by
  fun_induction importDecls ts with
  | case1 => exact hts.elim
  | case2 t rest hk e he =>
      cases h
      have hkind : t.kind ≠ .eof := by simp [(kind_of_isKeyword hk).1]
      exact (importDecl_error (closed_tail hts hkind) he).mono (List.subset_cons_self _ _)
  | case3 t rest hk specs after hd e he ih =>
      cases h
      have hkind : t.kind ≠ .eof := by simp [(kind_of_isKeyword hk).1]
      have hclosed := closed_tail hts hkind
      obtain ⟨us, vs, rfl, hspecs, hend⟩ := (importDecl_iff hclosed).1 hd
      have hafter := hend.closed ((closed_append hspecs.kind_ne_eof).1 hclosed)
      refine (ih hafter he).mono fun u hu => ?_
      exact List.mem_cons_of_mem _ (List.mem_append_right _ (hend.suffix.subset hu))
  | case4 => simp at h
  | case5 => simp at h

theorem declTokens_cons_error {stack : List String} {t : Token}
    (h : declTokens stack (t :: ts) = .error d) :
    (∃ fault : Fault, fault.found = none ∧
      (fail fault t : Except Diagnostic (List Token × List Token)) = .error d) ∨
    ∃ below, declTokens below ts = .error d := by
  by_cases he : t.kind = .eof
  · cases stack with
    | nil => simp [declTokens, he] at h
    | cons o below =>
        simp only [declTokens, he, if_true] at h
        exact .inl ⟨_, rfl, h⟩
  · by_cases ho : t.isOpener = true
    · rw [declTokens_opener _ ho] at h
      exact .inr ⟨_, error_of_map h⟩
    · rw [Bool.not_eq_true] at ho
      by_cases hc : t.isCloser = true
      · have hk := Token.kind_of_isCloser hc
        cases stack with
        | nil =>
            simp only [declTokens, hk, ho, hc, reduceCtorEq, if_false, if_true, decide_false,
              Bool.false_and, Bool.false_eq_true] at h
            exact .inl ⟨_, rfl, h⟩
        | cons o below =>
            by_cases hm : Token.closerOf o = t.text
            · rw [declTokens_closer _ hc hm] at h
              exact .inr ⟨_, error_of_map h⟩
            · simp only [declTokens, hk, ho, hc, hm, reduceCtorEq, if_false, if_true, decide_false,
                Bool.false_and, Bool.false_eq_true] at h
              exact .inl ⟨_, rfl, h⟩
      · rw [Bool.not_eq_true] at hc
        by_cases hs : t.kind = .semicolon ∧ stack = []
        · obtain ⟨hk, rfl⟩ := hs
          simp [declTokens, hk] at h
        · rw [declTokens_plain _ ho hc he fun hk hstack => hs ⟨hk, hstack⟩] at h
          exact .inr ⟨_, error_of_map h⟩

theorem declTokens_error {stack : List String} (h : declTokens stack ts = .error d) :
    PointsInto ts d := by
  induction ts generalizing stack with
  | nil => simp [declTokens] at h
  | cons t ts ih =>
      rcases declTokens_cons_error h with ⟨fault, hfound, hfail⟩ | ⟨below, hrest⟩
      · exact pointsInto_fail hfail List.mem_cons_self (by simp [hfound])
      · exact (ih hrest).mono (List.subset_cons_self _ _)

theorem specNames_error {keyword : Token} (h : specNames keyword ts = .error d) :
    PointsInto (keyword :: ts) d := by
  cases ts with
  | nil => exact pointsInto_fail h List.mem_cons_self (by simp [Fault.found])
  | cons t rest =>
      have hmem : t ∈ keyword :: t :: rest := List.mem_cons_of_mem _ List.mem_cons_self
      rw [specNames] at h
      split at h
      · simp at h
      · split at h
        · exact pointsInto_found h hmem rfl
        · split at h
          · exact pointsInto_fail h hmem (by simp [Fault.found])
          · simp at h

theorem receiver_error (h : receiver ts = .error d) : PointsInto ts d := by
  simp only [receiver] at h
  split at h
  · rename_i hp
    obtain ⟨o, us, rfl, -⟩ := peek_of_isOp hp
    split at h
    · simp at h
    · exact pointsInto_fail h List.mem_cons_self (by simp [Fault.found])
  · simp at h

theorem receiver_subset {r : Option String} {rest : List Token} (h : receiver ts = .ok (r, rest)) :
    rest ⊆ ts := by
  simp only [receiver] at h
  split at h
  · split at h
    · cases h
      exact List.drop_subset _ _
    · simp [fail] at h
  · cases h
    exact List.Subset.refl _

theorem skipTypeParams_mem (name : Token) (ts : List Token) :
    (skipTypeParams name ts).1 ∈ name :: ts := by
  unfold skipTypeParams
  split
  · dsimp only
    rw [List.getD_eq_getElem?_getD]
    cases hclose : ts[partner ts]? with
    | none => exact List.mem_cons_self
    | some t => exact List.mem_cons_of_mem _ (List.mem_of_getElem? hclose)
  · exact List.mem_cons_self

theorem funcHeader_error {keyword : Token} (h : funcHeader keyword ts = .error d) :
    PointsInto (keyword :: ts) d := by
  simp only [funcHeader] at h
  split at h
  · rename_i e he
    cases h
    exact (receiver_error he).mono (List.subset_cons_self _ _)
  · rename_i r rest hr
    have hsub := receiver_subset hr
    split at h
    · exact pointsInto_fail h List.mem_cons_self (by simp [Fault.found])
    · rename_i name after
      split at h
      · refine pointsInto_fail h List.mem_cons_self ?_
        rintro u ⟨⟩
        exact List.mem_cons_of_mem _ (hsub List.mem_cons_self)
      · split at h
        · simp at h
        · refine pointsInto_fail h ?_ (by simp [Fault.found])
          exact List.mem_cons_of_mem _ (hsub (skipTypeParams_mem name after))

theorem header_error {kind : Declaration.Kind} {keyword : Token}
    (h : header kind keyword ts = .error d) : PointsInto (keyword :: ts) d := by
  cases kind with
  | func => exact funcHeader_error (error_of_map h)
  | _ => exact specNames_error (error_of_map h)

theorem startKind_error {t : Token} (h : startKind t = .error d) (ht : t ∈ ts) :
    PointsInto ts d := by
  simp only [startKind] at h
  split at h
  · exact pointsInto_fail h ht (by simp [Fault.found])
  · split at h
    · simp at h
    · exact pointsInto_found h ht rfl

theorem declaration_error {order : Nat} {t : Token} (hts : Closed ts)
    (h : declaration order t ts = .error d) : PointsInto (t :: ts) d := by
  simp only [declaration] at h
  split at h
  · rename_i e he
    cases h
    exact startKind_error he List.mem_cons_self
  · rename_i e he
    cases h
    exact (declTokens_error he).mono (List.subset_cons_self _ _)
  · rename_i kind tokens after hk hd
    obtain ⟨us, rfl, -, -⟩ := (declTokens_iff hts).1 hd
    refine (header_error (error_of_map h)).mono ?_
    exact List.cons_subset_cons _ (List.subset_append_left _ _)

theorem declarations_error {order : Nat} (hts : Closed ts)
    (h : declarations order ts = .error d) : PointsInto ts d := by
  fun_induction declarations order ts with
  | case1 => exact hts.elim
  | case2 => simp at h
  | case3 order t us hk e he =>
      cases h
      exact declaration_error (closed_tail hts hk) he
  | case4 order t us hk decl after hd e he ih =>
      cases h
      have hclosed := closed_tail hts hk
      obtain ⟨vs, heq, hdecl, hend⟩ := (declaration_iff order hclosed).1 ⟨decl, hd, rfl, rfl⟩
      rw [heq] at hts ⊢
      have hafter := hend.closed ((closed_append hdecl.kind_ne_eof).1 hts)
      refine (ih hafter he).mono fun u hu => ?_
      exact List.mem_append_right _ (hend.suffix.subset hu)
  | case5 => simp at h

theorem packageClause_error (hts : Closed ts) (h : packageClause ts = .error d) :
    PointsInto ts d := by
  simp only [packageClause] at h
  split at h
  · exact pointsInto_found h (peek_mem hts) rfl
  · rename_i hpackage
    cases ts with
    | nil => exact hts.elim
    | cons k us =>
        have hk : k.isKeyword "package" = true := by simpa [peek] using hpackage
        have hus := closed_tail hts (by simp [(kind_of_isKeyword hk).1])
        have hname := peek_mem hus
        split at h
        · exact pointsInto_found h (List.mem_cons_of_mem _ hname) rfl
        · rename_i hident
          cases us with
          | nil => exact hus.elim
          | cons n vs =>
              have hn : n.kind = .ident := by simpa [peek] using hident
              have hvs := closed_tail hus (by simp [hn])
              refine (terminator_error hvs (error_of_map h)).mono fun u hu => ?_
              exact List.mem_cons_of_mem _ (List.mem_cons_of_mem _ hu)

theorem ofTokens_error (hts : Closed ts) (h : ofTokens ts = .error d) : PointsInto ts d := by
  simp only [ofTokens] at h
  split at h
  · rename_i e he
    cases h
    exact packageClause_error hts he
  · rename_i package rest hp
    obtain ⟨k, n, us, rfl, hk, hn, -, hend⟩ := (packageClause_iff hts).1 hp
    have hus := closed_tail (closed_tail hts (by simp [(kind_of_isKeyword hk).1])) (by simp [hn])
    have hrest := hend.closed hus
    have hsub : rest ⊆ k :: n :: us := fun u hu =>
      List.mem_cons_of_mem _ (List.mem_cons_of_mem _ (hend.suffix.subset hu))
    split at h
    · rename_i e he
      cases h
      exact (importDecls_error hrest he).mono hsub
    · rename_i imports after hi
      obtain ⟨himports, hafter⟩ := imports_of_importDecls hrest hi
      refine (declarations_error hafter (error_of_map h)).mono fun u hu => ?_
      exact hsub (himports.suffix.subset hu)

end Grammar

end Gosmith.Go
