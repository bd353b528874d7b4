import Gosmith.Proofs.Grammar.Likeness
import Gosmith.Proofs.Grammar.Partner

namespace Gosmith.Go.Grammar

open SourceFile
open Gosmith.Text (braced)

inductive Pieces : List Token → List (List Token) → Prop
  | last {p : List Token} (hp : Nested false p) : Pieces p [p]
  | cons {p rest : List Token} {s : Token} {ps : List (List Token)} (hp : Nested false p)
      (hs : s.kind = .semicolon) (h : Pieces rest ps) : Pieces (p ++ s :: rest) (p :: ps)

theorem Pieces.extend {ts : List Token} {ps : List (List Token)} (h : Pieces ts ps)
    (us : List Token) (hus : ∀ p, Nested false p → Nested false (us ++ p)) :
    ∃ qs, Pieces (us ++ ts) qs := by
  cases h with
  | last hp => exact ⟨_, .last (hus _ hp)⟩
  | cons hp hs h =>
      rw [← List.append_assoc]
      exact ⟨_, .cons (hus _ hp) hs h⟩

theorem exists_pieces {free : Bool} {ts : List Token} (h : Nested free ts) :
    ∃ ps, Pieces ts ps := by
  induction h with
  | nil => exact ⟨_, .last .nil⟩
  | @plain free t ts ho hc he hs h ih =>
      obtain ⟨ps, hps⟩ := ih
      by_cases hk : t.kind = .semicolon
      · exact ⟨[] :: ps, .cons .nil hk hps⟩
      · exact hps.extend [t] fun p => .plain ho hc he (absurd · hk)
  | @group free o c inner rest ho hc hm hi hr ihi ihr =>
      obtain ⟨ps, hps⟩ := ihr
      have hgroup : ∀ p, Nested false p → Nested false ((o :: (inner ++ [c])) ++ p) := by
        intro p hp
        simpa using Nested.group ho hc hm hi hp
      simpa using hps.extend _ hgroup

theorem Nested.not_semicolon {free : Bool} {p : List Token} (hp : Nested free p) {s : Token}
    (hs : s.kind = .semicolon) (rest : List Token) : ¬ Nested false (p ++ s :: rest) := by
  induction hp with
  | nil => exact fun h => h.head_ne_semicolon hs
  | plain ho hc he hk hp ih => exact fun h => ih (h.of_plain ho)
  | @group free o c inner tail ho hc hm hi ht ihi iht =>
      intro h
      obtain ⟨inner', c', tail', heq, hc', -, hi', ht'⟩ := Nested.of_group ho h
      have hsplit : inner ++ c :: (tail ++ s :: rest) = inner' ++ c' :: tail' := by
        rw [← heq]
        simp
      obtain ⟨-, -, rfl⟩ := Nested.inner_unique hsplit hi hi' hc hc'
      exact iht ht'

theorem Nested.piece_unique {p p' rest rest' : List Token} {s s' : Token}
    (heq : p ++ s :: rest = p' ++ s' :: rest') (hp : Nested false p) (hp' : Nested false p')
    (hs : s.kind = .semicolon) (hs' : s'.kind = .semicolon) : p = p' ∧ rest = rest' := by
  rcases List.append_eq_append_iff.1 heq with ⟨us, rfl, hrest⟩ | ⟨us, rfl, hrest⟩
  · cases us with
    | nil => exact ⟨by simp, (List.cons.inj hrest).2⟩
    | cons u us =>
        obtain ⟨rfl, -⟩ := List.cons.inj hrest
        exact absurd hp' (hp.not_semicolon hs us)
  · cases us with
    | nil => exact ⟨by simp, (List.cons.inj hrest).2.symm⟩
    | cons u us =>
        obtain ⟨rfl, -⟩ := List.cons.inj hrest
        exact absurd hp (hp'.not_semicolon hs' us)

theorem Pieces.unique {ts : List Token} {ps qs : List (List Token)} (hp : Pieces ts ps)
    (hq : Pieces ts qs) : ps = qs := by
  generalize hts : ts = us at hq
  induction hp generalizing us qs with
  | last hp =>
      cases hq with
      | last hq => rw [hts]
      | cons hq hs h => exact absurd (hts ▸ hp) (hq.not_semicolon hs _)
  | cons hp hs h ih =>
      cases hq with
      | last hq => exact absurd (hts ▸ hq) (hp.not_semicolon hs _)
      | cons hq hs' h' =>
          obtain ⟨rfl, rfl⟩ := Nested.piece_unique hts hp hq hs hs'
          rw [ih _ rfl h']

def leadName : List Token → Option String
  | [] => none
  | t :: _ => if t.kind = .ident then some t.text else none

theorem groupNames_nested {free : Bool} {us : List Token} (h : Nested free us) {depth : Nat}
    (hdepth : 1 ≤ depth) (hfree : free = true → 2 ≤ depth) (ts : List Token) :
    groupNames depth false (us ++ ts) = groupNames depth false ts := by
  induction h generalizing depth ts with
  | nil => rfl
  | @plain free t us ho hc he hs h ih =>
      -- A semicolon at depth one would end the piece, so none stands there.
      have hsemicolon : (depth == 1 && t.kind == .semicolon) = false := by
        by_cases hk : t.kind = .semicolon
        · have := hfree (hs hk)
          simp only [Bool.and_eq_false_iff, beq_eq_false_iff_ne]
          omega
        · simp [hk]
      simp [groupNames, ho, hc, hsemicolon, ih hdepth hfree]
  | @group free o c inner rest ho hc hm hi hr ihi ihr =>
      have hopener := Token.isOpener_of_isCloser hc
      have hinside : (depth == 0) = false := by simpa using Nat.ne_of_gt hdepth
      rw [List.cons_append, List.append_assoc, List.cons_append, groupNames, if_pos ho, hinside,
        ihi (by omega) (by omega), groupNames, hopener, if_neg (by simp), if_pos hc,
        Nat.add_sub_cancel, ihr hdepth hfree]

theorem groupNames_piece {p : List Token} (h : Nested false p) (ts : List Token) :
    ∃ atStart, groupNames 1 true (p ++ ts) = (leadName p).toList ++ groupNames 1 atStart ts := by
  cases h with
  | nil => exact ⟨true, rfl⟩
  | @plain _ t us ho hc he hs h =>
      have hk : t.kind ≠ .semicolon := fun hk => Bool.false_ne_true (hs hk)
      refine ⟨false, ?_⟩
      by_cases hident : t.kind = .ident
      · simp [groupNames, leadName, ho, hc, hident, groupNames_nested h]
      · simp [groupNames, leadName, ho, hc, hk, hident, groupNames_nested h]
  | @group _ o c inner rest ho hc hm hi hr =>
      -- An opening bracket forgets whether it stands at the start.
      have hforget : groupNames 1 true ((o :: (inner ++ c :: rest)) ++ ts) =
          groupNames 1 false ((o :: (inner ++ c :: rest)) ++ ts) := by
        simp [groupNames, ho]
      have hlead : leadName (o :: (inner ++ c :: rest)) = none := by
        simp [leadName, Token.kind_of_isOpener ho]
      refine ⟨false, ?_⟩
      rw [hforget, hlead, groupNames_nested (.group ho hc hm hi hr) (by simp) (by simp)]
      rfl

theorem groupNames_pieces {ts : List Token} {ps : List (List Token)} (h : Pieces ts ps) {c : Token}
    (hc : c.isCloser = true) : groupNames 1 true (ts ++ [c]) = ps.filterMap leadName := by
  have hopener := Token.isOpener_of_isCloser hc
  induction h with
  | @last p hp =>
      obtain ⟨atStart, hpiece⟩ := groupNames_piece hp [c]
      rw [hpiece]
      cases hname : leadName p <;> simp [groupNames, hopener, hc, hname]
  | @cons p rest s ps hp hs h ih =>
      obtain ⟨atStart, hpiece⟩ := groupNames_piece hp (s :: (rest ++ [c]))
      have hnext : groupNames 1 atStart (s :: (rest ++ [c])) = groupNames 1 true (rest ++ [c]) := by
        simp [groupNames, Token.isOpener, Token.isCloser, hs]
      rw [List.append_assoc, List.cons_append, hpiece, hnext, ih]
      cases hname : leadName p <;> simp [hname]

theorem specNames_opener {keyword o : Token} {us : List Token} {names : List String}
    (ho : o.isOpener = true) (h : specNames keyword (o :: us) = .ok names) :
    names = groupNames 1 true us := by
  by_cases hparen : o.isOp "(" = true
  · simpa [specNames, hparen, groupNames, ho] using h.symm
  · simp [specNames, hparen, Token.kind_of_isOpener ho, fail] at h

theorem Headed.group {d : Declaration} (h : Headed d) (hkind : d.kind ≠ .func) {j : Nat}
    (hp : Partners d.tokens 1 j) (hlast : j + 1 = d.tokens.length) {pieces : List (List Token)}
    (hpieces : Pieces (between d.tokens 1 j) pieces) : d.names = pieces.filterMap leadName := by
  obtain ⟨before, o, c, behind, hsplit, hbefore, hj, ho, hc⟩ := hp.split
  obtain ⟨k, us, htokens, hnames⟩ := h.spec hkind
  obtain ⟨k', rfl⟩ := List.length_eq_one_iff.1 hbefore
  have hend : behind = [] := by
    have hlength := congrArg List.length hsplit
    simp only [List.length_append, List.length_cons, List.length_nil] at hlength
    exact List.length_eq_zero_iff.1 (by omega)
  obtain ⟨-, rfl⟩ := List.cons.inj (htokens.symm.trans hsplit)
  rw [specNames_opener ho hnames, hend]
  exact groupNames_pieces hpieces hc

theorem names_lead_pieces {source : String} {file : SourceFile}
    (hfile : SourceFile.ofSource source = .ok file) {d : Declaration} (hd : d ∈ file.decls)
    (hkind : d.kind ≠ .func) {j : Nat} (hp : Partners d.tokens 1 j)
    (hlast : j + 1 = d.tokens.length) :
    ∃ pieces, Pieces (between d.tokens 1 j) pieces ∧
      (∀ pieces', Pieces (between d.tokens 1 j) pieces' → pieces' = pieces) ∧
      d.names = pieces.filterMap leadName := by
  obtain ⟨pieces, hpieces⟩ := exists_pieces hp.nested
  exact ⟨pieces, hpieces, fun _ h => h.unique hpieces,
    (headed_of_ofSource hfile d hd).group hkind hp hlast hpieces⟩

def groupSource : String :=
  "package p\ntype (\nA struct " ++ braced " x int; y int " ++
    "\n; B = func(a, b int) (c int)\n[]C\n(D); E int)"

theorem names_lead_pieces_mixed : ∃ file, SourceFile.ofSource groupSource = .ok file ∧
    ∃ d ∈ file.decls, d.kind ≠ .func ∧ Partners d.tokens 1 37 ∧ 37 + 1 = d.tokens.length ∧
      d.names = ["A", "B", "E"] ∧ ∃ pieces, Pieces (between d.tokens 1 37) pieces ∧
        pieces.filterMap leadName = ["A", "B", "E"] := by
  have hview : (SourceFile.ofSource groupSource).toOption.map (fun file =>
      file.decls.map fun d => (d.names, d.tokens[1]?.map Token.isOpener, d.kind == .type &&
        partner (d.tokens.drop 1) == 36 && d.tokens.length == 38)) =
      some [(["A", "B", "E"], some true, true)] := by
    decide +kernel
  obtain ⟨file, hfile, hdecls⟩ := exists_ok_of_view hview
  obtain ⟨d, hd, hseen⟩ := List.map_eq_singleton_iff.1 hdecls
  simp only [Prod.mk.injEq, Bool.and_eq_true, beq_iff_eq] at hseen
  obtain ⟨hnames, hopener, ⟨htype, hpartner⟩, hlength⟩ := hseen
  have hmem : d ∈ file.decls := by simp [hd]
  have hkind : d.kind ≠ .func := by simp [htype]
  obtain ⟨o, ho, hopen⟩ := Option.map_eq_some_iff.1 hopener
  obtain ⟨ts, hts, -⟩ := infix_of_ofSource hfile hmem
  obtain ⟨k, body, htokens, hchecked⟩ := checked_of_ofSource hts hfile hmem
  have hnested : Nested false d.tokens := htokens ▸ hchecked.nested (closed_ofSource hts)
  have hparens : Partners d.tokens 1 37 := ((hnested.partners_iff ho hopen).2 37).2 (by rw [hpartner])
  obtain ⟨pieces, hpieces, -, hlead⟩ := names_lead_pieces hfile hmem hkind hparens hlength.symm
  exact ⟨file, hfile, d, hmem, hkind, hparens, hlength.symm, hnames, pieces, hpieces,
    hlead.symm.trans hnames⟩

end Gosmith.Go.Grammar
