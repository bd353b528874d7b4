import Gosmith.Proofs.Grammar.File
import Gosmith.Proofs.Lexeme.LineEnd

namespace Gosmith.Go.Grammar

open SourceFile
open Gosmith.Text (braceOpen braceClose braced)

def between (ts : List Token) (i j : Nat) : List Token :=
  (ts.take j).drop (i + 1)

def Partners (ts : List Token) (i j : Nat) : Prop :=
  i < j ∧ ∃ o c, ts[i]? = some o ∧ ts[j]? = some c ∧ o.isOpener = true ∧ c.isCloser = true ∧
    Token.closerOf o.text = c.text ∧ Nested true (between ts i j)

theorem Partners.nested {ts : List Token} {i j : Nat} (h : Partners ts i j) :
    Nested true (between ts i j) := by
  obtain ⟨-, -, -, -, -, -, -, -, hn⟩ := h
  exact hn

theorem split_at {ts : List Token} {i : Nat} {t : Token} (h : ts[i]? = some t) :
    ts = ts.take i ++ t :: ts.drop (i + 1) ∧ (ts.take i).length = i := by
  obtain ⟨hlt, hget⟩ := List.getElem?_eq_some_iff.1 h
  refine ⟨?_, List.length_take_of_le (Nat.le_of_lt hlt)⟩
  rw [← hget, ← List.drop_eq_getElem_cons hlt, List.take_append_drop]

theorem Partners.split {ts : List Token} {i j : Nat} (h : Partners ts i j) :
    ∃ before o c behind, ts = before ++ o :: (between ts i j ++ c :: behind) ∧
      before.length = i ∧ i + ((between ts i j).length + 1) = j ∧ o.isOpener = true ∧
      c.isCloser = true := by
  obtain ⟨hlt, o, c, hopener, hcloser, ho, hc, -, -⟩ := h
  obtain ⟨hts, hlength⟩ := split_at hcloser
  have hinside : (ts.take j)[i]? = some o := by rw [List.getElem?_take_of_lt hlt, hopener]
  obtain ⟨htake, hbefore⟩ := split_at hinside
  refine ⟨(ts.take j).take i, o, c, ts.drop (j + 1), ?_, hbefore, ?_, ho, hc⟩
  · rw [← List.cons_append, ← List.append_assoc, between, ← htake]
    exact hts
  · rw [between, List.length_drop, hlength]
    omega

theorem partners_of_split (before behind : List Token) {inner : List Token} {o c : Token}
    (ho : o.isOpener = true) (hc : c.isCloser = true) (hm : Token.closerOf o.text = c.text)
    (hi : Nested true inner) :
    Partners (before ++ o :: (inner ++ c :: behind)) before.length
      (before.length + (inner.length + 1)) := by
  have hbetween : between (before ++ o :: (inner ++ c :: behind)) before.length
      (before.length + (inner.length + 1)) = inner := by
    simp [between, List.take_append, List.drop_append]
  refine ⟨by omega, o, c, by simp, by simp, ho, hc, hm, ?_⟩
  rw [hbetween]
  exact hi

theorem Nested.group_at {free : Bool} {ts before behind : List Token} {o : Token}
    (h : Nested free ts) (heq : ts = before ++ o :: behind) (ho : o.isOpener = true) :
    ∃ inner c rest, behind = inner ++ c :: rest ∧ c.isCloser = true ∧
      Token.closerOf o.text = c.text ∧ Nested true inner := by
  induction h generalizing before behind with
  | nil => simp at heq
  | @plain free t ts hno hc he hs h ih =>
      cases before with
      | nil =>
          obtain ⟨rfl, -⟩ := List.cons.inj heq
          simp [ho] at hno
      | cons b before => exact ih (List.cons.inj heq).2
  | @group free o' c' inner' rest' ho' hc' hm hi hr ihi ihr =>
      cases before with
      | nil =>
          obtain ⟨rfl, rfl⟩ := List.cons.inj heq
          exact ⟨inner', c', rest', rfl, hc', hm, hi⟩
      | cons b before =>
          -- The bracket stands inside the first group, is its closer, or comes after it.
          rcases List.append_eq_append_iff.1 (List.cons.inj heq).2 with
            ⟨us, hbefore, hrest⟩ | ⟨us, hinner, hbehind⟩
          · cases us with
            | nil =>
                obtain ⟨rfl, -⟩ := List.cons.inj hrest
                simp [Token.isOpener_of_isCloser hc'] at ho
            | cons u us => exact ihr (List.cons.inj hrest).2
          · cases us with
            | nil =>
                obtain ⟨rfl, -⟩ := List.cons.inj hbehind
                simp [Token.isOpener_of_isCloser hc'] at ho
            | cons u us =>
                obtain ⟨rfl, rfl⟩ := List.cons.inj hbehind
                obtain ⟨inner, c, rest, rfl, hc, hmatch, hnested⟩ := ihi hinner
                exact ⟨inner, c, rest ++ c' :: rest', by simp, hc, hmatch, hnested⟩

theorem Nested.inner_unique {inner inner' rest rest' : List Token} {c c' : Token}
    (heq : inner ++ c :: rest = inner' ++ c' :: rest') (hi : Nested true inner)
    (hi' : Nested true inner') (hc : c.isCloser = true) (hc' : c'.isCloser = true) :
    inner = inner' ∧ c = c' ∧ rest = rest' := by
  have hlength := closerIndex?_inner hi hc rest
  rw [heq, closerIndex?_inner hi' hc' rest', Option.some.injEq] at hlength
  obtain ⟨hinner, htail⟩ := List.append_inj heq hlength.symm
  exact ⟨hinner, List.cons.inj htail⟩

theorem Nested.partners_iff {free : Bool} {ts : List Token} {i : Nat} {o : Token}
    (h : Nested free ts) (hi : ts[i]? = some o) (ho : o.isOpener = true) :
    (closerIndex? 0 (ts.drop i)).isSome ∧
      ∀ j, Partners ts i j ↔ j = i + partner (ts.drop i) := by
  obtain ⟨hsplit, hlength⟩ := split_at hi
  obtain ⟨inner, c, rest, hbehind, hc, hm, hinner⟩ := h.group_at hsplit ho
  rw [hbehind] at hsplit
  have hdrop : ts.drop i = o :: (inner ++ c :: rest) := by
    rw [hsplit, List.drop_left' hlength]
  rw [hdrop, partner_group ho hc hinner]
  constructor
  · simp [closerIndex?, ho, closerIndex?_inner hinner hc rest]
  · intro j
    constructor
    · intro hp
      obtain ⟨before, o', c', behind, heq, hbefore, hj, -, hc'⟩ := hp.split
      obtain ⟨-, htail⟩ := List.append_inj (heq.symm.trans hsplit) (hbefore.trans hlength.symm)
      obtain ⟨hsame, -⟩ := Nested.inner_unique (List.cons.inj htail).2 hp.nested hinner hc' hc
      rw [← hj, hsame]
    · intro hj
      have hp := partners_of_split (ts.take i) rest ho hc hm hinner
      rwa [← hsplit, hlength, ← hj] at hp

def Checked (ts : List Token) (k : Token) (body : List Token) : Prop :=
  ∃ kind rest after, k :: rest <:+ ts ∧ startKind k = .ok kind ∧
    declTokens [] rest = .ok (body, after)

theorem closed_suffix {us ts : List Token} (h : us <:+ ts) (hne : us ≠ []) (hts : Closed ts) :
    Closed us := by
  obtain ⟨before, rfl⟩ := h
  induction before with
  | nil => exact hts
  | cons b before ih =>
      refine ih (closed_tail hts fun hb => ?_)
      have hnil : before ++ us = [] := by simpa [Closed, hb] using hts
      exact hne (List.append_eq_nil_iff.1 hnil).2

theorem nested_of_keyword {k : Token} {kind : Declaration.Kind} {free : Bool} {body : List Token}
    (hk : k.isKeyword kind.text = true) (hn : Nested free body) : Nested free (k :: body) := by
  have hkind := (kind_of_isKeyword hk).1
  exact .plain (by simp [Token.isOpener, hkind]) (by simp [Token.isCloser, hkind])
    (by simp [hkind]) (by simp [hkind]) hn

theorem Checked.nested {ts body : List Token} {k : Token} (h : Checked ts k body)
    (hts : Closed ts) : Nested false (k :: body) := by
  obtain ⟨kind, rest, after, hsuffix, hkind, hbody⟩ := h
  have hk := startKind_iff.1 hkind
  have hclosed : Closed rest :=
    closed_tail (closed_suffix hsuffix (by simp) hts) (by simp [(kind_of_isKeyword hk).1])
  obtain ⟨-, -, hn, -⟩ := (declTokens_iff hclosed).1 hbody
  exact nested_of_keyword hk hn

theorem checked_of_ofSource {source : String} {ts : List Token} {file : SourceFile}
    (hts : Token.ofSource source = .ok ts) (h : SourceFile.ofSource source = .ok file)
    {d : Declaration} (hd : d ∈ file.decls) : ∃ k body, d.tokens = k :: body ∧ Checked ts k body := by
  simp only [SourceFile.ofSource, hts] at h
  have hfile := file_of_ofTokens (closed_ofSource hts) h
  obtain ⟨vs, ws, hsuffix, hdecl, ht⟩ := hfile.decl_of_mem (body d) (List.mem_map_of_mem hd)
  obtain ⟨k, us, htokens, hk, hn, -⟩ := hdecl.exists_cons
  rw [htokens, List.cons_append] at hsuffix
  have hbody : declTokens [] (us ++ vs) = .ok (us, ws) := by
    rw [declTokens_nested hn (by simp), declTokens_terminator ht]
    simp [Except.map, after]
  exact ⟨k, us, htokens, d.kind, us ++ vs, ws, hsuffix, startKind_iff.2 hk, hbody⟩

/-- What the parentheses of a receiver hold: possibly a name, stars, the name of the base type and
possibly its type arguments. -/
def Receives (base : Token) (ts : List Token) : Prop :=
  ∃ (name : Option Token) (stars args : List Token),
    ts = name.toList ++ (stars ++ base :: args) ∧ (∀ t ∈ name, t.kind = .ident) ∧
      (∀ t ∈ stars, t.isOp "*" = true) ∧ base.kind = .ident ∧ TypeParams args

theorem receiverType_ident {t : Token} (h : t.kind = .ident) (found : Option String)
    (ts : List Token) : receiverType 0 found (t :: ts) = receiverType 0 (some t.text) ts := by
  simp [receiverType, isOp_of_ident h, h]

theorem receiverType_stars {stars : List Token} (h : ∀ t ∈ stars, t.isOp "*" = true)
    (found : Option String) (ts : List Token) :
    receiverType 0 found (stars ++ ts) = receiverType 0 found ts := by
  induction stars with
  | nil => rfl
  | cons t stars ih =>
      obtain ⟨hkind, htext⟩ := isOp_iff.1 (h t List.mem_cons_self)
      simp [receiverType, Token.isOp, hkind, htext, ih fun u hu => h u (List.mem_cons_of_mem _ hu)]

theorem receiverType_inner {free : Bool} {inner : List Token} (h : Nested free inner) (depth : Nat)
    (found : Option String) (ts : List Token) :
    receiverType (depth + 1) found (inner ++ ts) = receiverType (depth + 1) found ts := by
  induction h generalizing depth ts with
  | nil => rfl
  | plain ho hc he hs h ih =>
      obtain ⟨hopen, hclose⟩ := isOp_square_of_plain ho hc
      simp [receiverType, hopen, hclose, ih]
  | @group free o c inner rest ho hc hm hi hr ihi ihr =>
      obtain ⟨ho', hc', hsquare⟩ := isOp_square_of_group ho hc hm
      have hko : (o.kind == .ident) = false := by simp [Token.kind_of_isOpener ho]
      have hkc : (c.kind == .ident) = false := by simp [Token.kind_of_isCloser hc]
      rw [List.cons_append, List.append_assoc, List.cons_append]
      -- Only a group in square brackets moves the count, and it moves it back.
      cases hopen : o.isOp "[" with
      | true => simp [receiverType, hopen, ihi, hc', hsquare, ihr]
      | false => simp [receiverType, hopen, ho', hko, ihi, hc', hsquare, hkc, ihr]

theorem receiverType_args {args : List Token} (h : TypeParams args) (found : Option String) :
    receiverType 0 found args = found := by
  cases h with
  | none => rfl
  | @some l r inner hl hr hi =>
      have hopen : r.isOp "[" = false := isOp_of_text_ne (by rw [(isOp_iff.1 hr).2]; decide)
      rw [receiverType, if_pos hl, receiverType_inner hi]
      simp [receiverType, hopen, hr]

theorem Receives.receiverType {base : Token} {ts : List Token} (h : Receives base ts) :
    SourceFile.receiverType 0 none ts = some base.text := by
  obtain ⟨name, stars, args, rfl, hname, hstars, hbase, hargs⟩ := h
  have hrest : ∀ found, SourceFile.receiverType 0 found (stars ++ base :: args) = some base.text := by
    intro found
    rw [receiverType_stars hstars, receiverType_ident hbase, receiverType_args hargs]
  cases name with
  | none => exact hrest none
  | some n =>
      rw [Option.toList_some, List.singleton_append, receiverType_ident (hname n rfl)]
      exact hrest _

theorem isOp_of_funcHeader {keyword o : Token} {us : List Token} {r : String × Option String}
    (ho : o.isOpener = true) (h : funcHeader keyword (o :: us) = .ok r) : o.isOp "(" = true := by
  by_contra hno
  simp [funcHeader, receiver, peek, hno, Token.kind_of_isOpener ho, fail] at h

theorem funcHeader_method {keyword o c : Token} {inner rest : List Token} {base name : String}
    {found : Option String} (ho : o.isOp "(" = true) (hc : c.isCloser = true)
    (hi : Nested true inner) (hbase : receiverType 0 none inner = some base)
    (h : funcHeader keyword (o :: (inner ++ c :: rest)) = .ok (name, found)) :
    found = some base ∧ ∃ n after, rest = n :: after ∧ name = n.text := by
  have hreceiver : receiver (o :: (inner ++ c :: rest)) = .ok (some base, rest) := by
    rw [receiver_group ho hc hi, hbase]
  simp only [funcHeader, hreceiver] at h
  cases rest with
  | nil => simp [fail] at h
  | cons n after =>
      simp only at h
      split at h
      · simp [fail] at h
      · split at h
        · simp only [Except.ok.injEq, Prod.mk.injEq] at h
          exact ⟨h.2.symm, n, after, rfl, h.1.symm⟩
        · simp [fail] at h

theorem Headed.method {d : Declaration} (h : Headed d) (hkind : d.kind = .func) {j : Nat}
    {base : Token} (hp : Partners d.tokens 1 j) (hr : Receives base (between d.tokens 1 j)) :
    d.receiver = some base.text ∧ ∃ name, d.tokens[j + 1]? = some name ∧ d.names = [name.text] := by
  obtain ⟨before, o, c, rest, hsplit, hbefore, hj, ho, hc⟩ := hp.split
  obtain ⟨k, us, name, htokens, hfunc, hnames⟩ := h.func hkind
  obtain ⟨k', rfl⟩ := List.length_eq_one_iff.1 hbefore
  obtain ⟨-, rfl⟩ := List.cons.inj (htokens.symm.trans hsplit)
  obtain ⟨hreceiver, n, after, hrest, rfl⟩ :=
    funcHeader_method (isOp_of_funcHeader ho hfunc) hc hp.nested hr.receiverType hfunc
  refine ⟨hreceiver, n, ?_, hnames⟩
  have hindex : j + 1 = (k' :: o :: (between d.tokens 1 j ++ [c])).length := by
    simp only [List.length_cons, List.length_append, List.length_nil]
    omega
  rw [hsplit, hrest, hindex]
  simp

theorem partner_closes_and_receiver_read {source : String} {ts : List Token}
    (hts : Token.ofSource source = .ok ts) :
    (∀ k body, Checked ts k body → ∀ i o, (k :: body)[i]? = some o → o.isOpener = true →
      (closerIndex? 0 ((k :: body).drop i)).isSome ∧
        ∀ j, Partners (k :: body) i j ↔ j = i + partner ((k :: body).drop i)) ∧
    ∀ file, SourceFile.ofSource source = .ok file → ∀ d ∈ file.decls, d.kind = .func →
      ∀ j base, Partners d.tokens 1 j → Receives base (between d.tokens 1 j) →
        d.receiver = some base.text ∧
          ∃ name, d.tokens[j + 1]? = some name ∧ d.names = [name.text] := by
  constructor
  · intro k body hchecked i o hi ho
    exact (hchecked.nested (closed_ofSource hts)).partners_iff hi ho
  · intro file hfile d hd hkind j base hp hr
    exact (headed_of_ofSource hfile d hd).method hkind hp hr

def inline : Nat → List (Token.Kind × String) → List Token
  | _, [] => []
  | column, (kind, text) :: rest =>
      { kind, text, pos := ⟨2, column⟩ } :: inline (column + text.length) rest

def genericSource : String :=
  "package p\nfunc(r**T[func(a[2]K)any])F()" ++ braced ""

def genericMethod : Declaration where
  kind := .func
  tokens := { kind := .keyword, text := "func", pos := ⟨2, 1⟩, newlinesBefore := 1 } ::
    inline 5 [(.op, "("), (.ident, "r"), (.op, "*"), (.op, "*"), (.ident, "T"), (.op, "["),
      (.keyword, "func"), (.op, "("), (.ident, "a"), (.op, "["), (.int, "2"), (.op, "]"),
      (.ident, "K"), (.op, ")"), (.ident, "any"), (.op, "]"), (.op, ")"), (.ident, "F"), (.op, "("),
      (.op, ")"), (.op, braceOpen), (.op, braceClose)]
  names := ["F"]
  receiver := some "T"
  line := 2

theorem partner_closes_and_receiver_read_generic : ∃ ts file base,
    Token.ofSource genericSource = .ok ts ∧ SourceFile.ofSource genericSource = .ok file ∧
      genericMethod ∈ file.decls ∧
      (∃ k body, genericMethod.tokens = k :: body ∧ Checked ts k body) ∧
      (closerIndex? 0 (genericMethod.tokens.drop 6)).isSome ∧
      Partners genericMethod.tokens 6 16 ∧ Partners genericMethod.tokens 1 17 ∧
      Receives base (between genericMethod.tokens 1 17) ∧ base.text = "T" ∧
      genericMethod.receiver = some base.text ∧
      ∃ name, genericMethod.tokens[18]? = some name ∧ genericMethod.names = [name.text] := by
  have hview : (SourceFile.ofSource genericSource).toOption.map (·.decls) = some [genericMethod] := by
    decide +kernel
  obtain ⟨file, hfile, hdecls⟩ := exists_ok_of_view hview
  have hmem : genericMethod ∈ file.decls := by simp [hdecls]
  obtain ⟨ts, hts, -⟩ := infix_of_ofSource hfile hmem
  obtain ⟨hpartners, hmethod⟩ := partner_closes_and_receiver_read hts
  obtain ⟨k, body, htokens, hchecked⟩ := checked_of_ofSource hts hfile hmem
  have hcloses := hpartners k body hchecked
  rw [← htokens] at hcloses
  have hargs : Partners genericMethod.tokens 6 16 := ((hcloses 6 _ rfl rfl).2 16).2 rfl
  have hparens : Partners genericMethod.tokens 1 17 := ((hcloses 1 _ rfl rfl).2 17).2 rfl
  have hreceives : Receives ⟨.ident, "T", ⟨2, 9⟩, false, 0⟩ (between genericMethod.tokens 1 17) := by
    refine ⟨some _, [_, _], _, rfl, by simp, by simp [Token.isOp], rfl, ?_⟩
    change TypeParams (_ :: (between genericMethod.tokens 6 16 ++ [_]))
    exact .some rfl rfl hargs.nested
  exact ⟨ts, file, _, hts, hfile, hmem, ⟨k, body, htokens, hchecked⟩, (hcloses 6 _ rfl rfl).1, hargs,
    hparens, hreceives, rfl, hmethod file hfile _ hmem rfl 17 _ hparens hreceives⟩

end Gosmith.Go.Grammar
