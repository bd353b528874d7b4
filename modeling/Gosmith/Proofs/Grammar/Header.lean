import Gosmith.Proofs.Grammar.Body

namespace Gosmith.Go.Grammar

open SourceFile
open Gosmith.Text (braceOpen)

theorem isOp_iff {t : Token} {text : String} :
    t.isOp text = true ↔ t.kind = .op ∧ t.text = text := by
  simp [Token.isOp]

theorem isOp_of_text_ne {t : Token} {text : String} (h : t.text ≠ text) : t.isOp text = false := by
  simp [Token.isOp, h]

theorem isOp_of_ident {t : Token} (h : t.kind = .ident) (text : String) : t.isOp text = false := by
  simp [Token.isOp, h]

def countOp (text : String) (ts : List Token) : Nat :=
  ts.countP (·.isOp text)

theorem countOp_append (text : String) (us ts : List Token) :
    countOp text (us ++ ts) = countOp text us + countOp text ts :=
  List.countP_append

theorem countOp_cons (text : String) (t : Token) (ts : List Token) :
    countOp text (t :: ts) = countOp text ts + if t.isOp text then 1 else 0 :=
  List.countP_cons

@[simp] theorem countOp_nil (text : String) : countOp text [] = 0 := rfl

theorem isOp_square_of_plain {t : Token} (ho : t.isOpener = false) (hc : t.isCloser = false) :
    t.isOp "[" = false ∧ t.isOp "]" = false := by
  constructor
  · by_contra h
    rw [Bool.not_eq_false] at h
    simp [Token.isOpener_of_isOp h (by decide)] at ho
  · by_contra h
    rw [Bool.not_eq_false] at h
    simp [Token.isCloser_of_isOp h (by decide)] at hc

theorem isOp_square_of_group {o c : Token} (ho : o.isOpener = true) (hc : c.isCloser = true)
    (hm : Token.closerOf o.text = c.text) :
    o.isOp "]" = false ∧ c.isOp "[" = false ∧ c.isOp "]" = o.isOp "[" := by
  have hko := Token.kind_of_isOpener ho
  have hkc := Token.kind_of_isCloser hc
  have hto : o.text = "(" ∨ o.text = "[" ∨ o.text = braceOpen := by
    simpa [Token.isOpener, hko, Token.openers] using ho
  rcases hto with h | h | h <;>
    simp [Token.isOp, hko, hkc, ← hm, h, Token.closerOf]

theorem Nested.countOp_eq {free : Bool} {ts : List Token} (h : Nested free ts) :
    countOp "]" ts = countOp "[" ts := by
  induction h with
  | nil => rfl
  | plain ho hc he hs h ih =>
      obtain ⟨hopen, hclose⟩ := isOp_square_of_plain ho hc
      simp [countOp_cons, hopen, hclose, ih]
  | group ho hc hm hi hr ihi ihr =>
      obtain ⟨h1, h2, h3⟩ := isOp_square_of_group ho hc hm
      simp only [countOp_cons, countOp_append, h1, h2, h3, ihi, ihr, Bool.false_eq_true, if_false]
      omega

theorem Nested.countOp_take {free : Bool} {ts : List Token} (h : Nested free ts) (n : Nat) :
    countOp "]" (ts.take n) ≤ countOp "[" (ts.take n) := by
  induction h generalizing n with
  | nil => simp
  | plain ho hc he hs h ih =>
      obtain ⟨hopen, hclose⟩ := isOp_square_of_plain ho hc
      cases n with
      | zero => simp
      | succ n => simpa [List.take_succ_cons, countOp_cons, hopen, hclose] using ih n
  | @group free o c inner rest ho hc hm hi hr ihi ihr =>
      obtain ⟨h1, h2, h3⟩ := isOp_square_of_group ho hc hm
      cases n with
      | zero => simp
      | succ n =>
          have hinner := ihi n
          rw [List.take_succ_cons, List.take_append, countOp_cons, countOp_cons, countOp_append,
            countOp_append, h1]
          cases hn : n - inner.length with
          | zero =>
              simp only [List.take_zero, countOp_nil, Bool.false_eq_true, if_false]
              omega
          | succ k =>
              have hrest := ihr k
              rw [List.take_of_length_le (by omega), hi.countOp_eq, List.take_succ_cons,
                countOp_cons, countOp_cons, h2, h3]
              simp only [Bool.false_eq_true, if_false]
              omega

def NamesType (depth : Nat) (ts : List Token) : Prop :=
  ∃ us t vs, ts = us ++ t :: vs ∧ t.kind = .ident ∧ countOp "]" us = depth + countOp "[" us

theorem namesType_cons {depth : Nat} (depth' : Nat) {t : Token} {ts : List Token}
    (hd : ∀ us, countOp "]" (t :: us) = depth + countOp "[" (t :: us) ↔
      countOp "]" us = depth' + countOp "[" us)
    (ht : t.kind = .ident → depth ≠ 0) : NamesType depth (t :: ts) ↔ NamesType depth' ts := by
  constructor
  · rintro ⟨us, u, vs, heq, hu, hcount⟩
    cases us with
    | nil =>
        simp only [List.nil_append, List.cons.injEq] at heq
        simp only [countOp_nil] at hcount
        exact absurd (by omega) (ht (heq.1 ▸ hu))
    | cons w us =>
        simp only [List.cons_append, List.cons.injEq] at heq
        obtain ⟨rfl, rfl⟩ := heq
        exact ⟨us, u, vs, rfl, hu, (hd us).1 hcount⟩
  · rintro ⟨us, u, vs, rfl, hu, hcount⟩
    exact ⟨t :: us, u, vs, rfl, hu, (hd us).2 hcount⟩

theorem receiverType_isSome {depth : Nat} {found : Option String} {ts : List Token}
    (hts : ∀ n, countOp "]" (ts.take n) ≤ depth + countOp "[" (ts.take n)) :
    (receiverType depth found ts).isSome ↔ found.isSome ∨ NamesType depth ts := by
  induction ts generalizing depth found with
  | nil => simp [receiverType, NamesType]
  | cons t ts ih =>
      have htail : ∀ n, countOp "]" (t :: ts.take n) ≤ depth + countOp "[" (t :: ts.take n) :=
        fun n => by simpa using hts (n + 1)
      simp only [countOp_cons] at htail
      by_cases hopen : t.isOp "[" = true
      · have htext := (isOp_iff.1 hopen).2
        have hclose : t.isOp "]" = false := isOp_of_text_ne (by rw [htext]; decide)
        simp only [hopen, hclose, if_true, Bool.false_eq_true, if_false] at htail
        rw [receiverType, if_pos hopen, ih (fun n => by have := htail n; omega)]
        rw [namesType_cons (depth + 1)]
        · intro us
          simp only [countOp_cons, hopen, hclose, if_true, Bool.false_eq_true, if_false]
          omega
        · intro hk
          simp [isOp_of_ident hk] at hopen
      · rw [Bool.not_eq_true] at hopen
        by_cases hclose : t.isOp "]" = true
        · simp only [hopen, hclose, if_true, Bool.false_eq_true, if_false] at htail
          have hpos := htail 0
          simp only [List.take_zero, countOp_nil] at hpos
          rw [receiverType, if_neg (by simp [hopen]), if_pos hclose,
            ih (fun n => by have := htail n; omega), namesType_cons (depth - 1)]
          · intro us
            simp only [countOp_cons, hopen, hclose, if_true, Bool.false_eq_true, if_false]
            omega
          · intro hk
            simp [isOp_of_ident hk] at hclose
        · rw [Bool.not_eq_true] at hclose
          simp only [hopen, hclose, Bool.false_eq_true, if_false] at htail
          have htail' : ∀ n, countOp "]" (ts.take n) ≤ depth + countOp "[" (ts.take n) :=
            fun n => by have := htail n; omega
          by_cases hname : depth = 0 ∧ t.kind = .ident
          · obtain ⟨rfl, hk⟩ := hname
            have hhead : NamesType 0 (t :: ts) := ⟨[], t, ts, rfl, hk, by simp [countOp_nil]⟩
            simp [receiverType, hopen, hclose, hk, ih htail', hhead]
          · have hskip : (depth == 0 && t.kind == .ident) = false := by
              simpa using hname
            rw [receiverType, if_neg (by simp [hopen]), if_neg (by simp [hclose]),
              if_neg (by simp [hskip]), ih htail', namesType_cons depth]
            · intro us
              simp [countOp_cons, hopen, hclose]
            · exact fun hk hd => hname ⟨hd, hk⟩

def SpecHeader (ts : List Token) : Prop :=
  (∃ l us, ts = l :: us ∧ l.isOp "(" = true) ∨ ∃ n t us, ts = n :: t :: us ∧ n.kind = .ident

inductive Receiver : List Token → Prop
  | none : Receiver []
  | some {l r : Token} {inner : List Token} (hl : l.isOp "(" = true) (hr : r.isOp ")" = true)
      (hi : Nested true inner) (ht : NamesType 0 inner) : Receiver (l :: (inner ++ [r]))

inductive TypeParams : List Token → Prop
  | none : TypeParams []
  | some {l r : Token} {inner : List Token} (hl : l.isOp "[" = true) (hr : r.isOp "]" = true)
      (hi : Nested true inner) : TypeParams (l :: (inner ++ [r]))

def FuncHeader (ts : List Token) : Prop :=
  ∃ recv name params l rest, ts = recv ++ name :: (params ++ l :: rest) ∧ Receiver recv ∧
    name.kind = .ident ∧ TypeParams params ∧ l.isOp "(" = true

def Header : Declaration.Kind → List Token → Prop
  | .func, ts => FuncHeader ts
  | _, ts => SpecHeader ts

theorem specNames_isOk {keyword : Token} {ts : List Token} :
    (∃ names, specNames keyword ts = .ok names) ↔ SpecHeader ts := by
  match ts with
  | [] => simp [specNames, fail, SpecHeader]
  | t :: rest =>
      by_cases hp : t.isOp "(" = true
      · simp [specNames, hp, SpecHeader]
      · by_cases hk : t.kind = .ident
        · cases rest with
          | nil => simp [specNames, hp, hk, fail, SpecHeader]
          | cons u us => simp [specNames, hp, hk, SpecHeader]
        · simp [specNames, hp, hk, fail, SpecHeader]

theorem isOp_closer_of_group {o c : Token} {opener : String} (ho : o.isOp opener = true)
    (hc : c.isCloser = true) (hm : Token.closerOf o.text = c.text) :
    c.isOp (Token.closerOf opener) = true := by
  rw [isOp_iff]
  exact ⟨Token.kind_of_isCloser hc, by rw [← hm, (isOp_iff.1 ho).2]⟩

theorem drop_group {o c : Token} (inner rest : List Token) :
    (o :: (inner ++ c :: rest)).drop (inner.length + 1 + 1) = rest := by
  rw [List.drop_succ_cons, List.drop_append]
  simp

theorem receiverType_nested {free : Bool} {inner : List Token} (hi : Nested free inner) :
    (receiverType 0 none inner).isSome ↔ NamesType 0 inner := by
  have hprefix : ∀ n, countOp "]" (inner.take n) ≤ 0 + countOp "[" (inner.take n) := by
    intro n
    rw [Nat.zero_add]
    exact hi.countOp_take n
  rw [receiverType_isSome hprefix]
  simp

theorem receiver_group {o c : Token} {inner rest : List Token} (ho : o.isOp "(" = true)
    (hc : c.isCloser = true) (hi : Nested true inner) :
    receiver (o :: (inner ++ c :: rest)) =
      match receiverType 0 none inner with
      | some name => .ok (some name, rest)
      | none => fail .noReceiverType o := by
  have hopen := Token.isOpener_of_isOp ho (by decide)
  have htake : ((o :: (inner ++ c :: rest)).take (inner.length + 1)).drop 1 = inner := by simp
  cases hr : receiverType 0 none inner with
  | none => simp only [receiver, peek, ho, if_true, partner_group hopen hc hi, htake, hr]
  | some name =>
      simp only [receiver, peek, ho, if_true, partner_group hopen hc hi, htake, drop_group, hr]

theorem receiver_eq_ok {free : Bool} {ts rest : List Token} {r : Option String}
    (hts : Nested free ts) (h : receiver ts = .ok (r, rest)) :
    ∃ recv, ts = recv ++ rest ∧ Receiver recv ∧ Nested free rest := by
  by_cases hp : (peek ts).isOp "(" = true
  · cases ts with
    | nil => simp [peek, Token.isOp] at hp
    | cons o us =>
        have ho : o.isOp "(" = true := hp
        obtain ⟨inner, c, after, rfl, hc, hm, hi, hr⟩ :=
          hts.of_group (Token.isOpener_of_isOp ho (by decide))
        have hnames := receiverType_nested hi
        rw [receiver_group ho hc hi] at h
        cases hrt : receiverType 0 none inner with
        | none => simp [hrt, fail] at h
        | some name =>
            simp only [hrt, Except.ok.injEq, Prod.mk.injEq] at h
            rw [← h.2]
            refine ⟨o :: (inner ++ [c]), by simp, ?_, hr⟩
            exact .some ho (isOp_closer_of_group ho hc hm) hi (hnames.1 (by simp [hrt]))
  · simp only [receiver, hp] at h
    cases h
    exact ⟨[], rfl, .none, hts⟩

theorem receiver_append {recv : List Token} (h : Receiver recv) (rest : List Token)
    (hrest : (peek rest).isOp "(" = false) : ∃ r, receiver (recv ++ rest) = .ok (r, rest) := by
  cases h with
  | none => exact ⟨none, by simp [receiver, hrest]⟩
  | @some l r inner hl hr hi ht =>
      have hnames := (receiverType_nested hi).2 ht
      obtain ⟨name, hname⟩ := Option.isSome_iff_exists.1 hnames
      refine ⟨some name, ?_⟩
      rw [List.cons_append, List.append_assoc, List.singleton_append,
        receiver_group hl (Token.isCloser_of_isOp hr (by decide)) hi, hname]

theorem skipTypeParams_group {name o c : Token} {inner rest : List Token} (ho : o.isOp "[" = true)
    (hc : c.isCloser = true) (hi : Nested true inner) :
    (skipTypeParams name (o :: (inner ++ c :: rest))).2 = rest := by
  have hopen := Token.isOpener_of_isOp ho (by decide)
  simp only [skipTypeParams, peek, ho, if_true, partner_group hopen hc hi, drop_group]

theorem skipTypeParams_split {free : Bool} (name : Token) {ts : List Token} (hts : Nested free ts) :
    ∃ params, ts = params ++ (skipTypeParams name ts).2 ∧ TypeParams params := by
  by_cases hp : (peek ts).isOp "[" = true
  · cases ts with
    | nil => simp [peek, Token.isOp] at hp
    | cons o us =>
        have ho : o.isOp "[" = true := hp
        obtain ⟨inner, c, after, rfl, hc, hm, hi, hr⟩ :=
          hts.of_group (Token.isOpener_of_isOp ho (by decide))
        rw [skipTypeParams_group ho hc hi]
        exact ⟨o :: (inner ++ [c]), by simp, .some ho (isOp_closer_of_group ho hc hm) hi⟩
  · exact ⟨[], by simp [skipTypeParams, hp], .none⟩

theorem skipTypeParams_append {name l : Token} {params rest : List Token} (h : TypeParams params)
    (hl : l.isOp "(" = true) : (skipTypeParams name (params ++ l :: rest)).2 = l :: rest := by
  cases h with
  | none =>
      have hopen : l.isOp "[" = false := isOp_of_text_ne (by rw [(isOp_iff.1 hl).2]; decide)
      simp [skipTypeParams, peek, hopen]
  | some hl' hr hi =>
      rw [List.cons_append, List.append_assoc, List.singleton_append,
        skipTypeParams_group hl' (Token.isCloser_of_isOp hr (by decide)) hi]

theorem funcHeader_isOk {free : Bool} {keyword : Token} {ts : List Token} (hts : Nested free ts) :
    (∃ r, funcHeader keyword ts = .ok r) ↔ FuncHeader ts := by
  constructor
  · rintro ⟨r, h⟩
    simp only [funcHeader] at h
    split at h
    · simp at h
    · rename_i recv rest hrecv
      obtain ⟨recv, rfl, hr, hrest⟩ := receiver_eq_ok hts hrecv
      split at h
      · simp [fail] at h
      · rename_i name after
        split at h
        · simp [fail] at h
        · rename_i hk
          rw [ne_eq, not_not] at hk
          have hplain : name.isOpener = false := by simp [Token.isOpener, hk]
          obtain ⟨params, heq, hparams⟩ := skipTypeParams_split name (hrest.of_plain hplain)
          split at h
          · rename_i hp
            cases hl : (skipTypeParams name after).2 with
            | nil => simp [hl, peek, Token.isOp] at hp
            | cons l rest =>
                rw [hl] at heq hp
                exact ⟨recv, name, params, l, rest, by rw [heq], hr, hk, hparams, hp⟩
          · simp [fail] at h
  · rintro ⟨recv, name, params, l, rest, rfl, hr, hk, hparams, hl⟩
    obtain ⟨r, hrecv⟩ := receiver_append hr (name :: (params ++ l :: rest))
      (isOp_of_ident hk "(")
    refine ⟨(name.text, r), ?_⟩
    simp [funcHeader, hrecv, hk, skipTypeParams_append hparams hl, peek, hl]

theorem header_isOk {free : Bool} {kind : Declaration.Kind} {keyword : Token} {ts : List Token}
    (hts : Nested free ts) : (∃ r, header kind keyword ts = .ok r) ↔ Header kind ts := by
  have map_isOk : ∀ {α β : Type} {f : α → β} {x : Except Diagnostic α},
      (∃ r, x.map f = .ok r) ↔ ∃ r, x = .ok r := by
    intro α β f x
    cases x <;> simp [Except.map]
  cases kind with
  | func => exact map_isOk.trans (funcHeader_isOk hts)
  | _ => exact map_isOk.trans specNames_isOk

end Gosmith.Go.Grammar
