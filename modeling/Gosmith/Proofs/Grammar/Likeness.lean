import Gosmith.Proofs.Grammar.File

namespace Gosmith.Go.Grammar

open SourceFile

def bare (ts : List Token) : List Token :=
  ts.filter fun t => t.kind != .semicolon

def Alike (ts us : List Token) : Prop :=
  (bare ts).map Token.key = (bare us).map Token.key

theorem bare_append (ts us : List Token) : bare (ts ++ us) = bare ts ++ bare us := by
  simp [bare]

theorem bare_cons {t : Token} (h : t.kind ≠ .semicolon) (ts : List Token) :
    bare (t :: ts) = t :: bare ts := by
  simp [bare, h]

theorem bare_semicolon {t : Token} (h : t.kind = .semicolon) (ts : List Token) :
    bare (t :: ts) = bare ts := by
  simp [bare, h]

theorem nested_bare {free : Bool} {ts : List Token} (h : Nested free ts) : Nested free (bare ts) := by
  induction h with
  | nil => exact .nil
  | @plain free t ts ho hc he hs h ih =>
      by_cases hk : t.kind = .semicolon
      · rwa [bare_semicolon hk]
      · rw [bare_cons hk]
        exact .plain ho hc he hs ih
  | group ho hc hm hi hr ihi ihr =>
      rw [bare_cons (by simp [Token.kind_of_isOpener ho]), bare_append,
        bare_cons (by simp [Token.kind_of_isCloser hc])]
      exact .group ho hc hm ihi ihr

theorem closerIndex?_congr {ts us : List Token} (h : ts.map Token.key = us.map Token.key)
    (depth : Nat) : closerIndex? depth ts = closerIndex? depth us := by
  induction ts generalizing us depth with
  | nil =>
      obtain rfl : us = [] := by simpa using h.symm
      rfl
  | cons t ts ih =>
      cases us with
      | nil => simp at h
      | cons u us =>
          simp only [List.map_cons, List.cons.injEq] at h
          obtain ⟨hkey, hrest⟩ := h
          simp only [closerIndex?, Token.isOpener_of_key hkey, Token.isCloser_of_key hkey, ih hrest]

theorem closerIndex?_group {inner rest : List Token} {c : Token} (hi : Nested true inner)
    (hc : c.isCloser = true) :
    closerIndex? 1 (bare (inner ++ c :: rest)) = some (bare inner).length := by
  rw [bare_append, bare_cons (by simp [Token.kind_of_isCloser hc]),
    closerIndex?_inner (nested_bare hi) hc]

theorem Alike.split {inner inner' rest rest' : List Token} {c c' : Token}
    (h : Alike (inner ++ c :: rest) (inner' ++ c' :: rest')) (hi : Nested true inner)
    (hi' : Nested true inner') (hc : c.isCloser = true) (hc' : c'.isCloser = true) :
    Alike inner inner' ∧ c.key = c'.key ∧ Alike rest rest' := by
  have hindex := closerIndex?_congr h 1
  rw [closerIndex?_group hi hc, closerIndex?_group hi' hc', Option.some.injEq] at hindex
  have hparts := h
  simp only [Alike, bare_append, bare_cons (show c.kind ≠ .semicolon by simp [Token.kind_of_isCloser hc]),
    bare_cons (show c'.kind ≠ .semicolon by simp [Token.kind_of_isCloser hc']), List.map_append,
    List.map_cons] at hparts
  obtain ⟨hinner, htail⟩ := List.append_inj hparts (by simpa using hindex)
  simp only [List.cons.injEq] at htail
  exact ⟨hinner, htail.1, htail.2⟩

theorem Nested.head_ne_semicolon {t : Token} {ts : List Token} (h : Nested false (t :: ts)) :
    t.kind ≠ .semicolon := by
  cases h with
  | plain _ _ _ hs _ =>
      intro hk
      simpa using hs hk
  | group ho _ _ _ _ => simp [Token.kind_of_isOpener ho]

theorem Alike.head {t : Token} {ts us : List Token} (h : Alike (t :: ts) us)
    (ht : t.kind ≠ .semicolon) (hu : Nested false us) :
    ∃ u vs, us = u :: vs ∧ t.key = u.key ∧ Alike ts vs := by
  rw [Alike, bare_cons ht] at h
  cases us with
  | nil => simp [bare] at h
  | cons u vs =>
      rw [bare_cons hu.head_ne_semicolon, List.map_cons, List.map_cons, List.cons.injEq] at h
      exact ⟨u, vs, rfl, h.1, h.2⟩

theorem Alike.group {o c : Token} {inner rest us : List Token} (ho : o.isOpener = true)
    (hc : c.isCloser = true) (hi : Nested true inner)
    (h : Alike (o :: (inner ++ c :: rest)) us) (hus : Nested false us) :
    ∃ o' inner' c' rest', us = o' :: (inner' ++ c' :: rest') ∧ o.key = o'.key ∧
      Nested true inner' ∧ Alike inner inner' ∧ c.key = c'.key ∧ Nested false rest' ∧
      Alike rest rest' := by
  obtain ⟨o', vs, rfl, hkey, halike⟩ := h.head (by simp [Token.kind_of_isOpener ho]) hus
  have ho' : o'.isOpener = true := Token.isOpener_of_key hkey ▸ ho
  obtain ⟨inner', c', rest', rfl, hc', -, hi', hr'⟩ := hus.of_group ho'
  obtain ⟨hinner, hckey, hrest⟩ := halike.split hi hi' hc hc'
  exact ⟨o', inner', c', rest', rfl, hkey, hi', hinner, hckey, hr', hrest⟩

theorem receiverType_bare (depth : Nat) (found : Option String) (ts : List Token) :
    receiverType depth found (bare ts) = receiverType depth found ts := by
  induction ts generalizing depth found with
  | nil => rfl
  | cons t ts ih =>
      by_cases hk : t.kind = .semicolon
      · rw [bare_semicolon hk, ih]
        simp [receiverType, Token.isOp, hk]
      · rw [bare_cons hk]
        simp only [receiverType, ih]

theorem receiverType_congr {ts us : List Token} (h : ts.map Token.key = us.map Token.key)
    (depth : Nat) (found : Option String) :
    receiverType depth found ts = receiverType depth found us := by
  induction ts generalizing us depth found with
  | nil =>
      obtain rfl : us = [] := by simpa using h.symm
      rfl
  | cons t ts ih =>
      cases us with
      | nil => simp at h
      | cons u us =>
          simp only [List.map_cons, List.cons.injEq] at h
          obtain ⟨hkey, hrest⟩ := h
          have hkind : t.kind = u.kind := congrArg Prod.fst hkey
          have htext : t.text = u.text := congrArg Prod.snd hkey
          simp only [receiverType, Token.isOp_of_key hkey, hkind, htext, ih hrest]

theorem Alike.namesType {inner inner' : List Token} (h : Alike inner inner')
    (hi : Nested true inner) (hi' : Nested true inner') (hn : NamesType 0 inner) :
    NamesType 0 inner' := by
  rw [← receiverType_nested hi, ← receiverType_bare, receiverType_congr h, receiverType_bare] at hn
  exact (receiverType_nested hi').1 hn

theorem Alike.specHeader {ts us : List Token} (h : Alike ts us) (hts : Nested false ts)
    (hus : Nested false us) (hh : SpecHeader ts) : SpecHeader us := by
  rcases hh with ⟨l, ts, rfl, hl⟩ | ⟨n, t, ts, rfl, hn⟩
  · obtain ⟨l', us, rfl, hkey, -⟩ := h.head hts.head_ne_semicolon hus
    exact .inl ⟨l', us, rfl, Token.isOp_of_key hkey "(" ▸ hl⟩
  · obtain ⟨n', us, rfl, hkey, halike⟩ := h.head hts.head_ne_semicolon hus
    have hn' : n'.kind = .ident := (congrArg Prod.fst hkey).symm.trans hn
    have htail := hts.of_plain (by simp [Token.isOpener, hn])
    have htail' := hus.of_plain (by simp [Token.isOpener, hn'])
    obtain ⟨t', us, rfl, -, -⟩ := halike.head htail.head_ne_semicolon htail'
    exact .inr ⟨n', t', us, rfl, hn'⟩

def Signature (ts : List Token) : Prop :=
  ∃ name params l rest, ts = name :: (params ++ l :: rest) ∧ name.kind = .ident ∧
    TypeParams params ∧ l.isOp "(" = true

theorem Alike.signature {ts us : List Token} (h : Alike ts us) (hus : Nested false us)
    (hs : Signature ts) : Signature us := by
  obtain ⟨name, params, l, rest, rfl, hname, hparams, hl⟩ := hs
  obtain ⟨name', us, rfl, hkey, halike⟩ := h.head (by simp [hname]) hus
  have hname' : name'.kind = .ident := (congrArg Prod.fst hkey).symm.trans hname
  have hafter := hus.of_plain (by simp [Token.isOpener, hname'])
  have hparen : l.kind ≠ .semicolon := by simp [(isOp_iff.1 hl).1]
  cases hparams with
  | none =>
      obtain ⟨l', us, rfl, hlkey, -⟩ := halike.head hparen hafter
      exact ⟨name', [], l', us, rfl, hname', .none, Token.isOp_of_key hlkey "(" ▸ hl⟩
  | @some o c inner ho hc hi =>
      rw [List.cons_append, List.append_assoc, List.singleton_append] at halike
      obtain ⟨o', inner', c', rest', rfl, hokey, hi', -, hckey, hrest', hrest⟩ := halike.group
        (Token.isOpener_of_isOp ho (by decide)) (Token.isCloser_of_isOp hc (by decide)) hi hafter
      obtain ⟨l', us, rfl, hlkey, -⟩ := hrest.head hparen hrest'
      have hgroup : TypeParams (o' :: (inner' ++ [c'])) :=
        .some (Token.isOp_of_key hokey "[" ▸ ho) (Token.isOp_of_key hckey "]" ▸ hc) hi'
      exact ⟨name', _, l', us, by simp, hname', hgroup, Token.isOp_of_key hlkey "(" ▸ hl⟩

theorem funcHeader_iff {ts : List Token} : FuncHeader ts ↔
    ∃ recv rest, ts = recv ++ rest ∧ Receiver recv ∧ Signature rest := by
  constructor
  · rintro ⟨recv, name, params, l, rest, rfl, hr, hname, hparams, hl⟩
    exact ⟨recv, _, rfl, hr, name, params, l, rest, rfl, hname, hparams, hl⟩
  · rintro ⟨recv, _, rfl, hr, name, params, l, rest, rfl, hname, hparams, hl⟩
    exact ⟨recv, name, params, l, rest, rfl, hr, hname, hparams, hl⟩

theorem Alike.funcHeader {ts us : List Token} (h : Alike ts us) (hus : Nested false us)
    (hh : FuncHeader ts) : FuncHeader us := by
  obtain ⟨recv, rest, rfl, hr, hs⟩ := funcHeader_iff.1 hh
  cases hr with
  | none => exact funcHeader_iff.2 ⟨[], us, rfl, .none, h.signature hus hs⟩
  | @some o c inner ho hc hi hn =>
      rw [List.cons_append, List.append_assoc, List.singleton_append] at h
      obtain ⟨o', inner', c', rest', rfl, hokey, hi', hinner, hckey, hrest', hrest⟩ := h.group
        (Token.isOpener_of_isOp ho (by decide)) (Token.isCloser_of_isOp hc (by decide)) hi hus
      have hreceiver : Receiver (o' :: (inner' ++ [c'])) :=
        .some (Token.isOp_of_key hokey "(" ▸ ho) (Token.isOp_of_key hckey ")" ▸ hc) hi'
          (hinner.namesType hi hi' hn)
      exact funcHeader_iff.2 ⟨_, rest', by simp, hreceiver, hrest.signature hrest' hs⟩

theorem Alike.header {kind : Declaration.Kind} {ts us : List Token} (h : Alike ts us)
    (hts : Nested false ts) (hus : Nested false us) (hh : Header kind ts) : Header kind us := by
  cases kind with
  | func => exact h.funcHeader hus hh
  | _ => exact h.specHeader hts hus hh

end Gosmith.Go.Grammar
