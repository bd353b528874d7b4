import Gosmith.Settings.Json
import Mathlib.Data.List.Nodup

namespace Gosmith.Settings.Json

open Gosmith.Text

theorem hexDigits_step (w n : Nat) :
    hexDigits (w + 2) n = hexDigits (w + 1) (n / 16) ++ [(n % 16).digitChar] := by
  rcases Nat.lt_or_ge n 16 with hlt | hge
  · rw [hexDigits, hexDigits, Nat.toDigits_of_lt_base hlt, Nat.div_eq_of_lt hlt, Nat.toDigits_zero,
      Nat.mod_eq_of_lt hlt]
    simp [List.replicate_succ']
  · rw [hexDigits, hexDigits, Nat.toDigits_of_base_le (by omega) hge]
    simp

theorem hexDigits_four {n : Nat} (h : n < 0x10000) :
    hexDigits 4 n = [(n / 16 / 16 / 16).digitChar, (n / 16 / 16 % 16).digitChar,
      (n / 16 % 16).digitChar, (n % 16).digitChar] := by
  have hlast : hexDigits 1 (n / 16 / 16 / 16) = [(n / 16 / 16 / 16).digitChar] := by
    rw [hexDigits, Nat.toDigits_of_lt_base (by omega)]
    rfl
  rw [hexDigits_step, hexDigits_step, hexDigits_step, hlast]
  rfl

theorem hexValue?_digitChar {d : Nat} (h : d < 16) : Escape.hexValue? d.digitChar = some d := by
  have hall : ∀ d ∈ List.range 16, Escape.hexValue? d.digitChar = some d := by decide
  exact hall d (List.mem_range.2 h)

theorem hexNumber?_cons {c : Char} {cs rest : List Char} {w d n : Nat}
    (hd : Escape.hexValue? c = some d) (h : Escape.hexNumber? w cs = some (n, rest)) :
    Escape.hexNumber? (w + 1) (c :: cs) = some (d * Nat.pow 16 w + n, rest) := by
  change ((Escape.hexValue? c).bind fun d => (Escape.hexNumber? w cs).bind fun p =>
    some (d * Nat.pow 16 w + p.1, p.2)) = _
  rw [hd, Option.bind_some, h, Option.bind_some]

theorem hexNumber?_hexDigits {n : Nat} (h : n < 0x10000) :
    Escape.hexNumber? 4 (hexDigits 4 n) = some (n, []) := by
  have hnone : Escape.hexNumber? 0 [] = some (0, []) := rfl
  have hread := hexNumber?_cons (hexValue?_digitChar (show n / 16 / 16 / 16 < 16 by omega)) <|
    hexNumber?_cons (hexValue?_digitChar (show n / 16 / 16 % 16 < 16 by omega)) <|
    hexNumber?_cons (hexValue?_digitChar (show n / 16 % 16 < 16 by omega)) <|
    hexNumber?_cons (hexValue?_digitChar (show n % 16 < 16 by omega)) hnone
  have hsum : n / 16 / 16 / 16 * 4096 + (n / 16 / 16 % 16 * 256 + (n / 16 % 16 * 16 +
      (n % 16 * 1 + 0))) = n := by omega
  rw [hexDigits_four h, hread]
  exact congrArg (fun m => some (m, [])) hsum

theorem units_unit {n : Nat} (h : n < 0x10000) (rest : List Char) :
    units (unit n ++ rest) = (units rest).map fun p => (n :: p.1, p.2) := by
  have hn := hexNumber?_hexDigits h
  rw [hexDigits_four h] at hn
  rw [unit, hexDigits_four h]
  simp only [List.cons_append, List.nil_append, units, hn, Option.bind_eq_bind, Option.bind_some]
  cases units rest <;> rfl

theorem units_escape {c : Char} {n : Nat} (h : simpleEscape? c = some n) (rest : List Char) :
    units ('\\' :: c :: rest) = (units rest).map fun p => (n :: p.1, p.2) := by
  have hu : c ≠ 'u' := by
    rintro rfl
    simp [simpleEscape?] at h
  rw [units.eq_4 c rest fun _ _ _ _ _ heq _ => hu heq]
  simp only [h, Option.bind_eq_bind, Option.bind_some]
  cases units rest <;> rfl

theorem units_plain {c : Char} (hquote : c ≠ '"') (hslash : c ≠ '\\') (h : 0x20 ≤ c.toNat)
    (rest : List Char) : units (c :: rest) = (units rest).map fun p => (c.toNat :: p.1, p.2) := by
  rw [units.eq_5 c rest hquote (fun _ _ _ _ _ heq _ => hslash heq) (fun _ _ heq _ => hslash heq),
    if_neg (by omega)]

def codeUnits (c : Char) : List Nat :=
  if c.toNat < 0x10000 then [c.toNat]
  else [0xd800 + (c.toNat - 0x10000) / 0x400, 0xdc00 + (c.toNat - 0x10000) % 0x400]

theorem toNat_lt (c : Char) : c.toNat < 0x110000 := by
  rcases c.valid with h | h
  · have : c.toNat < 0xd800 := h
    omega
  · exact h.2

theorem units_escaped (c : Char) (rest : List Char) :
    units (escaped c.toNat ++ rest) = (units rest).map fun p => (codeUnits c ++ p.1, p.2) := by
  have hbound := toNat_lt c
  unfold escaped codeUnits
  split
  · exact units_unit (by omega) rest
  · rw [List.append_assoc, units_unit (by omega), units_unit (by omega), Option.map_map]
    rfl

theorem units_charText (c : Char) (rest : List Char) :
    units (charText c ++ rest) = (units rest).map fun p => (codeUnits c ++ p.1, p.2) := by
  unfold charText
  split
  · exact units_escape rfl rest
  · exact units_escape rfl rest
  · exact units_escape rfl rest
  · exact units_escape rfl rest
  · exact units_escape rfl rest
  · rename_i hquote hslash _ _ _
    have hsmall (h : c.toNat < 0x10000) : codeUnits c = [c.toNat] := by rw [codeUnits, if_pos h]
    split
    · rename_i h8
      rw [hsmall (by omega), h8]
      exact units_escape rfl rest
    · split
      · rename_i h12
        rw [hsmall (by omega), h12]
        exact units_escape rfl rest
      · split
        · rename_i hplain
          rw [hsmall (by omega)]
          exact units_plain hquote hslash hplain.1 rest
        · exact units_escaped c rest

theorem units_flatMap (cs rest : List Char) :
    units (cs.flatMap charText ++ '"' :: rest) = some (cs.flatMap codeUnits, rest) := by
  induction cs with
  | nil => rfl
  | cons c cs ih =>
      rw [List.flatMap_cons, List.append_assoc, units_charText, ih]
      rfl

theorem joinUnits_cons {n : Nat} (h : isHigh n = false) (ns : List Nat) :
    joinUnits (n :: ns) = Char.ofNat n :: joinUnits ns := by
  cases ns with
  | nil => rfl
  | cons m ns => simp [joinUnits, h]

theorem joinUnits_codeUnits (c : Char) (ns : List Nat) :
    joinUnits (codeUnits c ++ ns) = c :: joinUnits ns := by
  have hbound := toNat_lt c
  unfold codeUnits
  split
  · -- no character is a surrogate
    have hhigh : isHigh c.toNat = false := by
      simp only [isHigh, Bool.and_eq_false_iff, decide_eq_false_iff_not]
      rcases c.valid with h | h
      · have : c.toNat < 0xd800 := h
        omega
      · have : 0xdfff < c.toNat := h.1
        omega
    rw [List.singleton_append, joinUnits_cons hhigh, Char.ofNat_toNat]
  · have hpair : isHigh (0xd800 + (c.toNat - 0x10000) / 0x400) = true ∧
        isLow (0xdc00 + (c.toNat - 0x10000) % 0x400) = true := by
      simp only [isHigh, isLow, Bool.and_eq_true, decide_eq_true_eq]
      omega
    have hpoint : 0x10000 + (0xd800 + (c.toNat - 0x10000) / 0x400 - 0xd800) * 0x400 +
        (0xdc00 + (c.toNat - 0x10000) % 0x400 - 0xdc00) = c.toNat := by omega
    simp only [List.cons_append, List.nil_append, joinUnits, hpair, Bool.and_self, if_true, hpoint,
      Char.ofNat_toNat]

theorem joinUnits_flatMap (cs : List Char) : joinUnits (cs.flatMap codeUnits) = cs := by
  induction cs with
  | nil => rfl
  | cons c cs ih => rw [List.flatMap_cons, joinUnits_codeUnits, ih]

theorem readText_flatMap (s : String) (rest : List Char) :
    readText (s.toList.flatMap charText ++ '"' :: rest) = some (s, rest) := by
  have hs : String.ofList (joinUnits (s.toList.flatMap codeUnits)) = s := by
    rw [joinUnits_flatMap, String.ofList_toList]
  simp only [readText, units_flatMap, Option.map_some, hs]

def pairs (entries : List (String × Value)) : List (Value × Value) :=
  entries.map fun e => (.text e.1, e.2)

@[simp] theorem pairs_nil : pairs [] = [] := rfl

@[simp] theorem pairs_cons (e : String × Value) (entries : List (String × Value)) :
    pairs (e :: entries) = (.text e.1, e.2) :: pairs entries := rfl

inductive Plain : Value → Prop
  | text (s : String) : Plain (.text s)
  | bool (b : Bool) : Plain (.bool b)
  | mapping {entries : List (String × Value)} (hkeys : (entries.map Prod.fst).Nodup)
      (h : ∀ e ∈ entries, Plain e.2) : Plain (.mapping (pairs entries))

theorem sameKey_text (a b : String) : Value.sameKey (.text a) (.text b) = (a == b) := by
  simp [Value.sameKey, Value.equal, Value.equalScalar, Value.number?]

theorem insert_new {entries : List (String × Value)} {key : String} {v : Value}
    (h : key ∉ entries.map Prod.fst) :
    Value.insert (.text key) v (pairs entries) = pairs (entries ++ [(key, v)]) := by
  induction entries with
  | nil => rfl
  | cons e entries ih =>
      simp only [List.map_cons, List.mem_cons, not_or] at h
      have hkey : (e.1 == key) = false := beq_eq_false_iff_ne.2 (Ne.symm h.1)
      simp [Value.insert, sameKey_text, hkey, ih h.2]

theorem foldl_insert {entries more : List (String × Value)}
    (h : ((entries ++ more).map Prod.fst).Nodup) :
    (pairs more).foldl (fun m e => Value.insert e.1 e.2 m) (pairs entries) =
      pairs (entries ++ more) := by
  induction more generalizing entries with
  | nil => simp
  | cons e more ih =>
      have hsplit : entries ++ e :: more = (entries ++ [e]) ++ more := by simp
      have hnew : e.1 ∉ entries.map Prod.fst := by
        rw [List.map_append, List.map_cons] at h
        exact fun hmem => List.disjoint_of_nodup_append h hmem List.mem_cons_self
      have hinsert := ih (hsplit ▸ h)
      rw [← hsplit, ← insert_new hnew] at hinsert
      exact hinsert

theorem skip_quote (cs : List Char) : skip ('"' :: cs) = '"' :: cs := rfl

theorem skip_skip (cs : List Char) : skip (skip cs) = skip cs := by
  induction cs with
  | nil => rfl
  | cons c cs ih =>
      simp only [skip, List.dropWhile_cons] at ih ⊢
      split
      · exact ih
      · rename_i hc
        rw [List.dropWhile_cons, if_neg hc]

theorem readValue_skip (n : Nat) (cs : List Char) : readValue n (skip cs) = readValue n cs := by
  cases n with
  | zero => rfl
  | succ n => simp only [readValue, skip_skip]

theorem readEntries_skip (n : Nat) (cs : List Char) :
    readEntries n (skip cs) = readEntries n cs := by
  cases n with
  | zero => rfl
  | succ n => simp only [readEntries, skip_skip]

theorem skip_newline (depth : Nat) (cs : List Char) :
    skip ((newline depth).toList ++ cs) = skip cs := by
  have hspaces : skip (List.replicate (2 * depth) ' ' ++ cs) = skip cs := by
    induction 2 * depth with
    | zero => rfl
    | succ n ih => exact ih
  have htext : (newline depth).toList = '\n' :: List.replicate (2 * depth) ' ' := by
    simp [newline]
  rw [htext]
  exact hspaces

def entryText (depth : Nat) (e : String × Value) : String :=
  textText e.1 ++ ": " ++ render depth e.2

theorem renderEntries_map (depth : Nat) (entries : List (String × Value)) :
    renderEntries depth (pairs entries) = entries.map (entryText depth) := by
  induction entries with
  | nil => rfl
  | cons e entries ih =>
      rw [pairs_cons, renderEntries, ih]
      rfl

theorem toList_entryText (depth : Nat) (e : String × Value) : (entryText depth e).toList =
    '"' :: (e.1.toList.flatMap charText ++ '"' :: ':' :: ' ' :: (render depth e.2).toList) := by
  simp [entryText, textText]

section

variable {n depth outer : Nat} {e : String × Value} {rest : List Char}

theorem readEntries_entry {after : List Char} {es : List (Value × Value)}
    (hv : readValue n ((render depth e.2).toList ++ after) = some (e.2, after))
    (hafter : (skip after = '}' :: rest ∧ es = []) ∨
      ∃ cs, skip after = ',' :: cs ∧ readEntries n cs = some (es, rest)) :
    readEntries (n + 1) ((entryText depth e).toList ++ after) =
      some ((.text e.1, e.2) :: es, rest) := by
  have hvalue : readValue n (' ' :: ((render depth e.2).toList ++ after)) = some (e.2, after) := by
    rw [← readValue_skip] at hv ⊢
    exact hv
  have hcolon (cs : List Char) : skip (':' :: cs) = ':' :: cs := rfl
  rw [toList_entryText]
  simp only [List.cons_append, List.append_assoc, readEntries, skip_quote, readText_flatMap, hcolon,
    hvalue, Option.bind_eq_bind, Option.bind_some, Option.pure_def]
  rcases hafter with ⟨hclose, rfl⟩ | ⟨cs, hcomma, hmore⟩
  · simp only [hclose]
  · simp only [hcomma, hmore, Option.bind_some]

def entryLines (depth : Nat) (entries : List (String × Value)) : List Char :=
  (',' :: (newline depth).toList).intercalate (entries.map fun e => (entryText depth e).toList)

theorem length_render_lt (depth : Nat) (e : String × Value) :
    (render depth e.2).toList.length < (entryText depth e).toList.length := by
  rw [toList_entryText]
  simp only [List.length_cons, List.length_append]
  omega

theorem entryLines_single (e : String × Value) :
    entryLines depth [e] = (entryText depth e).toList := by
  simp [entryLines]

theorem entryLines_cons (e e' : String × Value) (entries : List (String × Value)) :
    entryLines depth (e :: e' :: entries) = (entryText depth e).toList ++
      (',' :: ((newline depth).toList ++ entryLines depth (e' :: entries))) := by
  simp [entryLines]

theorem readEntries_entryLines {entries : List (String × Value)}
    (hread : ∀ e ∈ entries, ∀ m cs, (render depth e.2).toList.length ≤ m →
      readValue m ((render depth e.2).toList ++ cs) = some (e.2, cs))
    (hne : entries ≠ []) (hn : (entryLines depth entries).length ≤ n) :
    readEntries n (entryLines depth entries ++ ((newline outer).toList ++ '}' :: rest)) =
      some (pairs entries, rest) := by
  induction entries generalizing n with
  | nil => exact absurd rfl hne
  | cons e entries ih =>
      obtain ⟨hfirst, hothers⟩ := List.forall_mem_cons.1 hread
      have hlt := length_render_lt depth e
      cases entries with
      | nil =>
          rw [entryLines_single] at hn ⊢
          obtain ⟨m, rfl⟩ : ∃ m, n = m + 1 := ⟨n - 1, by omega⟩
          exact readEntries_entry (hfirst m _ (by omega)) (.inl ⟨skip_newline outer _, rfl⟩)
      | cons e' entries =>
          rw [entryLines_cons] at hn ⊢
          simp only [List.length_append, List.length_cons] at hn
          obtain ⟨m, rfl⟩ : ∃ m, n = m + 1 := ⟨n - 1, by omega⟩
          have hmore := ih hothers (by simp) (n := m) (by omega)
          rw [← readEntries_skip] at hmore
          rw [List.append_assoc, List.cons_append, List.append_assoc]
          refine readEntries_entry (hfirst m _ (by omega)) (.inr ⟨_, rfl, ?_⟩)
          rw [← readEntries_skip, skip_newline]
          exact hmore

end

theorem toList_render_mapping (depth : Nat) {entries : List (String × Value)} (hne : entries ≠ []) :
    (render depth (.mapping (pairs entries))).toList =
      '{' :: ((newline (depth + 1)).toList ++ entryLines (depth + 1) entries ++
        (newline depth).toList ++ ['}']) := by
  simp [render, renderEntries_map, bracketed, hne, entryLines, Function.comp_def]

theorem toList_render_empty (depth : Nat) :
    (render depth (.mapping [])).toList = ['{', '}'] := by
  simp [render, bracketed, renderEntries]

theorem exists_entryLines (depth : Nat) {entries : List (String × Value)} (hne : entries ≠ []) :
    ∃ cs, entryLines depth entries = '"' :: cs := by
  obtain ⟨e, entries, rfl⟩ := List.exists_cons_of_ne_nil hne
  cases entries with
  | nil => exact ⟨_, by rw [entryLines_single, toList_entryText]⟩
  | cons e' entries => exact ⟨_, by rw [entryLines_cons, toList_entryText, List.cons_append]⟩

theorem readWord_append (word : String) (v : Value) (rest : List Char) :
    readWord word v (word.toList ++ rest) = some (v, rest) := by
  have hpart : word.toList.isPrefixOf (word.toList ++ rest) = true := by simp
  rw [readWord, if_pos hpart, ← String.length_toList, List.drop_left]

theorem readValue_mapping {n depth : Nat} {entries : List (String × Value)} (hne : entries ≠ [])
    (hkeys : (entries.map Prod.fst).Nodup) {after rest : List Char}
    (h : readEntries n (entryLines depth entries ++ after) = some (pairs entries, rest)) :
    readValue (n + 1) ('{' :: ((newline depth).toList ++ (entryLines depth entries ++ after))) =
      some (.mapping (pairs entries), rest) := by
  obtain ⟨cs, hcs⟩ := exists_entryLines depth hne
  have hbrace (cs : List Char) : skip ('{' :: cs) = '{' :: cs := rfl
  rw [hcs, List.cons_append] at h
  simp only [hcs, List.cons_append, readValue, hbrace, skip_newline, skip_quote]
  -- the text goes on with a quote, so the mapping is not empty
  change (readEntries n ('"' :: (cs ++ after))).map _ = _
  rw [h, Option.map_some]
  have hentries := @foldl_insert [] entries hkeys
  exact congrArg (fun es => some (Value.mapping es, rest)) hentries

theorem readValue_render {v : Value} (h : Plain v) (depth n : Nat) (rest : List Char)
    (hn : (render depth v).toList.length ≤ n) :
    readValue n ((render depth v).toList ++ rest) = some (v, rest) := by
  induction h generalizing depth n rest with
  | text s =>
      have htext : (render depth (.text s)).toList =
          '"' :: (s.toList.flatMap charText ++ ['"']) := by simp [render, textText]
      rw [htext] at hn ⊢
      obtain ⟨m, rfl⟩ : ∃ m, n = m + 1 := ⟨n - 1, by simp at hn; omega⟩
      simp only [List.cons_append, List.append_assoc, List.nil_append, readValue, skip_quote,
        readText_flatMap, Option.map_some]
  | bool b =>
      cases b with
      | false =>
          have hword := readWord_append "alse" (.bool false) rest
          obtain ⟨m, rfl⟩ : ∃ m, n = m + 1 := ⟨n - 1, by simp [render] at hn; omega⟩
          simpa [render, readValue, skip] using hword
      | true =>
          have hword := readWord_append "rue" (.bool true) rest
          obtain ⟨m, rfl⟩ : ∃ m, n = m + 1 := ⟨n - 1, by simp [render] at hn; omega⟩
          simpa [render, readValue, skip] using hword
  | @mapping entries hkeys _ ih =>
      by_cases hne : entries = []
      · subst hne
        rw [pairs_nil, toList_render_empty] at hn ⊢
        obtain ⟨m, rfl⟩ : ∃ m, n = m + 1 := ⟨n - 1, by simp at hn; omega⟩
        rfl
      · rw [toList_render_mapping depth hne] at hn ⊢
        simp only [List.length_cons, List.length_append] at hn
        obtain ⟨m, rfl⟩ : ∃ m, n = m + 1 := ⟨n - 1, by omega⟩
        rw [List.cons_append, List.append_assoc, List.append_assoc, List.append_assoc]
        exact readValue_mapping hne hkeys
          (readEntries_entryLines (fun e he => ih e he (depth + 1)) hne (by omega))

theorem parse?_render {v : Value} (h : Plain v) (depth : Nat) (more : List Char) :
    parse? (String.ofList ((render depth v).toList ++ more)) =
      if (skip more).isEmpty then some v else none := by
  have hread := readValue_render h depth (2 * ((render depth v).toList ++ more).length + 2) more
    (by simp only [List.length_append]; omega)
  simp only [parse?, String.toList_ofList, hread]

theorem return_notMem_unit {n : Nat} (h : n < 0x10000) : '\r' ∉ unit n := by
  have hdigit {d : Nat} (hd : d < 16) : '\r' ≠ d.digitChar := by
    have hall : ∀ d ∈ List.range 16, '\r' ≠ d.digitChar := by decide
    exact hall d (List.mem_range.2 hd)
  rw [unit, hexDigits_four h]
  simp only [List.mem_cons, not_or]
  exact ⟨by decide, by decide, hdigit (by omega), hdigit (by omega), hdigit (by omega),
    hdigit (by omega), by simp⟩

theorem return_notMem_charText (c : Char) : '\r' ∉ charText c := by
  have hbound := toNat_lt c
  unfold charText
  split
  · decide
  · decide
  · decide
  · decide
  · decide
  · split
    · decide
    · split
      · decide
      · split
        · rename_i hplain
          intro hmem
          rw [← List.mem_singleton.1 hmem] at hplain
          exact absurd hplain.1 (by decide)
        · unfold escaped
          split
          · exact return_notMem_unit (by omega)
          · refine List.not_mem_append ?_ ?_
            · exact return_notMem_unit (by omega)
            · exact return_notMem_unit (by omega)

theorem return_notMem_newline (depth : Nat) : '\r' ∉ (newline depth).toList := by
  simp [newline]

theorem return_notMem_textText (s : String) : '\r' ∉ (textText s).toList := by
  simp [textText, return_notMem_charText]

theorem return_notMem_entryLines {depth : Nat} {entries : List (String × Value)}
    (h : ∀ e ∈ entries, '\r' ∉ (render depth e.2).toList) : '\r' ∉ entryLines depth entries := by
  have hline {e : String × Value} (he : '\r' ∉ (render depth e.2).toList) :
      '\r' ∉ (entryText depth e).toList := by
    simp [entryText, return_notMem_textText, he]
  induction entries with
  | nil => simp [entryLines]
  | cons e entries ih =>
      obtain ⟨hfirst, hothers⟩ := List.forall_mem_cons.1 h
      cases entries with
      | nil => simpa [entryLines] using hline hfirst
      | cons e' entries =>
          rw [entryLines_cons]
          simp [hline hfirst, return_notMem_newline, ih hothers]

theorem return_notMem_render {v : Value} (h : Plain v) (depth : Nat) :
    '\r' ∉ (render depth v).toList := by
  induction h generalizing depth with
  | text s => exact return_notMem_textText s
  | bool b =>
      cases b with
      | false => simp [render]
      | true => simp [render]
  | @mapping entries _ _ ih =>
      by_cases hne : entries = []
      · subst hne
        simp [toList_render_empty]
      · rw [toList_render_mapping depth hne]
        have hlines := return_notMem_entryLines fun e he => ih e he (depth + 1)
        simp [return_notMem_newline, hlines]

end Gosmith.Settings.Json
