import Gosmith.Go.SourceFile
import Gosmith.Proofs.Lexeme.LineEnd

namespace Gosmith.Go.Declaration

def QualifierAt (ts : List Token) (i : Nat) : Prop :=
  ∃ t u, ts[i]? = some t ∧ ts[i + 1]? = some u ∧ t.kind = .ident ∧ u.text = "." ∧
    ∀ j v, i = j + 1 → ts[j]? = some v → v.text ≠ "."

def textBefore (before : Option String) (ts : List Token) : Nat → Option String
  | 0 => before
  | i + 1 => ts[i]?.map Token.text

theorem isQualifier_congr {a b : Option String} (h : a = some "." ↔ b = some ".") (ts : List Token) :
    isQualifier a ts = isQualifier b ts := by
  have hne : (a != some ".") = (b != some ".") := by
    by_cases hb : b = some "."
    · rw [h.2 hb, hb]
    · rw [bne_iff_ne.2 hb, bne_iff_ne.2 (mt h.1 hb)]
  match ts with
  | [] => rfl
  | [t] => rfl
  | t :: u :: rest => simp only [isQualifier, hne]

theorem kind_of_isQualifier {before : Option String} {t : Token} {ts : List Token}
    (h : isQualifier before (t :: ts) = true) : t.kind = .ident := by
  cases ts with
  | nil => simp [isQualifier] at h
  | cons u rest =>
      simp only [isQualifier, Bool.and_eq_true, beq_iff_eq] at h
      exact h.1.1

theorem qualifierAt_iff (ts : List Token) (i : Nat) :
    isQualifier (textBefore none ts i) (ts.drop i) = true ↔ QualifierAt ts i := by
  have hbefore : textBefore none ts i ≠ some "." ↔
      ∀ j v, i = j + 1 → ts[j]? = some v → v.text ≠ "." := by
    cases i with
    | zero => simp [textBefore]
    | succ i =>
        constructor
        · intro h j v hij hv hdot
          obtain rfl : i = j := by omega
          exact h (by simp [textBefore, hv, hdot])
        · intro h hdot
          obtain ⟨v, hv, htext⟩ := Option.map_eq_some_iff.1 hdot
          exact h i v rfl hv htext
  have hthis : (ts.drop i)[0]? = ts[i]? := by simp
  have hnext : (ts.drop i)[1]? = ts[i + 1]? := by simp
  unfold QualifierAt
  rw [← hthis, ← hnext]
  match ts.drop i with
  | [] => simp [isQualifier]
  | [t] => simp [isQualifier]
  | t :: u :: rest => simp [isQualifier, hbefore, and_assoc]

def renamed (renames : List (String × String)) (t : Token) : Token :=
  { t with text := (renames.lookup t.text).getD t.text }

section

variable {renames : List (String × String)}

theorem renamed_eq_self {t : Token} (h : renames.lookup t.text = none) : renamed renames t = t := by
  simp [renamed, h]

theorem renameTokens_cons (before : Option String) (t : Token) (ts : List Token) :
    renameTokens renames before (t :: ts) =
      (if isQualifier before (t :: ts) then renamed renames t else t) ::
        renameTokens renames
          (some (if isQualifier before (t :: ts) then renamed renames t else t).text) ts := by
  rw [renameTokens]
  cases h : renames.lookup t.text with
  | none => simp [renamed, h]
  | some new => simp [renamed, h]

def KeepsDots (renames : List (String × String)) : Prop :=
  ∀ name, (renames.lookup name).getD name = "." ↔ name = "."

theorem length_renameTokens (before : Option String) (ts : List Token) :
    (renameTokens renames before ts).length = ts.length := by
  induction ts generalizing before with
  | nil => rfl
  | cons t ts ih => rw [renameTokens_cons, List.length_cons, List.length_cons, ih]

theorem getElem?_renameTokens (hdots : KeepsDots renames) (before : Option String)
    (ts : List Token) (i : Nat) : (renameTokens renames before ts)[i]? =
      ts[i]?.map fun t =>
        if isQualifier (textBefore before ts i) (ts.drop i) then renamed renames t else t := by
  induction ts generalizing before i with
  | nil => rfl
  | cons t ts ih =>
      rw [renameTokens_cons]
      cases i with
      | zero => rfl
      | succ i =>
          rw [List.getElem?_cons_succ, ih, List.getElem?_cons_succ, List.drop_succ_cons]
          have hsame : isQualifier (textBefore (some (if isQualifier before (t :: ts) then
              renamed renames t else t).text) ts i) (ts.drop i) =
              isQualifier (textBefore before (t :: ts) (i + 1)) (ts.drop i) := by
            refine isQualifier_congr ?_ _
            cases i with
            | zero =>
                simp only [textBefore, List.getElem?_cons_zero, Option.map_some, Option.some.injEq]
                split
                · exact hdots t.text
                · rfl
            | succ i => rfl
          rw [hsame]

theorem renameTokens_of_qualifier (hdots : KeepsDots renames) {ts : List Token} {i : Nat}
    {t : Token} (ht : ts[i]? = some t) (hq : QualifierAt ts i) :
    (renameTokens renames none ts)[i]? = some (renamed renames t) := by
  rw [getElem?_renameTokens hdots, ht, Option.map_some, if_pos ((qualifierAt_iff ts i).2 hq)]

theorem renameTokens_of_other (hdots : KeepsDots renames) {ts : List Token} {i : Nat}
    {t : Token} (ht : ts[i]? = some t) (hq : ¬ QualifierAt ts i) :
    (renameTokens renames none ts)[i]? = some t := by
  rw [getElem?_renameTokens hdots, ht, Option.map_some, if_neg (mt (qualifierAt_iff ts i).1 hq)]

theorem keepsDots_of_ne_dot (h : ∀ p ∈ renames, p.1 ≠ "." ∧ p.2 ≠ ".") : KeepsDots renames := by
  intro name
  cases hl : renames.lookup name with
  | none => rfl
  | some new =>
      obtain ⟨l₁, l₂, rfl, -⟩ := List.lookup_eq_some_iff.1 hl
      have hpair := h (name, new) (by simp)
      exact iff_of_false hpair.2 hpair.1

def mark (t : Token) : Token.Kind × Bool :=
  (t.kind, t.text == ".")

theorem map_mark_renameTokens (hdots : KeepsDots renames) (before : Option String)
    (ts : List Token) : (renameTokens renames before ts).map mark = ts.map mark := by
  have hmark (t : Token) : mark (renamed renames t) = mark t := by
    simp only [mark, renamed, Prod.mk.injEq, true_and]
    rw [Bool.eq_iff_iff, beq_iff_eq, beq_iff_eq]
    exact hdots t.text
  induction ts generalizing before with
  | nil => rfl
  | cons t ts ih =>
      rw [renameTokens_cons, List.map_cons, List.map_cons, ih]
      split
      · rw [hmark]
      · rfl

theorem exists_of_mark {ts ts' : List Token} (hmark : ts.map mark = ts'.map mark) {i : Nat}
    {t : Token} (ht : ts[i]? = some t) :
    ∃ t', ts'[i]? = some t' ∧ t'.kind = t.kind ∧ (t'.text = "." ↔ t.text = ".") := by
  have hi := congrArg (·[i]?) hmark
  simp only [List.getElem?_map, ht, Option.map_some] at hi
  obtain ⟨t', ht', hsame⟩ := Option.map_eq_some_iff.1 hi.symm
  obtain ⟨hkind, hdot⟩ := Prod.mk.inj hsame
  exact ⟨t', ht', hkind, by simpa using Bool.eq_iff_iff.1 hdot⟩

theorem QualifierAt.of_mark {ts ts' : List Token} {i : Nat} (h : QualifierAt ts i)
    (hmark : ts.map mark = ts'.map mark) : QualifierAt ts' i := by
  obtain ⟨t, u, ht, hu, hkind, hdot, hbefore⟩ := h
  obtain ⟨t', ht', hkind', -⟩ := exists_of_mark hmark ht
  obtain ⟨u', hu', -, hdot'⟩ := exists_of_mark hmark hu
  refine ⟨t', u', ht', hu', hkind'.trans hkind, hdot'.2 hdot, fun j v hj hv => ?_⟩
  obtain ⟨w, hw, -, hdotw⟩ := exists_of_mark hmark.symm hv
  exact mt hdotw.2 (hbefore j w hj hw)

theorem qualifierAt_renameTokens (hdots : KeepsDots renames) (ts : List Token) (i : Nat) :
    QualifierAt (renameTokens renames none ts) i ↔ QualifierAt ts i :=
  ⟨fun h => h.of_mark (map_mark_renameTokens hdots none ts),
    fun h => h.of_mark (map_mark_renameTokens hdots none ts).symm⟩

theorem lookup_iff_mem {l : List (String × String)} (h : (l.map Prod.fst).Nodup)
    {key value : String} : l.lookup key = some value ↔ (key, value) ∈ l := by
  rw [List.lookup_eq_some_iff]
  constructor
  · rintro ⟨l₁, l₂, rfl, -⟩
    simp
  · intro hmem
    obtain ⟨l₁, l₂, rfl⟩ := List.append_of_mem hmem
    refine ⟨l₁, l₂, rfl, fun p hp => ?_⟩
    rw [List.map_append, List.nodup_append] at h
    have hne := h.2.2 p.1 (List.mem_map_of_mem hp) key (by simp)
    simpa using hne.symm

theorem lookup_eq_none_iff_notMem {l : List (String × String)} {key : String} :
    l.lookup key = none ↔ key ∉ l.map Prod.fst := by
  rw [List.lookup_eq_none_iff, List.mem_map]
  constructor
  · rintro h ⟨p, hp, rfl⟩
    simpa using h p hp
  · intro h p hp
    have hne : key ≠ p.1 := fun heq => h ⟨p, hp, heq.symm⟩
    simpa using hne

theorem renamed_swap (hkeys : (renames.map Prod.fst).Nodup) (hvalues : (renames.map Prod.snd).Nodup)
    {t : Token} (hfree : t.text ∈ renames.map Prod.snd → t.text ∈ renames.map Prod.fst) :
    renamed (renames.map Prod.swap) (renamed renames t) = t := by
  have hback : ((renames.map Prod.swap).map Prod.fst).Nodup := by
    rwa [List.map_map, show Prod.fst ∘ Prod.swap = (Prod.snd : String × String → String) from rfl]
  cases hl : renames.lookup t.text with
  | some new =>
      have hmem : (new, t.text) ∈ renames.map Prod.swap :=
        List.mem_map.2 ⟨_, (lookup_iff_mem hkeys).1 hl, rfl⟩
      simp [renamed, hl, (lookup_iff_mem hback).2 hmem]
  | none =>
      -- a name that is kept is no new name, so the way back keeps it too
      have hvalue : t.text ∉ (renames.map Prod.swap).map Prod.fst := by
        rw [List.map_map]
        exact fun hmem => lookup_eq_none_iff_notMem.1 hl (hfree hmem)
      rw [renamed_eq_self hl, renamed_eq_self (lookup_eq_none_iff_notMem.2 hvalue)]

theorem renameTokens_swap (hkeys : (renames.map Prod.fst).Nodup)
    (hvalues : (renames.map Prod.snd).Nodup) (hnames : ∀ p ∈ renames, p.1 ≠ "." ∧ p.2 ≠ ".")
    {ts : List Token} (hfree : ∀ i t, QualifierAt ts i → ts[i]? = some t →
      t.text ∈ renames.map Prod.snd → t.text ∈ renames.map Prod.fst) :
    renameTokens (renames.map Prod.swap) none (renameTokens renames none ts) = ts := by
  have hdots := keepsDots_of_ne_dot hnames
  have hback : KeepsDots (renames.map Prod.swap) := by
    refine keepsDots_of_ne_dot fun p hp => ?_
    obtain ⟨q, hq, rfl⟩ := List.mem_map.1 hp
    exact (hnames q hq).symm
  refine List.ext_getElem? fun i => ?_
  cases ht : ts[i]? with
  | none =>
      rw [getElem?_renameTokens hback, getElem?_renameTokens hdots, ht, Option.map_none,
        Option.map_none]
  | some t =>
      have hplace := qualifierAt_renameTokens hdots ts i
      by_cases hq : QualifierAt ts i
      · have hfirst := renameTokens_of_qualifier hdots ht hq
        rw [renameTokens_of_qualifier hback hfirst (hplace.2 hq),
          renamed_swap hkeys hvalues (hfree i t hq ht)]
      · have hfirst := renameTokens_of_other hdots ht hq
        exact renameTokens_of_other hback hfirst (mt hplace.1 hq)

end

theorem renameQualifiers_reversible (d : Declaration) {renames : List (String × String)}
    (hkeys : (renames.map Prod.fst).Nodup) (hnames : ∀ p ∈ renames, p.1 ≠ "." ∧ p.2 ≠ ".") :
    (∃ ts, d.renameQualifiers renames = { d with tokens := ts } ∧ ts.length = d.tokens.length ∧
      ∀ i t, d.tokens[i]? = some t → ∃ text, ts[i]? = some { t with text := text } ∧
        (∀ new, QualifierAt d.tokens i → (t.text, new) ∈ renames → text = new) ∧
        (¬ QualifierAt d.tokens i ∨ t.text ∉ renames.map Prod.fst → text = t.text)) ∧
    ((renames.map Prod.snd).Nodup →
      (∀ i t, QualifierAt d.tokens i → d.tokens[i]? = some t →
        t.text ∈ renames.map Prod.snd → t.text ∈ renames.map Prod.fst) →
      (d.renameQualifiers renames).renameQualifiers (renames.map Prod.swap) = d) := by
  have hdots := keepsDots_of_ne_dot hnames
  refine ⟨⟨_, rfl, length_renameTokens none d.tokens, fun i t ht => ?_⟩, fun hvalues hfree => ?_⟩
  · by_cases hq : QualifierAt d.tokens i
    · refine ⟨_, renameTokens_of_qualifier hdots ht hq, fun new _ hmem => ?_, fun hor => ?_⟩
      · rw [(lookup_iff_mem hkeys).2 hmem, Option.getD_some]
      · rw [lookup_eq_none_iff_notMem.2 (hor.resolve_left (not_not.2 hq)), Option.getD_none]
    · exact ⟨t.text, renameTokens_of_other hdots ht hq, fun _ h => absurd h hq, fun _ => rfl⟩
  · have htokens := renameTokens_swap hkeys hvalues hnames hfree
    simp only [renameQualifiers, htokens]

def exchange : List (String × String) :=
  [("a", "b"), ("b", "a"), ("c", "d")]

def exchangeSource : String :=
  "package p\nvar v = a.b.c + b.x(c.d)"

def exchangeTexts : List String :=
  ["var", "v", "=", "a", ".", "b", ".", "c", "+", "b", ".", "x", "(", "c", ".", "d", ")"]

def exchangedTexts : List String :=
  ["var", "v", "=", "b", ".", "b", ".", "c", "+", "a", ".", "x", "(", "d", ".", "d", ")"]

theorem renameQualifiers_reversible_exchange :
    (exchange.map Prod.fst).Nodup ∧ (∀ p ∈ exchange, p.1 ≠ "." ∧ p.2 ≠ ".") ∧
      (exchange.map Prod.snd).Nodup ∧
      ∃ file d, SourceFile.ofSource exchangeSource = .ok file ∧ file.decls = [d] ∧
        (∀ i t, QualifierAt d.tokens i → d.tokens[i]? = some t →
          t.text ∈ exchange.map Prod.snd → t.text ∈ exchange.map Prod.fst) ∧
        (d.renameQualifiers exchange).tokens.map Token.text = exchangedTexts ∧
        (d.renameQualifiers exchange).renameQualifiers (exchange.map Prod.swap) = d := by
  have hkeys : (exchange.map Prod.fst).Nodup := by decide
  have hnames : ∀ p ∈ exchange, p.1 ≠ "." ∧ p.2 ≠ "." := by decide
  have hvalues : (exchange.map Prod.snd).Nodup := by decide
  have hview : (SourceFile.ofSource exchangeSource).toOption.map (fun file =>
      file.decls.map fun d => (d.tokens.map Token.text,
        (d.renameQualifiers exchange).tokens.map Token.text)) =
      some [(exchangeTexts, exchangedTexts)] := by
    decide +kernel
  obtain ⟨file, hfile, hdecls⟩ := exists_ok_of_view hview
  obtain ⟨d, hd, htexts⟩ := List.map_eq_singleton_iff.1 hdecls
  obtain ⟨hbefore, hafter⟩ := Prod.mk.inj htexts
  have hfree : ∀ i t, QualifierAt d.tokens i → d.tokens[i]? = some t →
      t.text ∈ exchange.map Prod.snd → t.text ∈ exchange.map Prod.fst := by
    rintro i t ⟨_, u, -, hu, -, hdot, -⟩ ht hmem
    have hthis : exchangeTexts[i]? = some t.text := by
      rw [← hbefore, List.getElem?_map, ht, Option.map_some]
    have hnext : exchangeTexts[i + 1]? = some "." := by
      rw [← hbefore, List.getElem?_map, hu, Option.map_some, hdot]
    have hlast : ∀ j < exchangeTexts.length, exchangeTexts[j + 1]? = some "." →
        exchangeTexts[j]? ≠ some "d" := by decide
    have hne : t.text ≠ "d" := fun heq =>
      hlast i (List.getElem?_eq_some_iff.1 hthis).1 hnext (heq ▸ hthis)
    simp only [exchange, List.map_cons, List.map_nil, List.mem_cons, List.not_mem_nil, or_false]
      at hmem ⊢
    tauto
  exact ⟨hkeys, hnames, hvalues, file, d, hfile, hd, hfree, hafter,
    (renameQualifiers_reversible d hkeys hnames).2 hvalues hfree⟩

end Gosmith.Go.Declaration
