import Gosmith.Proofs.Layout.Printed

namespace Gosmith.Go

open Gosmith.Text

namespace Token

def fuses (t : Token) (more : List Char) : Bool :=
  match t.kind with
  | .ident | .keyword => Piece.fuses ⟨.word, t.text.toList⟩ more
  | .int | .float | .imag => Piece.fuses ⟨.number, t.text.toList⟩ more
  | .op => Piece.fuses ⟨.op, t.text.toList⟩ more
  | _ => false

def isSignificant (kind : Kind) : Bool :=
  kind != .semicolon && kind != .eof

def significant (ts : List Token) : List (Kind × String) :=
  (ts.map key).filter fun k => isSignificant k.1

theorem significant_cons (t : Token) (ts : List Token) : significant (t :: ts) =
    if isSignificant t.kind then t.key :: significant ts else significant ts := by
  simp only [significant, List.map_cons, List.filter_cons]
  rfl

theorem significant_written (ts : List Token) : significant (written ts) = significant ts := by
  simp only [significant, written, List.filter_map, List.filter_filter]
  congr 1
  refine List.filter_congr fun t _ => ?_
  simp only [Function.comp, key, isSignificant, isAuto]
  cases t.kind <;> simp

end Token

namespace Piece

theorem fuses_semicolon (more : List Char) : fuses ⟨.op, [';']⟩ more = false := by
  have hlone : ∀ o ∈ operators, 1 < o.toList.length → o.toList.head? ≠ some ';' := by decide
  simp only [fuses, Bool.or_eq_false_iff, List.any_eq_false, Bool.and_eq_true, decide_eq_true_eq,
    List.isPrefixOf_iff_prefix, not_and]
  refine ⟨fun o ho hlt hpre => hlone o ho hlt ?_, rfl⟩
  obtain ⟨rest, hrest⟩ := hpre
  obtain ⟨c, cs, hocs⟩ := List.exists_cons_of_ne_nil (operators_ne_nil o ho)
  rw [hocs, List.cons_append, List.cons_append, List.cons.injEq] at hrest
  simp [hocs, hrest.1]

theorem fuses_of_key {t : Token} {p : Piece} (hp : Lexeme p) (h : t.key = p.key)
    (more : List Char) : t.fuses more = p.fuses more := by
  obtain ⟨kind, text⟩ := p
  have htext := Token.toList_of_key h
  simp only [Token.key, Piece.key, Prod.mk.injEq] at h
  have hgap := hp.isGap
  have hm := makes ⟨kind, text⟩
  rw [← h.1] at hm
  generalize hk : t.kind = k at hm
  cases hm with
  | string h => rcases h with rfl | rfl <;> simp [Token.fuses, hk, fuses]
  | char h =>
      cases h
      simp [Token.fuses, hk, fuses]
  | number h hnum =>
      cases h
      rcases hnum with rfl | rfl | rfl <;> simp [Token.fuses, hk, htext]
  | keyword h =>
      cases h
      simp [Token.fuses, hk, htext]
  | ident h =>
      cases h
      simp [Token.fuses, hk, htext]
  | semicolon h ht =>
      obtain rfl : kind = .op := by simpa [hgap] using h
      obtain rfl : text = [';'] := ht
      simp [Token.fuses, hk, fuses_semicolon]
  | op h =>
      obtain rfl : kind = .op := by simpa [hgap] using h
      simp [Token.fuses, hk, htext]

def keys (cs : List Char) : List (Token.Kind × String) :=
  ((lexemes (split cs).1).map key).filter fun k => Token.isSignificant k.1

def Reads (cs : List Char) (ts : List Token) : Prop :=
  (split cs).2 = none ∧ keys cs = Token.significant ts

theorem keys_cons {c : Char} {rest after : List Char} {q : Piece}
    (h : next c rest = .ok (q, after)) (hgap : q.kind.isGap = false) :
    keys (c :: rest) = if Token.isSignificant q.tokenKind then q.key :: keys after else keys after := by
  simp only [keys, split_cons h, lexemes, List.filter_cons, hgap, Bool.not_false, if_true,
    List.map_cons]
  rfl

theorem reads_ofSource {source : String} {us : List Token} :
    (∃ ts, Token.ofSource source = .ok ts ∧ Token.significant ts = Token.significant us) ↔
      Reads source.toList us := by
  have hkeys {ts : List Token} (h : Token.ofSource source = .ok ts) :
      keys source.toList = Token.significant ts := by
    rw [keys, ← Token.written_ofSource h, ← Token.significant_written ts]
    rfl
  constructor
  · rintro ⟨ts, h, hsig⟩
    exact ⟨(Token.ofSource_eq_ok.1 h).1, by rw [hkeys h, hsig]⟩
  · rintro ⟨hnone, hsig⟩
    have h := Token.ofSource_eq_ok.2 ⟨hnone, rfl⟩
    exact ⟨_, h, by rw [← hkeys h, hsig]⟩

theorem reads_cons_gap {c : Char} {rest after : List Char} {q : Piece}
    (h : next c rest = .ok (q, after)) (hgap : q.kind.isGap = true) (ts : List Token) :
    Reads (c :: rest) ts ↔ Reads after ts := by
  simp [Reads, keys, split_cons h, lexemes, hgap]

theorem reads_newline (more : List Char) (ts : List Token) :
    Reads ('\n' :: more) ts ↔ Reads more ts :=
  reads_cons_gap (q := ⟨.newline, ['\n']⟩) (by simp [next, isBlankChar]) rfl ts

theorem reads_blank {c : Char} (hc : isBlankChar c = true) {cs more : List Char}
    (hcs : ∀ d ∈ cs, isBlankChar d = true) (hm : Stops isBlankChar more) (ts : List Token) :
    Reads (c :: (cs ++ more)) ts ↔ Reads more ts := by
  have hnext : next c (cs ++ more) = .ok (⟨.blank, c :: cs⟩, more) := by
    simp [next, hc, takeWhile_append_stops hcs hm, dropWhile_append_stops hcs hm]
  exact reads_cons_gap hnext rfl ts

theorem reads_gap (g : Gap) {more : List Char} (hm : Stops isBlankChar more) (ts : List Token) :
    Reads (g.chars ++ more) ts ↔ Reads more ts := by
  have htabs (depth : Nat) : Reads (List.replicate depth '\t' ++ more) ts ↔ Reads more ts := by
    cases depth with
    | zero => rfl
    | succ n => exact reads_blank (by decide) (by simp [isBlankChar]) hm ts
  cases g with
  | none => rfl
  | space =>
      have hempty : ∀ d ∈ ([] : List Char), isBlankChar d = true := by simp
      exact reads_blank (by decide) hempty hm ts
  | newline blank depth =>
      cases blank with
      | false => exact (reads_newline _ ts).trans (htabs depth)
      | true => exact ((reads_newline _ ts).trans (reads_newline _ ts)).trans (htabs depth)

theorem significant_cons_key {t : Token} {p : Piece} (h : t.key = p.key) (ts : List Token) :
    Token.significant (t :: ts) =
      if Token.isSignificant p.tokenKind then p.key :: Token.significant ts
      else Token.significant ts := by
  rw [Token.significant_cons, h, show t.kind = p.tokenKind from congrArg Prod.fst h]

theorem reads_clear {t : Token} {p : Piece} (hp : Lexeme p) (h : t.key = p.key) {more : List Char}
    (hclear : Clear p more) (ts : List Token) :
    Reads (p.text ++ more) (t :: ts) ↔ Reads more ts := by
  obtain ⟨c, cs, htext, hnext⟩ := next_of_lexeme hp hclear
  rw [Reads, Reads, htext, List.cons_append, keys_cons hnext hp.isGap, split_cons hnext,
    significant_cons_key h]
  split <;> simp

theorem isSignificant_of_head {p : Piece} (h : p.text.head? ≠ some ';') :
    Token.isSignificant p.tokenKind = true := by
  have hsemi : p.tokenKind ≠ .semicolon := fun hk => h (by simp [text_of_semicolon hk])
  simp [Token.isSignificant, hsemi, tokenKind_ne_eof]

theorem head_of_fuses {p : Piece} (hp : Lexeme p) {more : List Char} (hf : p.fuses more = true) :
    p.text.head? ≠ some ';' := by
  intro hhead
  have hlone : ∀ o ∈ operators, o.toList.head? = some ';' → o.toList = [';'] := by decide
  obtain ⟨o, ho, rfl⟩ := hp.operator_of_head hhead (by decide)
  rw [hlone o ho hhead, fuses_semicolon] at hf
  simp at hf

theorem not_reads_fused {t : Token} {p : Piece} (hp : Lexeme p) (h : t.key = p.key)
    {more : List Char} (hparted : Parted p more) (hf : p.fuses more = true) (ts : List Token) :
    ¬ Reads (p.text ++ more) (t :: ts) := by
  obtain ⟨c, cs, q, after, htext, hnext, hgap, hne⟩ := next_of_fuses hp hparted hf
  have hhead := head_of_fuses hp hf
  have hqhead : q.text.head? = p.text.head? := by
    obtain ⟨happ, hqne⟩ := next_append hnext
    obtain ⟨d, ds, hq⟩ := List.exists_cons_of_ne_nil hqne
    rw [hq, List.cons_append, List.cons.injEq] at happ
    rw [hq, htext, happ.1, List.head?_cons, List.head?_cons]
  rintro ⟨-, hkeys⟩
  rw [htext, List.cons_append, keys_cons hnext hgap, significant_cons_key h,
    isSignificant_of_head (hqhead ▸ hhead), isSignificant_of_head hhead, if_pos rfl, if_pos rfl,
    List.cons.injEq] at hkeys
  have hsame := congrArg Prod.snd hkeys.1
  simp only [key] at hsame
  exact hne (by simpa using congrArg String.toList hsame)

end Piece

namespace Layout

def glued : List (Gap × Token) → List Char
  | (.none, t) :: rest => t.text.toList ++ glued rest
  | _ => []

def fusionFree : List (Gap × Token) → Bool
  | [] => true
  | (_, t) :: rest => !t.fuses (glued rest) && fusionFree rest

theorem printed_eq_glued (placed : List (Gap × Token)) :
    ∃ tail, printed placed = glued placed ++ tail ∧ Piece.Spaced tail := by
  induction placed with
  | nil => exact ⟨[], rfl, by simp [Piece.Spaced]⟩
  | cons a rest ih =>
      obtain ⟨g, t⟩ := a
      by_cases hg : g = .none
      · obtain ⟨tail, heq, htail⟩ := ih
        exact ⟨tail, by simp [hg, printed, glued, Gap.chars, heq], htail⟩
      · refine ⟨_, ?_, spaced_chars hg (t.text.toList ++ printed rest)⟩
        cases g with
        | none => exact absurd rfl hg
        | space => rfl
        | newline blank depth => rfl

theorem fuses_printed {t : Token} {p : Piece} (hp : Piece.Lexeme p) (h : t.key = p.key)
    (placed : List (Gap × Token)) : t.fuses (glued placed) = p.fuses (printed placed) := by
  obtain ⟨tail, heq, htail⟩ := printed_eq_glued placed
  rw [heq, p.fuses_append_spaced htail, Piece.fuses_of_key hp h]

theorem head?_printed_flush {t : Token} (ht : t.Lexed) (rest : List (Gap × Token)) :
    (printed ((.none, t) :: rest)).head? = t.text.toList.head? := by
  obtain ⟨c, hc, -⟩ := ht.solid
  have hne : t.text.toList ≠ [] := by
    rintro hnil
    simp [hnil] at hc
  simp [printed, Gap.chars, List.head?_append_of_ne_nil _ hne]

theorem parted_flush {t u : Token} {p : Piece} (hp : Piece.Lexeme p) (h : t.key = p.key)
    (hu : u.Lexed) (hflush : Flush t u) {more : List Char}
    (hhead : more.head? = u.text.toList.head?) : Piece.Parted p more := by
  simp only [Token.key, Piece.key, Prod.mk.injEq] at h
  constructor
  · intro hk c hc
    have hkind : t.kind ≠ .keyword := by
      rw [h.1, Piece.tokenKind, hk]
      rcases Piece.numberKind_cases p.text with hn | hn | hn <;> simp [hn]
    have htext : t.text ∉ Piece.operators := by
      intro hmem
      exact hp.text_ne_operator (by simp [hk]) hmem (by simp [h.2])
    rw [hhead] at hc
    exact Piece.operators_no_word (hflush.operand hkind htext) c hc
  · intro hslash
    have hcomment : ∀ o ∈ Piece.operators,
        o.toList.head? = some '/' ∨ o.toList.head? = some '*' → o ∈ ["/", "/=", "*", "*="] := by
      decide
    have hne {c : Char} (hc : c = '/' ∨ c = '*') : more.head? ≠ some c := by
      intro hmore
      obtain ⟨q, hq, hkey⟩ := hu
      have hqtext := Token.toList_of_key hkey
      rw [hhead, hqtext] at hmore
      obtain ⟨o, ho, rfl⟩ := hq.operator_of_head hmore (by rcases hc with rfl | rfl <;> simp)
      have htext : t.text = "/" := by simp [h.2, hslash]
      obtain rfl : u.text = o := String.toList_inj.1 hqtext
      refine hflush.slash htext (hcomment _ ho ?_)
      rcases hc with rfl | rfl
      · exact .inl hmore
      · exact .inr hmore
    exact ⟨hne (.inl rfl), hne (.inr rfl)⟩

theorem parted_printed {t : Token} {p : Piece} (hp : Piece.Lexeme p) (h : t.key = p.key)
    {g : Gap} {rest : List (Gap × Token)} (hrest : ∀ a ∈ rest, a.2.Lexed)
    (hchain : ((g, t) :: rest).IsChain fun a b => b.1 = .none → Flush a.2 b.2) :
    Piece.Parted p (printed rest) := by
  cases rest with
  | nil => exact Piece.parted_spaced p (by simp [Piece.Spaced, printed])
  | cons a rest =>
      obtain ⟨g', u⟩ := a
      by_cases hg : g' = .none
      · subst hg
        have hu := hrest _ List.mem_cons_self
        have hflush := (List.isChain_cons_cons.1 hchain).1 rfl
        exact parted_flush hp h hu hflush (head?_printed_flush hu rest)
      · exact Piece.parted_spaced p (spaced_chars hg _)

theorem reads_printed {placed : List (Gap × Token)} (hts : ∀ a ∈ placed, a.2.Lexed)
    (hchain : placed.IsChain fun a b => b.1 = .none → Flush a.2 b.2) :
    Piece.Reads (printed placed) (placed.map Prod.snd) ↔ fusionFree placed = true := by
  induction placed with
  | nil => simp [Piece.Reads, Piece.keys, Piece.lexemes, Piece.split, printed, fusionFree,
      Token.significant]
  | cons a rest ih =>
      obtain ⟨g, t⟩ := a
      obtain ⟨⟨p, hp, hkey⟩, hrest⟩ := List.forall_mem_cons.1 hts
      have hparted := parted_printed hp hkey hrest hchain
      have hfuses := fuses_printed hp hkey rest
      rw [printed, Token.toList_of_key hkey, Piece.reads_gap g (hp.stops_blank _), List.map_cons,
        fusionFree, hfuses]
      cases hf : p.fuses (printed rest) with
      | true => simp [Piece.not_reads_fused hp hkey hparted hf]
      | false =>
          rw [Piece.reads_clear hp hkey (Piece.clear_of_not_fuses hparted hf),
            ih hrest hchain.of_cons]
          simp

theorem significant_dropSemicolons (ts : List Token) :
    Token.significant (dropSemicolons ts) = Token.significant ts := by
  induction ts with
  | nil => rfl
  | cons t rest ih =>
      rw [dropSemicolons, Token.significant_cons]
      split
      · rename_i hd
        simp [Token.isSignificant, kind_of_isDropped hd, ih]
      · rw [Token.significant_cons, ih]

end Layout

def Declaration.isFusionFree (d : Declaration) : Bool :=
  match Layout.gaps {} (Layout.dropSemicolons d.tokens) with
  | .ok placed => Layout.fusionFree placed
  | .error _ => false

theorem Declaration.format_keeps_tokens_iff {source : String} {file : SourceFile}
    (h : SourceFile.ofSource source = .ok file) {d : Declaration} (hd : d ∈ file.decls) :
    ∃ text, d.format = .ok text ∧
      ((∃ ts, Token.ofSource text = .ok ts ∧ Token.significant ts = Token.significant d.tokens) ↔
        d.isFusionFree = true) := by
  obtain ⟨ts, hts, hsub, hdecl⟩ := Grammar.decl_of_ofSource h hd
  have hlexed := Layout.lexed_of_mem_dropSemicolons hts hsub hdecl.kind_ne_eof
  have hbalanced : Layout.balanced 0 (Layout.dropSemicolons d.tokens) = true := by
    rw [Layout.balanced_dropSemicolons, Layout.balanced_of_decl hdecl]
  obtain ⟨placed, hplaced⟩ : ∃ placed, Layout.gaps {} (Layout.dropSemicolons d.tokens) = .ok placed :=
    Layout.gaps_of_balanced hbalanced
  have htokens := Layout.gaps_tokens hplaced
  have hmem : ∀ a ∈ placed, a.2.Lexed :=
    fun a ha => hlexed a.2 (htokens ▸ List.mem_map_of_mem ha)
  obtain ⟨text, hformat, htext⟩ := format_of_gaps hplaced hmem
  refine ⟨text, hformat, ?_⟩
  rw [← Layout.significant_dropSemicolons d.tokens, Piece.reads_ofSource, htext, ← htokens,
    Layout.reads_printed hmem (Layout.flush_of_gaps hplaced hlexed)]
  simp [isFusionFree, hplaced]

def sumSource : String :=
  "package p\nfunc(t * T)Sum( xs...int )map [string]int " ++
    braced "\n\n\n  n:=-xs[0]*2 ;return f( <- t.c,1.5 )"

theorem Declaration.format_keeps_tokens_sum : ∃ file, SourceFile.ofSource sumSource = .ok file ∧
    ∃ d ∈ file.decls, ∃ text ts, d.format = .ok text ∧ Token.ofSource text = .ok ts ∧
      Token.significant ts = Token.significant d.tokens := by
  have hfree : (SourceFile.ofSource sumSource).toOption.map
      (fun file => file.decls.map Declaration.isFusionFree) = some [true] := by
    decide +kernel
  cases hfile : SourceFile.ofSource sumSource with
  | error e => simp [hfile, Except.toOption] at hfree
  | ok file =>
      simp only [hfile, Except.toOption, Option.map_some, Option.some.injEq] at hfree
      obtain ⟨d, hdecls, hfree⟩ := List.map_eq_singleton_iff.1 hfree
      have hmem : d ∈ file.decls := by simp [hdecls]
      obtain ⟨text, hformat, hiff⟩ := format_keeps_tokens_iff hfile hmem
      obtain ⟨ts, hts, hsig⟩ := hiff.2 hfree
      exact ⟨file, rfl, d, hmem, text, ts, hformat, hts, hsig⟩

def negationSource : String :=
  "package p\nvar x = - -y"

theorem Declaration.format_fuses_negations : ∃ file, SourceFile.ofSource negationSource = .ok file ∧
    ∃ d ∈ file.decls, d.format = .ok "var x = --y" ∧
      ∀ ts, Token.ofSource "var x = --y" = .ok ts →
        Token.significant ts ≠ Token.significant d.tokens := by
  have hfile : (SourceFile.ofSource negationSource).toOption.map
      (fun file => file.decls.map fun d => (d.format.toOption, Token.significant d.tokens)) =
        some [(some "var x = --y", [(.keyword, "var"), (.ident, "x"), (.op, "="), (.op, "-"),
          (.op, "-"), (.ident, "y")])] := by
    decide +kernel
  have htext : (Token.ofSource "var x = --y").toOption.map Token.significant =
      some [(.keyword, "var"), (.ident, "x"), (.op, "="), (.op, "--"), (.ident, "y")] := by
    decide +kernel
  cases hsource : SourceFile.ofSource negationSource with
  | error e => simp [hsource, Except.toOption] at hfile
  | ok file =>
      simp only [hsource, Except.toOption, Option.map_some, Option.some.injEq] at hfile
      obtain ⟨d, hdecls, hd⟩ := List.map_eq_singleton_iff.1 hfile
      simp only [Prod.mk.injEq] at hd
      refine ⟨file, rfl, d, by simp [hdecls], ?_, fun ts hts heq => ?_⟩
      · cases hformat : d.format with
        | error e => simp [hformat] at hd
        | ok text => simpa [hformat] using hd.1
      · rw [hts] at htext
        simp [Except.toOption, heq, hd.2] at htext

end Gosmith.Go
