import Mathlib.Data.List.Chain
import Gosmith.Proofs.Layout.Idempotence
import Gosmith.Proofs.Lexeme.LineEnd

namespace Gosmith.Go

open Gosmith.Text (braceOpen braceClose braced)

namespace Token

def StartsLine (e t : Token) : Prop :=
  e.isAuto = true → t.kind = .eof ∨ 0 < t.newlinesBefore

namespace Pending

theorem startsLine_run {s : Pending} {e : Token}
    (he : e.isAuto = true → 0 < s.newlines ∧ s.breaks = false) (ps : List Piece) :
    (e :: ((s.run ps).1 ++ (s.run ps).2.finish)).IsChain StartsLine := by
  -- `e` is the last token so far
  have hwritten (hb : s.breaks = true) : e.isAuto = false := by
    refine Bool.eq_false_iff.2 fun hauto => ?_
    simp [(he hauto).2] at hb
  induction ps generalizing s e with
  | nil =>
      rw [run, List.nil_append, finish_eq, lineEnd]
      cases hb : s.breaks with
      | false => simp [StartsLine, eof]
      | true => simp [StartsLine, eof, hwritten hb]
  | cons p ps ih =>
      rw [run_cons, List.append_assoc]
      cases hgap : p.kind.isGap with
      | false =>
          have hauto := isAuto_of_key (s.key_token p)
          rw [step_lexeme hgap, List.singleton_append, List.isChain_cons_cons]
          exact ⟨fun h => .inr (he h).1, ih (by simp [hauto]) fun _ => hauto⟩
      | true =>
          by_cases hline : p.text.count '\n' = 0
          · rw [step_plain hgap hline]
            exact ih he hwritten
          · rw [step_line hgap hline, lineEnd]
            have hnext : 0 < s.newlines + p.text.count '\n' := by omega
            cases hb : s.breaks with
            | false => exact ih (fun _ => ⟨hnext, rfl⟩) (by simp)
            | true =>
                rw [if_pos rfl, List.singleton_append, List.isChain_cons_cons]
                refine ⟨by simp [StartsLine, hwritten hb], ih (fun _ => ⟨hnext, rfl⟩) (by simp)⟩

end Pending

theorem startsLine_ofSource {source : String} {ts : List Token} (h : ofSource source = .ok ts) :
    ts.IsChain StartsLine := by
  have hplain : (plain .eof "").isAuto = false := rfl
  rw [(ofSource_eq_ok.1 h).2]
  exact (Pending.startsLine_run (e := plain .eof "") (by simp [hplain]) _).of_cons

end Token

namespace Layout

open Grammar (Alike bare)

structure Adjoining (ts before : List Token) (t : Token) (semis : List Token) (u : Token)
    (after : List Token) : Prop where
  tokens : ts = before ++ t :: (semis ++ u :: after)
  left : t.kind ≠ .semicolon
  semis : ∀ s ∈ semis, s.kind = .semicolon
  right : u.kind ≠ .semicolon

/-- Semicolons that a token which cannot end a statement has after it, each with a line end before
the next token. -/
def Lost (t : Token) (semis : List Token) (u : Token) : Prop :=
  ¬ t.CanEnd ∧ semis ≠ [] ∧ ∀ v ∈ semis.tail ++ [u], 0 < v.newlinesBefore

theorem dropSemicolons_append {t : Token} (ht : t.kind ≠ .semicolon) (ts rest : List Token) :
    ∃ kept, dropSemicolons (ts ++ t :: rest) = kept ++ t :: dropSemicolons rest ∧
      bare kept = bare ts ∧
      (kept = [] ↔ (ts ++ [t]).IsChain fun s v => isDropped s (some v) = true) := by
  induction ts with
  | nil => exact ⟨[], dropSemicolons_of_kept (isDropped_of_kind ht _), rfl, by simp⟩
  | cons s ts ih =>
      obtain ⟨kept, hdrop, hbare, hnil⟩ := ih
      obtain ⟨v, hv, hv'⟩ : ∃ v, (ts ++ t :: rest).head? = some v ∧ (ts ++ [t]).head? = some v := by
        cases ts <;> simp
      rw [List.cons_append, List.cons_append, List.isChain_cons, hv']
      cases hd : isDropped s (some v) with
      | true =>
          refine ⟨kept, ?_, ?_, by simp [hnil, hd]⟩
          · rw [dropSemicolons_of_isDropped (hv ▸ hd), hdrop]
          · rw [hbare, Grammar.bare_semicolon (kind_of_isDropped hd)]
      | false =>
          refine ⟨s :: kept, ?_, ?_, by simp [hd]⟩
          · rw [dropSemicolons_of_kept (hv ▸ hd), hdrop, List.cons_append]
          · calc bare (s :: kept) = bare [s] ++ bare kept := Grammar.bare_append [s] kept
              _ = bare [s] ++ bare ts := by rw [hbare]
              _ = bare (s :: ts) := (Grammar.bare_append [s] ts).symm

theorem Read.split {breaks : Bool} {placed more : List (Gap × Token)} {a : Gap × Token}
    {us : List Token} (h : Read breaks (placed ++ a :: more) us) :
    ∃ vs u ws, us = vs ++ u :: ws ∧ Alike (placed.map Prod.snd) vs ∧ Reread a u ∧
      Read u.endsStatement more ws ∧
      (vs = [] ↔ placed = [] ∧ ¬ (breaks = true ∧ 0 < a.1.newlines)) := by
  induction placed generalizing breaks us with
  | nil =>
      cases h with
      | token ha hline h =>
          refine ⟨[], _, _, rfl, rfl, ha, h, iff_of_true rfl ⟨rfl, ?_⟩⟩
          rintro ⟨hb, hpos⟩
          simp [hline hpos] at hb
      | @lineEnd _ e _ _ _ he hn ha hline h =>
          refine ⟨[e], _, _, rfl, ?_, ha, h, by simp [hline]⟩
          rw [Alike, Grammar.bare_semicolon (Token.kind_of_isAuto he), List.map_nil]
  | cons b placed ih =>
      cases h with
      | token hb hline h =>
          obtain ⟨vs, u, ws, rfl, halike, ha, hmore, -⟩ := ih h
          exact ⟨_ :: vs, u, ws, rfl, alike_cons hb.key halike, ha, hmore, by simp⟩
      | lineEnd he hn hb hline h =>
          obtain ⟨vs, u, ws, rfl, halike, ha, hmore, -⟩ := ih h
          refine ⟨_ :: _ :: vs, u, ws, rfl, ?_, ha, hmore, by simp⟩
          rw [Alike, Grammar.bare_semicolon (Token.kind_of_isAuto he)]
          exact alike_cons hb.key halike

theorem bare_eq_nil_iff {ts : List Token} : bare ts = [] ↔ ∀ t ∈ ts, t.kind = .semicolon := by
  simp [bare]

variable {before semis after : List Token} {t u : Token} {breaks : Bool}

theorem chain_iff_of_flat (hsemis : ∀ s ∈ semis, s.kind = .semicolon)
    (hplain : ∀ v ∈ semis ++ [u], v.text ≠ ")" ∧ v.text ≠ braceClose)
    (h : Token.Unbroken false (semis ++ u :: after)) :
    ((semis ++ [u]).IsChain fun s v => isDropped s (some v) = true) ↔
      ∀ v ∈ (semis ++ [u]).tail, 0 < v.newlinesBefore := by
  induction semis with
  | nil => simp
  | cons s semis ih =>
      obtain ⟨hs, hsemis⟩ := List.forall_mem_cons.1 hsemis
      obtain ⟨-, hauto, hrest⟩ := h
      rw [Token.endsStatement_of_semicolon hs] at hrest
      have hplain' := (List.forall_mem_cons.1 hplain).2
      obtain ⟨v, vs, hvs⟩ : ∃ v vs, semis ++ [u] = v :: vs := by cases semis <;> simp
      have hv := hplain' v (by simp [hvs])
      have hdropped : isDropped s (some v) = true ↔ 0 < v.newlinesBefore := by
        rw [isDropped_written hs (by simpa using hauto)]
        simp [hv]
      have hih := ih hsemis hplain' hrest
      rw [hvs, List.tail_cons] at hih
      rw [List.cons_append, hvs, List.tail_cons, List.isChain_cons_cons, hih, hdropped,
        List.forall_mem_cons]

theorem newlines_of_chain (hne : semis ≠ []) (hplain : u.text ≠ ")" ∧ u.text ≠ braceClose)
    (heof : u.kind ≠ .eof) (hlines : (semis ++ [u]).IsChain Token.StartsLine)
    (h : (semis ++ [u]).IsChain fun s v => isDropped s (some v) = true) :
    0 < u.newlinesBefore := by
  obtain ⟨ss, s, rfl⟩ := List.eq_nil_or_concat' semis |>.resolve_left hne
  rw [List.append_assoc, List.singleton_append] at hlines h
  have hline := (List.isChain_cons_cons.1 hlines.right_of_append).1
  have hdropped := (List.isChain_cons_cons.1 h.right_of_append).1
  cases hauto : s.isAuto with
  | true => exact (hline hauto).resolve_left heof
  | false =>
      rw [isDropped_written (kind_of_isDropped hdropped) hauto] at hdropped
      simpa [hplain] using hdropped

theorem boundary_iff (hsemis : ∀ s ∈ semis, s.kind = .semicolon)
    (hplain : ∀ v ∈ semis ++ [u], v.text ≠ ")" ∧ v.text ≠ braceClose) (heof : u.kind ≠ .eof)
    (h : Token.Unbroken t.endsStatement (semis ++ u :: after))
    (hlines : (semis ++ [u]).IsChain Token.StartsLine) {semis' : List Token}
    (hsemis' : semis' = [] ↔
      ((semis ++ [u]).IsChain fun s v => isDropped s (some v) = true) ∧
        ¬ (t.endsStatement = true ∧ 0 < u.newlinesBefore)) :
    ((semis ≠ [] ↔ semis' ≠ []) ↔ ¬ Lost t semis u) := by
  by_cases hnil : semis = []
  · subst hnil
    have hflat : t.endsStatement = true → u.newlinesBefore = 0 := h.1
    have hnone : semis' = [] := by
      rw [hsemis']
      refine ⟨by simp, fun hline => ?_⟩
      have hzero := hflat hline.1
      omega
    simp [Lost, hnone]
  · have htail : (semis ++ [u]).tail = semis.tail ++ [u] := List.tail_append_of_ne_nil hnil
    rw [iff_true_left hnil, Lost, ← Token.endsStatement_iff, Ne, hsemis', ← htail]
    cases hends : t.endsStatement with
    | false =>
        rw [hends] at h
        simp [chain_iff_of_flat hsemis hplain h, hnil]
    | true =>
        have hline := newlines_of_chain hnil (hplain u (by simp)) heof hlines
        simp only [not_true_eq_false, false_and, not_false_eq_true, iff_true, true_and]
        exact fun hnone => hnone.2 (hline hnone.1)

theorem Read.adjoining {placed : List (Gap × Token)} {ts us : List Token}
    (h : Read false placed us) (htokens : placed.map Prod.snd = dropSemicolons ts)
    (hlines : KeepsLines placed.tail) (hts : Adjoining ts before t semis u after) :
    ∃ before' t' semis' u' after', Adjoining us before' t' semis' u' after' ∧
      Alike before before' ∧ t'.key = t.key ∧ u'.key = u.key ∧
      (semis' = [] ↔ ((semis ++ [u]).IsChain fun s v => isDropped s (some v) = true) ∧
        ¬ (t.endsStatement = true ∧ 0 < u.newlinesBefore)) := by
  obtain ⟨kept, hkept, hbare, -⟩ := dropSemicolons_append hts.left before (semis ++ u :: after)
  obtain ⟨dots, hdots, hnone, hchain⟩ := dropSemicolons_append hts.right semis after
  rw [hts.tokens, hkept, hdots] at htokens
  obtain ⟨first, placed₁, rfl, hfirst, htokens₁⟩ := List.map_eq_append_iff.1 htokens
  obtain ⟨a, placed₂, rfl, rfl, htokens₂⟩ := List.map_eq_cons_iff.1 htokens₁
  obtain ⟨middle, placed₃, rfl, hmiddle, htokens₃⟩ := List.map_eq_append_iff.1 htokens₂
  obtain ⟨b, last, rfl, rfl, -⟩ := List.map_eq_cons_iff.1 htokens₃
  obtain ⟨before', t', ws, rfl, hbefore, ht, hws, -⟩ := h.split
  obtain ⟨semis', u', after', rfl, hsemis, hu, -, hnil⟩ := hws.split
  have hline : b.1.newlines = min 2 b.2.newlinesBefore := by
    refine hlines b ?_
    cases first <;> simp
  refine ⟨before', t', semis', u', after', ⟨rfl, ?_, ?_, ?_⟩, ?_, ht.key, hu.key, ?_⟩
  · rw [ht.kind]
    exact hts.left
  · rw [← bare_eq_nil_iff, ← List.map_eq_nil_iff, ← hsemis, hmiddle, hnone,
      bare_eq_nil_iff.2 hts.semis, List.map_nil]
  · rw [hu.kind]
    exact hts.right
  · rw [Alike, ← hbare, ← hfirst]
    exact hbefore
  · have hpos : 0 < b.1.newlines ↔ 0 < b.2.newlinesBefore := by omega
    rw [hnil, ← hchain, ← hmiddle, List.map_eq_nil_iff, Token.endsStatement_of_key ht.key, hpos]

end Layout

namespace Declaration

open Layout

variable {d : Declaration} {k : Token} {rest ts : List Token} {placed : List (Gap × Token)}
  {text : String}

theorem Laid.read (h : d.Laid k rest placed text) (hts : Token.ofSource text = .ok ts)
    (hsame : Token.significant ts = Token.significant d.tokens) :
    ∃ us last, ts = us ++ last ∧ Read false ((.none, k) :: placed) us := by
  have hlexed := lexed_of_tokens (g := .none) h.lexed
  have hflush := flush_of_gaps h.all h.lexed
  have htext : text.toList = printed ((.none, k) :: placed) ++ [] := by
    rw [h.text, List.append_nil]
    rfl
  have hreads : Piece.Reads text.toList (((.none, k) :: placed).map Prod.snd) := by
    rw [← Piece.reads_ofSource]
    refine ⟨ts, hts, ?_⟩
    rw [hsame, ← significant_dropSemicolons, h.dropSemicolons]
    rfl
  rw [htext, List.append_nil, reads_printed hlexed hflush] at hreads
  have hclears : Clears ((.none, k) :: placed) [] :=
    clears_of_fusionFree hlexed hflush hreads (by simp [Piece.Spaced])
  obtain ⟨us, last, e, hsource, hread, -⟩ := ofSource_printed htext (.inl rfl) hclears
  rw [hts, Except.ok.injEq] at hsource
  exact ⟨us, last, hsource, hread⟩

theorem text_of_mem_ofSource {source : String} (hts : Token.ofSource source = .ok ts) {s : Token}
    (hs : s ∈ ts) (hk : s.kind = .semicolon) : s.text ≠ ")" ∧ s.text ≠ braceClose := by
  cases hauto : s.isAuto with
  | true =>
      rw [Token.text_of_isAuto hauto]
      decide
  | false =>
      have hwritten : s ∈ Token.written ts := by simp [Token.written, hs, hauto, hk]
      rw [text_of_semicolon (Token.lexed_of_mem_written hts hwritten) hk]
      decide

theorem boundary_of_ofSource {source : String} {file : SourceFile}
    (h : SourceFile.ofSource source = .ok file) (hd : d ∈ file.decls)
    {before semis after : List Token} {t u : Token}
    (hadj : Adjoining d.tokens before t semis u after) :
    Token.Unbroken t.endsStatement (semis ++ u :: after) ∧
      (semis ++ [u]).IsChain Token.StartsLine ∧ u.kind ≠ .eof ∧
      ∀ s ∈ semis, s.text ≠ ")" ∧ s.text ≠ braceClose := by
  obtain ⟨all, hall, hpart, hdecl⟩ := Grammar.infix_of_ofSource h hd
  have heof := hdecl.kind_ne_eof
  have hmem := hpart.subset
  obtain ⟨breaks, hunbroken⟩ := Token.exists_unbroken hall hpart
  obtain ⟨first, final, rfl⟩ := hpart
  have hchain := (Token.startsLine_ofSource hall).left_of_append.right_of_append
  rw [hadj.tokens] at heof hunbroken hchain
  refine ⟨?_, ?_, heof u (by simp), fun s hs => ?_⟩
  · obtain ⟨-, -, -, hrest⟩ := hunbroken.right
    exact hrest
  · have hjoin : semis ++ u :: after = semis ++ [u] ++ after := by simp
    have hright := hchain.right_of_append.of_cons
    rw [hjoin] at hright
    exact hright.left_of_append
  · have hs' : s ∈ d.tokens := by
      rw [hadj.tokens]
      simp [hs]
    exact text_of_mem_ofSource hall (hmem hs') (hadj.semis s hs)

theorem format_keeps_boundary_iff {source : String} {file : SourceFile}
    (h : SourceFile.ofSource source = .ok file) {d : Declaration} (hd : d ∈ file.decls) :
    ∃ text, d.format = .ok text ∧ ∀ ts, Token.ofSource text = .ok ts →
      Token.significant ts = Token.significant d.tokens →
      ∀ before t semis u after, Adjoining d.tokens before t semis u after →
        u.text ≠ ")" → u.text ≠ braceClose →
        ∃ before' t' semis' u' after', Adjoining ts before' t' semis' u' after' ∧
          Grammar.Alike before before' ∧ t'.key = t.key ∧ u'.key = u.key ∧
          ((semis ≠ [] ↔ semis' ≠ []) ↔ ¬ Lost t semis u) := by
  obtain ⟨k, rest, placed, text, hlaid⟩ := exists_laid h hd
  refine ⟨text, hlaid.format, fun ts hts hsame before t semis u after hadj hparen hbrace => ?_⟩
  obtain ⟨us, last, rfl, hread⟩ := hlaid.read hts hsame
  have hlines : KeepsLines placed := keepsLines_gaps (by simp [start]) hlaid.gaps
  obtain ⟨before', t', semis', u', after', hadj', hbefore, ht, hu, hnil⟩ :=
    hread.adjoining hlaid.dropSemicolons.symm hlines hadj
  refine ⟨before', t', semis', u', after' ++ last, ⟨?_, hadj'.left, hadj'.semis, hadj'.right⟩,
    hbefore, ht, hu, ?_⟩
  · rw [hadj'.tokens]
    simp
  · obtain ⟨hunbroken, hchain, heof, hplain⟩ := boundary_of_ofSource h hd hadj
    have hall : ∀ v ∈ semis ++ [u], v.text ≠ ")" ∧ v.text ≠ braceClose :=
      List.forall_mem_append.2 ⟨hplain, List.forall_mem_singleton.2 ⟨hparen, hbrace⟩⟩
    exact boundary_iff hadj.semis hall heof hunbroken hchain hnil

theorem adjoining_of_keys (before semis : List (Token.Kind × String))
    {after : List (Token.Kind × String)} {t u : Token.Kind × String}
    (h : ts.map Token.key = before ++ t :: (semis ++ u :: after))
    (ht : t.1 ≠ .semicolon) (hsemis : ∀ s ∈ semis, s.1 = .semicolon) (hu : u.1 ≠ .semicolon) :
    ∃ before' t' semis' u' after', Adjoining ts before' t' semis' u' after' ∧
      before'.map Token.key = before ∧ t'.key = t ∧ semis'.map Token.key = semis ∧ u'.key = u := by
  obtain ⟨before', ts₁, rfl, rfl, h₁⟩ := List.map_eq_append_iff.1 h
  obtain ⟨t', ts₂, rfl, rfl, h₂⟩ := List.map_eq_cons_iff.1 h₁
  obtain ⟨semis', ts₃, rfl, rfl, h₃⟩ := List.map_eq_append_iff.1 h₂
  obtain ⟨u', after', rfl, rfl, -⟩ := List.map_eq_cons_iff.1 h₃
  refine ⟨before', t', semis', u', after', ⟨rfl, ht, fun s hs => ?_, hu⟩, rfl, rfl, rfl, rfl⟩
  exact hsemis s.key (List.mem_map_of_mem hs)

theorem exists_declaration_of_view {source text : String} {keys : List (Token.Kind × String)}
    (h : (SourceFile.ofSource source).toOption.map
      (fun file => file.decls.map fun d => (d.format.toOption, d.tokens.map Token.key)) =
        some [(some text, keys)]) :
    ∃ file, SourceFile.ofSource source = .ok file ∧ ∃ d ∈ file.decls, d.format = .ok text ∧
      d.tokens.map Token.key = keys := by
  obtain ⟨file, hfile, hview⟩ := exists_ok_of_view h
  obtain ⟨d, hdecls, hd⟩ := List.map_eq_singleton_iff.1 hview
  obtain ⟨hformat, hkeys⟩ := Prod.mk.inj hd
  refine ⟨file, hfile, d, by simp [hdecls], ?_, hkeys⟩
  cases hresult : d.format with
  | error e => simp [hresult, Except.toOption] at hformat
  | ok text' => simpa [hresult, Except.toOption] using hformat

def headKeys : List (Token.Kind × String) :=
  [(.keyword, "func"), (.ident, "f"), (.op, "("), (.op, ")"), (.op, braceOpen)]

def lineSource : String :=
  "package p\nfunc f() " ++ braced "\na;\nb\n"

def lineText : String :=
  "func f() " ++ braced "\n\ta\n\tb\n"

theorem format_keeps_boundary_line : ∃ file, SourceFile.ofSource lineSource = .ok file ∧
    ∃ d ∈ file.decls, ∃ text ts, d.format = .ok text ∧ Token.ofSource text = .ok ts ∧
      Token.significant ts = Token.significant d.tokens ∧
      ∃ before t semis u after, Adjoining d.tokens before t semis u after ∧ t.key = (.ident, "a") ∧
        semis.map Token.key = [(.semicolon, ";")] ∧ u.key = (.ident, "b") ∧
        ∃ before' t' semis' u' after', Adjoining ts before' t' semis' u' after' ∧
          Grammar.Alike before before' ∧ t'.key = t.key ∧ u'.key = u.key ∧ semis' ≠ [] := by
  have hview : (SourceFile.ofSource lineSource).toOption.map
      (fun file => file.decls.map fun d => (d.format.toOption, d.tokens.map Token.key)) =
        some [(some lineText, headKeys ++ [(.ident, "a"), (.semicolon, ";"), (.ident, "b"),
          (.semicolon, "\n"), (.op, braceClose)])] := by
    decide +kernel
  have htext : (Token.ofSource lineText).toOption.map Token.significant =
      some (headKeys ++ [(.ident, "a"), (.ident, "b"), (.op, braceClose)]) := by
    decide +kernel
  obtain ⟨file, hfile, d, hmem, hformat, hkeys⟩ := exists_declaration_of_view hview
  obtain ⟨ts, hts, hsignificant⟩ := exists_ok_of_view htext
  have hsame : Token.significant ts = Token.significant d.tokens := by
    rw [hsignificant, Token.significant, hkeys]
    rfl
  obtain ⟨text, hformat', hall⟩ := format_keeps_boundary_iff hfile hmem
  obtain rfl : lineText = text := Except.ok.inj (hformat.symm.trans hformat')
  obtain ⟨before, t, semis, u, after, hadj, -, ht, hsemis, hu⟩ :=
    adjoining_of_keys headKeys [(.semicolon, ";")] hkeys (by simp) (by simp) (by simp)
  have hutext : u.text = "b" := congrArg Prod.snd hu
  obtain ⟨before', t', semis', u', after', hadj', hbefore, ht', hu', hiff⟩ :=
    hall ts hts hsame before t semis u after hadj (by simp [hutext]) (by simp [hutext, braceClose])
  have hends : t.CanEnd := .inl (congrArg Prod.fst ht)
  have hne : semis ≠ [] := by
    rintro rfl
    simp at hsemis
  exact ⟨file, hfile, d, hmem, _, ts, hformat, hts, hsame, before, t, semis, u, after, hadj, ht,
    hsemis, hu, before', t', semis', u', after', hadj', hbefore, ht', hu',
    (hiff.2 fun hlost => hlost.1 hends).1 hne⟩

def loopSource : String :=
  "package p\nfunc f() " ++ braced ("\nfor ;\ni < n; i++ " ++ braced "\n" ++ "\n")

def loopText : String :=
  "func f() " ++ braced ("\n\tfor\n\ti < n; i++ " ++ braced "\n\t" ++ "\n")

theorem format_loses_boundary : ∃ file, SourceFile.ofSource loopSource = .ok file ∧
    ∃ d ∈ file.decls, ∃ ts, d.format = .ok loopText ∧ Token.ofSource loopText = .ok ts ∧
      Token.significant ts = Token.significant d.tokens ∧
      ∃ before t semis u after before' t' u' after', Adjoining d.tokens before t semis u after ∧
        Adjoining ts before' t' [] u' after' ∧ before.map Token.key = before'.map Token.key ∧
        t.key = (.keyword, "for") ∧ t'.key = t.key ∧ semis.map Token.key = [(.semicolon, ";")] ∧
        u.key = (.ident, "i") ∧ u'.key = u.key := by
  have hview : (SourceFile.ofSource loopSource).toOption.map
      (fun file => file.decls.map fun d => (d.format.toOption, d.tokens.map Token.key)) =
        some [(some loopText, headKeys ++ [(.keyword, "for"), (.semicolon, ";"), (.ident, "i"),
          (.op, "<"), (.ident, "n"), (.semicolon, ";"), (.ident, "i"), (.op, "++"), (.op, braceOpen),
          (.op, braceClose), (.semicolon, "\n"), (.op, braceClose)])] := by
    decide +kernel
  have htext : (Token.ofSource loopText).toOption.map (List.map Token.key) =
      some (headKeys ++ [(.keyword, "for"), (.ident, "i"), (.op, "<"), (.ident, "n"),
        (.semicolon, ";"), (.ident, "i"), (.op, "++"), (.op, braceOpen), (.op, braceClose),
        (.semicolon, "\n"), (.op, braceClose), (.semicolon, "\n"), (.eof, "")]) := by
    decide +kernel
  obtain ⟨file, hfile, d, hmem, hformat, hkeys⟩ := exists_declaration_of_view hview
  obtain ⟨ts, hts, hkeys'⟩ := exists_ok_of_view htext
  have hsame : Token.significant ts = Token.significant d.tokens := by
    rw [Token.significant, Token.significant, hkeys', hkeys]
    rfl
  obtain ⟨before, t, semis, u, after, hadj, hbefore, ht, hsemis, hu⟩ :=
    adjoining_of_keys headKeys [(.semicolon, ";")] hkeys (by simp) (by simp) (by simp)
  obtain ⟨before', t', semis', u', after', hadj', hbefore', ht', hsemis', hu'⟩ :=
    adjoining_of_keys headKeys [] hkeys' (by simp) (by simp) (by simp)
  obtain rfl := List.map_eq_nil_iff.1 hsemis'
  exact ⟨file, hfile, d, hmem, ts, hformat, hts, hsame, before, t, semis, u, after, before', t', u',
    after', hadj, hadj', hbefore.trans hbefore'.symm, ht, ht'.trans ht.symm, hsemis, hu,
    hu'.trans hu.symm⟩

end Declaration

end Gosmith.Go
