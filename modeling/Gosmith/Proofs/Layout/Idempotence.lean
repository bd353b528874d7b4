import Gosmith.Proofs.Layout.Rereading
import Gosmith.Proofs.Layout.Spacing

namespace Gosmith.Go

open Gosmith.Text (braced)

namespace Layout

open Grammar (Enclosed)

theorem parted_append_spaced {p : Piece} {cs tail : List Char} (h : Piece.Parted p cs)
    (htail : Piece.Spaced tail) : Piece.Parted p (cs ++ tail) := by
  cases cs with
  | nil => exact Piece.parted_spaced p htail
  | cons c cs => exact ⟨h.1, h.2⟩

theorem clears_of_fusionFree {placed : List (Gap × Token)} (hlexed : ∀ a ∈ placed, a.2.Lexed)
    (hchain : placed.IsChain fun a b => b.1 = .none → Flush a.2 b.2)
    (hfree : fusionFree placed = true) {tail : List Char} (htail : Piece.Spaced tail) :
    Clears placed tail := by
  induction placed with
  | nil => trivial
  | cons a placed ih =>
      obtain ⟨g, t⟩ := a
      obtain ⟨⟨p, hp, hkey⟩, hrest⟩ := List.forall_mem_cons.1 hlexed
      simp only [fusionFree, Bool.and_eq_true, Bool.not_eq_true'] at hfree
      refine ⟨⟨p, hp, hkey, ?_⟩, ih hrest hchain.of_cons hfree.2⟩
      have hparted := parted_append_spaced (parted_printed hp hkey hrest hchain) htail
      refine Piece.clear_of_not_fuses hparted ?_
      rw [p.fuses_append_spaced htail, ← fuses_printed hp hkey, hfree.1]

def placedBelow (g : Gap) (k : Token) (placed : List (Gap × Token)) : List (Gap × Token) :=
  (.none, .plain .keyword "package") :: (.space, .plain .ident "p") :: (g, k) :: placed

theorem clears_placedBelow {g g' : Gap} (hg : g ≠ .none) {k : Token} {placed : List (Gap × Token)}
    {tail : List Char} (h : Clears ((g', k) :: placed) tail) :
    Clears (placedBelow g k placed) tail := by
  obtain ⟨p, hp, hpkey⟩ : (Token.plain .keyword "package").Lexed := Token.lexed_keyword (by decide)
  obtain ⟨q, hq, hqkey⟩ : (Token.plain .ident "p").Lexed := Token.lexed_name (by decide +kernel)
  have hspaced (g' : Gap) (hg : g' ≠ .none) (t : Token) (more : List (Gap × Token)) :
      Piece.Spaced (printed ((g', t) :: more) ++ tail) := by
    rw [printed, List.append_assoc]
    exact spaced_chars hg _
  exact ⟨⟨p, hp, hpkey, p.clear_spaced (hspaced .space (by simp) _ _)⟩,
    ⟨q, hq, hqkey, q.clear_spaced (hspaced g hg _ _)⟩, h⟩

theorem ofSource_placedBelow {kind : Declaration.Kind} {g : Gap} {k : Token}
    {placed : List (Gap × Token)} {source : String} (hg : 0 < g.newlines)
    (hsource : source.toList = printed (placedBelow g k placed) ++ ['\n'])
    (hclears : Clears (placedBelow g k placed) ['\n']) (hk : k.isKeyword kind.text = true)
    (hlines : KeepsLines placed) (hen : Enclosed [] k.endsStatement (placed.map Prod.snd))
    (hheader : Grammar.Header kind (placed.map Prod.snd)) :
    ∃ file d k' us, SourceFile.ofSource source = .ok file ∧ file.decls = [d] ∧ d.kind = kind ∧
      d.tokens = k' :: us ∧ k'.key = k.key ∧ Read k.endsStatement placed us := by
  obtain ⟨us, last, e, htokens, hread, hlast, he⟩ :=
    ofSource_printed hsource (.inr rfl) hclears
  obtain ⟨p, us, rfl, hp, hread⟩ := hread.of_flat rfl
  obtain ⟨n, us, rfl, hn, hread⟩ := hread.of_flat rfl
  obtain ⟨es, k', us, rfl, hdue, hk', hbody⟩ := hread.of_line hg
  obtain ⟨e₁, rfl, he₁⟩ := hdue.of_true (by simp [Token.endsStatement, hn.kind, Token.plain])
  rw [Token.endsStatement_of_key hk'.key] at hbody
  have hnested : Grammar.Nested false us := (hbody.enclosed hlines hen).chain
  have hdecl : Grammar.Decl kind (k' :: us) := by
    refine .mk ?_ hnested (hbody.alike.header hen.chain hnested hheader)
    rw [Token.isKeyword_of_key hk'.key, hk]
  have hpackage : p.isKeyword "package" = true := by
    simp [Token.isKeyword, hp.kind, hp.text, Token.plain]
  have hfile : Grammar.File _ n.text _ [(kind, k' :: us)] :=
    .mk hpackage hn.kind (.semicolon he₁) .nil (.cons hdecl hlast (.nil he))
  obtain ⟨file, hfile, -, -, hdecls⟩ :=
    Grammar.ofTokens_of_file (Grammar.closed_ofSource htokens) (by simpa using hfile)
  obtain ⟨d, hd, hd'⟩ := List.map_eq_singleton_iff.1 hdecls
  refine ⟨file, d, k', us, ?_, hd, congrArg Prod.fst hd', congrArg Prod.snd hd', hk'.key, hbody⟩
  rw [SourceFile.ofSource, htokens]
  exact hfile

theorem printed_placedBelow {k : Token} {placed : List (Gap × Token)} {text : String}
    (h : text.toList = k.text.toList ++ printed placed) :
    ("package p\n" ++ text ++ "\n").toList =
      printed (placedBelow (.newline false 0) k placed) ++ ['\n'] := by
  simp [placedBelow, printed, Gap.chars, Token.plain, h]

theorem keys_of_reread {placed : List (Gap × Token)} {vs : List Token}
    (h : List.Forall₂ Reread placed vs) :
    vs.map Token.key = (placed.map Prod.snd).map Token.key := by
  induction h with
  | nil => rfl
  | cons ha _ ih => rw [List.map_cons, List.map_cons, List.map_cons, ha.key, ih]

def start (k : Token) : Context :=
  { prev := some k, printed := 1 }

theorem gaps_of_keyword {k : Token} (hk : k.kind = .keyword) {ts : List Token}
    {placed : List (Gap × Token)} (h : gaps {} (k :: ts) = .ok placed) :
    ∃ more, gaps (start k) ts = .ok more ∧ placed = (.none, k) :: more := by
  obtain ⟨ctx, more, hclose, hmore, rfl⟩ := gaps_cons_eq_ok h
  have hcloser : k.isCloser = false := by simp [Token.isCloser, hk]
  have hopener : k.isOpener = false := by simp [Token.isOpener, hk]
  obtain rfl : ctx = {} := by simpa [close, hcloser] using hclose.symm
  refine ⟨more, ?_, by simp [gap]⟩
  simpa [after, role, hk, hopener, start] using hmore

theorem agrees_start {k k' : Token} (hkey : k'.key = k.key) :
    Agrees (start k) (start k') k k' :=
  ⟨rfl, rfl, hkey, rfl, rfl, rfl, fun _ => ⟨rfl, rfl⟩⟩

theorem printed_again_iff {k k' : Token} {placed placed' : List (Gap × Token)} {us : List Token}
    (hkey : k'.key = k.key) (hlexed : ∀ t ∈ k :: placed.map Prod.snd, t.Lexed)
    (h : gaps (start k) (placed.map Prod.snd) = .ok placed)
    (hen : Enclosed [] k.endsStatement (placed.map Prod.snd)) (hread : Read k.endsStatement placed us)
    (h' : gaps (start k') (dropSemicolons us) = .ok placed') :
    printed placed' = printed placed ↔ dropSemicolons (placed.map Prod.snd) = placed.map Prod.snd ∧
      hangs (k :: placed.map Prod.snd) = false := by
  have hlines : KeepsLines placed := keepsLines_gaps (by simp [start]) h
  have hauto : ∀ a ∈ placed, a.2.isAuto = false := by
    intro a ha
    obtain ⟨p, -, hp⟩ := hlexed a.2 (List.mem_cons_of_mem _ (List.mem_map_of_mem ha))
    exact Token.isAuto_of_key hp
  obtain ⟨kept, hsub, htokens, hkept⟩ := hread.carries hauto hlines
  have hkeys : (placed'.map Prod.snd).map Token.key = (kept.map Prod.snd).map Token.key := by
    rw [gaps_tokens h', keys_of_reread hkept]
  by_cases hsame : dropSemicolons (placed.map Prod.snd) = placed.map Prod.snd
  -- if nothing is dropped, the texts differ in their gaps only; else one has fewer semicolons
  · have hlength := congrArg List.length (htokens.trans hsame)
    rw [List.length_map, List.length_map] at hlength
    obtain rfl := hsub.eq_of_length hlength
    have hagain := gaps_again (agrees_start hkey) hlexed (fun _ _ => .inl rfl) hen rfl h hkept h'
    rw [← hagain, and_iff_right hsame]
    refine ⟨gaps_of_printed hkeys fun a ha => ?_, printed_of_gaps hkeys⟩
    exact hlexed a.2 (List.mem_cons_of_mem _ (List.mem_map_of_mem ha))
  · refine iff_of_false (fun heq => ?_) (fun h => hsame h.1)
    have hcount := congrArg (List.count ';') heq
    rw [count_printed, count_printed, semicolons_of_keys hkeys, htokens] at hcount
    have hlt := semicolons_dropSemicolons_lt (List.forall_mem_cons.1 hlexed).2 hsame
    omega

end Layout

namespace Declaration

open Layout

def isStable (d : Declaration) : Bool :=
  !lapses d.tokens && !hangs (dropSemicolons d.tokens)

structure Laid (d : Declaration) (k : Token) (rest : List Token) (placed : List (Gap × Token))
    (text : String) : Prop where
  decl : Grammar.Decl d.kind (k :: rest)
  tokens : d.tokens = k :: rest
  unbroken : ∃ breaks, Token.Unbroken breaks (k :: rest)
  dropped : dropSemicolons rest = placed.map Prod.snd
  lexed : ∀ t ∈ k :: placed.map Prod.snd, t.Lexed
  gaps : Layout.gaps (start k) (placed.map Prod.snd) = .ok placed
  all : Layout.gaps {} (k :: placed.map Prod.snd) = .ok ((.none, k) :: placed)
  format : d.format = .ok text
  text : text.toList = k.text.toList ++ printed placed

theorem lexed_of_tokens {g : Gap} {k : Token} {placed : List (Gap × Token)}
    (h : ∀ t ∈ k :: placed.map Prod.snd, t.Lexed) : ∀ a ∈ (g, k) :: placed, a.2.Lexed := by
  intro a ha
  have hmem : a.2 ∈ ((g, k) :: placed).map Prod.snd := List.mem_map_of_mem ha
  exact h a.2 hmem

theorem exists_laid {source : String} {file : SourceFile} (h : SourceFile.ofSource source = .ok file)
    {d : Declaration} (hd : d ∈ file.decls) : ∃ k rest placed text, d.Laid k rest placed text := by
  obtain ⟨ts, hts, hpart, hdecl⟩ := Grammar.infix_of_ofSource h hd
  have hlexed := lexed_of_mem_dropSemicolons hts hpart.subset hdecl.kind_ne_eof
  have hbalanced : balanced 0 (dropSemicolons d.tokens) = true := by
    rw [balanced_dropSemicolons, balanced_of_decl hdecl]
  obtain ⟨all, hall⟩ : ∃ all, Layout.gaps {} (dropSemicolons d.tokens) = .ok all :=
    gaps_of_balanced hbalanced
  obtain ⟨k, rest, htokens, hk, -⟩ := hdecl.exists_cons
  have hkind := (Grammar.kind_of_isKeyword hk).1
  have hdropped : dropSemicolons d.tokens = k :: dropSemicolons rest := by
    rw [htokens, dropSemicolons_of_kept (isDropped_of_kind (by simp [hkind]) _)]
  rw [hdropped] at hlexed hall
  obtain ⟨placed, hgaps, rfl⟩ := gaps_of_keyword hkind hall
  have hplaced := gaps_tokens hgaps
  rw [← hplaced] at hlexed
  obtain ⟨text, hformat, htext⟩ := format_of_gaps (hdropped ▸ hall) (lexed_of_tokens hlexed)
  rw [← hplaced] at hgaps hall
  refine ⟨k, rest, placed, text, htokens ▸ hdecl, htokens, ?_, hplaced.symm, hlexed, hgaps, hall,
    hformat, htext⟩
  rw [← htokens]
  exact Token.exists_unbroken hts hpart

variable {d d' : Declaration} {k k' : Token} {rest us : List Token}
  {placed placed' : List (Gap × Token)} {text text' : String}

theorem Laid.keyword (h : d.Laid k rest placed text) : k.isKeyword d.kind.text = true := by
  obtain ⟨_, _, heq, hk, -⟩ := h.decl.exists_cons
  rwa [(List.cons.inj heq).1]

theorem Laid.dropSemicolons (h : d.Laid k rest placed text) :
    dropSemicolons d.tokens = k :: placed.map Prod.snd := by
  have hkind := (Grammar.kind_of_isKeyword h.keyword).1
  rw [h.tokens, dropSemicolons_of_kept (isDropped_of_kind (by simp [hkind]) _), h.dropped]

theorem Laid.enclosed (h : d.Laid k rest placed text) :
    Grammar.Enclosed [] k.endsStatement (placed.map Prod.snd) := by
  obtain ⟨breaks, hunbroken⟩ := h.unbroken
  rw [← h.dropped]
  exact enclosed_dropSemicolons (Grammar.enclosed_of_decl h.decl hunbroken)

theorem Laid.header (h : d.Laid k rest placed text) :
    Grammar.Header d.kind (placed.map Prod.snd) := by
  obtain ⟨breaks, hunbroken⟩ := h.unbroken
  have hrest := (Grammar.enclosed_of_decl h.decl hunbroken).chain
  obtain ⟨_, _, heq, -, -, hheader⟩ := h.decl.exists_cons
  rw [← (List.cons.inj heq).2] at hheader
  have halike : Grammar.Alike rest (placed.map Prod.snd) := by
    rw [Grammar.Alike, ← h.dropped, bare_dropSemicolons]
  exact halike.header hrest h.enclosed.chain hheader

theorem Laid.clears (h : d.Laid k rest placed text) (hfree : d.isFusionFree = true) :
    Clears ((.none, k) :: placed) ['\n'] := by
  have hall := h.all
  rw [isFusionFree, h.dropSemicolons, hall] at hfree
  exact clears_of_fusionFree (lexed_of_tokens h.lexed) (flush_of_gaps hall h.lexed) hfree
    (by simp [Piece.Spaced])

theorem Laid.reread (h : d.Laid k rest placed text) (hfree : d.isFusionFree = true) :
    ∃ file d' k' us, SourceFile.ofSource ("package p\n" ++ text ++ "\n") = .ok file ∧
      file.decls = [d'] ∧ d'.tokens = k' :: us ∧ k'.key = k.key ∧
      Read k.endsStatement placed us := by
  have hclears := clears_placedBelow (g := .newline false 0) (by simp) (h.clears hfree)
  obtain ⟨file, d', k', us, hfile, hd', -, hrest⟩ := ofSource_placedBelow (by simp [Gap.newlines])
    (printed_placedBelow h.text) hclears h.keyword (keepsLines_gaps (by simp [start]) h.gaps)
    h.enclosed h.header
  exact ⟨file, d', k', us, hfile, hd', hrest⟩

theorem Laid.isStable_iff (h : d.Laid k rest placed text) :
    d.isStable = true ↔ Layout.dropSemicolons (placed.map Prod.snd) = placed.map Prod.snd ∧
      hangs (k :: placed.map Prod.snd) = false := by
  obtain ⟨breaks, hunbroken⟩ := h.unbroken
  have hagain := dropSemicolons_again hunbroken
  have hkind := (Grammar.kind_of_isKeyword h.keyword).1
  rw [← h.tokens, h.dropSemicolons,
    dropSemicolons_of_kept (isDropped_of_kind (by simp [hkind]) _), List.cons.injEq,
    and_iff_right rfl] at hagain
  rw [isStable, h.dropSemicolons, hagain]
  simp

theorem Laid.format_eq_iff (h : d.Laid k rest placed text) (h' : d'.Laid k' us placed' text')
    (hkey : k'.key = k.key) : d'.format = .ok text ↔ printed placed' = printed placed := by
  have htext : k'.text = k.text := congrArg Prod.snd hkey
  rw [h'.format, Except.ok.injEq, ← String.toList_inj, h.text, h'.text, htext,
    List.append_cancel_left_eq]

theorem format_idempotent_iff {source : String} {file : SourceFile}
    (h : SourceFile.ofSource source = .ok file) {d : Declaration} (hd : d ∈ file.decls)
    (hfree : d.isFusionFree = true) :
    ∃ text file' d', d.format = .ok text ∧
      SourceFile.ofSource ("package p\n" ++ text ++ "\n") = .ok file' ∧ file'.decls = [d'] ∧
      (d'.format = .ok text ↔ d.isStable = true) := by
  obtain ⟨k, rest, placed, text, hlaid⟩ := exists_laid h hd
  obtain ⟨file', d', k', us, hfile', hdecls, htokens, hkey, hread⟩ := hlaid.reread hfree
  have hd' : d' ∈ file'.decls := by simp [hdecls]
  obtain ⟨_, _, placed', text', hlaid'⟩ := exists_laid hfile' hd'
  obtain ⟨rfl, rfl⟩ := List.cons.inj (hlaid'.tokens.symm.trans htokens)
  have hgaps' := hlaid'.gaps
  rw [← hlaid'.dropped] at hgaps'
  refine ⟨text, file', d', hlaid.format, hfile', hdecls, ?_⟩
  rw [hlaid.format_eq_iff hlaid' hkey, hlaid.isStable_iff]
  exact printed_again_iff hkey hlaid.lexed hlaid.gaps hlaid.enclosed hread hgaps'

def looseSource : String :=
  "package p\nfunc(t * T)F( xs...int )error" ++ braced ("\n\n\nfor ;i<n;i++ " ++
    braced " xs[ i ]=-b*c ; " ++ "\n  switch y" ++ braced ("\ncase T : return struct" ++
      braced "A int" ++ braced "1" ++ "\n  ") ++ "\n g(a,\n  - b)//c\n")

theorem format_idempotent_loose : ∃ file, SourceFile.ofSource looseSource = .ok file ∧
    ∃ d ∈ file.decls, d.isFusionFree = true ∧ ∃ text file' d', d.format = .ok text ∧
      SourceFile.ofSource ("package p\n" ++ text ++ "\n") = .ok file' ∧ file'.decls = [d'] ∧
      d'.format = .ok text := by
  have hview : (SourceFile.ofSource looseSource).toOption.map
      (fun file => file.decls.map fun d => (d.isFusionFree, d.isStable)) = some [(true, true)] := by
    decide +kernel
  cases hfile : SourceFile.ofSource looseSource with
  | error e => simp [hfile, Except.toOption] at hview
  | ok file =>
      simp only [hfile, Except.toOption, Option.map_some, Option.some.injEq] at hview
      obtain ⟨d, hdecls, hd⟩ := List.map_eq_singleton_iff.1 hview
      simp only [Prod.mk.injEq] at hd
      have hmem : d ∈ file.decls := by simp [hdecls]
      obtain ⟨text, file', d', hformat, hfile', hdecls', hiff⟩ :=
        format_idempotent_iff hfile hmem hd.1
      exact ⟨file, rfl, d, hmem, hd.1, text, file', d', hformat, hfile', hdecls', hiff.2 hd.2⟩

def formats (source : String) : Option (List (Option String)) :=
  (SourceFile.ofSource source).toOption.map fun file => file.decls.map fun d => d.format.toOption

theorem format_again_differs :
    (formats ("package p\nfunc f() " ++ braced "\na;;\nb\n") =
        some [some ("func f() " ++ braced "\n\ta;\n\tb\n")] ∧
      formats ("package p\n" ++ ("func f() " ++ braced "\n\ta;\n\tb\n") ++ "\n") =
        some [some ("func f() " ++ braced "\n\ta\n\tb\n")]) ∧
    (formats ("package p\nfunc f() " ++ braced "\na\n-\nb\n") =
        some [some ("func f() " ++ braced "\n\ta\n\t-\n\tb\n")] ∧
      formats ("package p\n" ++ ("func f() " ++ braced "\n\ta\n\t-\n\tb\n") ++ "\n") =
        some [some ("func f() " ++ braced "\n\ta\n\t-\n\t\tb\n")]) ∧
    (formats "package p\nvar x = - -y" = some [some "var x = --y"] ∧
      formats ("package p\n" ++ "var x = --y" ++ "\n") = some [some "var x =-- y"]) := by
  decide +kernel

end Declaration

end Gosmith.Go
