import Gosmith.Proofs.Layout.Tidiness
import Gosmith.Proofs.Lexeme.Trivia

namespace Gosmith.Go

open Gosmith.Text

namespace Layout

theorem clears_append {placed more : List (Gap × Token)} {rest : List Char}
    (h : Clears placed (printed more ++ rest)) (hmore : Clears more rest) :
    Clears (placed ++ more) rest := by
  induction placed with
  | nil => exact hmore
  | cons a placed ih =>
      obtain ⟨⟨p, hp, hkey, hclear⟩, hplaced⟩ := h
      rw [← List.append_assoc, ← printed_append] at hclear
      exact ⟨⟨p, hp, hkey, hclear⟩, ih hplaced⟩

theorem Read.of_append {breaks : Bool} {placed more : List (Gap × Token)} {us : List Token}
    (h : Read breaks (placed ++ more) us) :
    ∃ vs ws, us = vs ++ ws ∧ Read breaks placed vs ∧
      Read ((vs.getLast?.map Token.endsStatement).getD breaks) more ws := by
  induction placed generalizing breaks us with
  | nil => exact ⟨[], us, rfl, .nil, h⟩
  | cons a placed ih =>
      cases h with
      | token ha hline h =>
          obtain ⟨vs, ws, rfl, hvs, hws⟩ := ih h
          refine ⟨_ :: vs, ws, rfl, .token ha hline hvs, ?_⟩
          cases hlast : vs.getLast? <;> simpa [List.getLast?_cons, hlast] using hws
      | lineEnd he hn ha hline h =>
          obtain ⟨vs, ws, rfl, hvs, hws⟩ := ih h
          refine ⟨_ :: _ :: vs, ws, rfl, .lineEnd he hn ha hline hvs, ?_⟩
          cases hlast : vs.getLast? <;> simpa [List.getLast?_cons, hlast] using hws

end Layout

namespace Declaration

structure Regular (d : Declaration) : Prop where
  balanced : Layout.balanced 0 d.tokens = true
  tokens : ∀ t ∈ d.tokens, t.isAuto = true ∨ t.Lexed
  start : ∃ k rest, d.tokens = k :: rest ∧ k.isKeyword d.kind.text = true

def OneLined (d : Declaration) : Prop :=
  ∀ t ∈ d.tokens, t.kind = .string → '\n' ∉ t.text.toList

structure Prints (d : Declaration) (text : String) : Prop where
  format : d.format = .ok text
  keyword : ∃ rest, text = d.kind.text ++ rest

theorem Regular.prints {d : Declaration} (h : d.Regular) (hlines : d.OneLined) :
    ∃ text, d.Prints text ∧ IsNeat text := by
  obtain ⟨k, tokens, htokens, hk⟩ := h.start
  obtain ⟨hkind, htext⟩ := Grammar.kind_of_isKeyword hk
  have hflat : ∀ t ∈ Layout.dropSemicolons d.tokens, t.Flat := by
    intro t ht
    obtain ⟨hmem, hauto⟩ := Layout.isAuto_of_mem_dropSemicolons ht
    have hlexed : t.Lexed := (h.tokens t hmem).resolve_left (by simp [hauto])
    exact hlexed.flat (hlines t hmem)
  obtain ⟨placed, hplaced⟩ : ∃ placed,
      Layout.gaps {} (Layout.dropSemicolons d.tokens) = .ok placed :=
    Layout.gaps_of_balanced (by rw [Layout.balanced_dropSemicolons]; exact h.balanced)
  have hmap := Layout.gaps_tokens hplaced
  have hkept : Layout.dropSemicolons d.tokens = k :: Layout.dropSemicolons tokens := by
    rw [htokens, Layout.dropSemicolons, if_neg]
    simp [Layout.isDropped, hkind]
  have hplacedFlat : ∀ a ∈ placed, a.2.Flat := by
    intro a ha
    exact hflat a.2 (hmap ▸ List.mem_map_of_mem ha)
  obtain ⟨text, hformat, hprinted⟩ := format_of_gaps hplaced fun a ha => (hplacedFlat a ha).lexed
  cases placed with
  | nil => simp [hkept] at hmap
  | cons a more =>
      obtain ⟨g, t⟩ := a
      obtain rfl := Layout.gaps_head hplaced
      obtain rfl : t = k := by
        rw [hkept, List.map_cons, List.cons.injEq] at hmap
        exact hmap.1
      obtain ⟨ht, hmore⟩ := List.forall_mem_cons.1 hplacedFlat
      refine ⟨text, ⟨hformat, String.ofList (Layout.printed more), ?_⟩,
        Layout.isNeat_printed ht hmore hprinted⟩
      rw [← String.toList_inj, hprinted, ← htext]
      simp [Layout.printed, Gap.chars]

end Declaration

namespace Grammar

open SourceFile

theorem imports_of_ofTokens {ts vs ws : List Token} {package : String} {imports : List ImportSpec}
    {file : SourceFile} (hts : Closed vs) (hpackage : packageClause ts = .ok (package, vs))
    (himports : Imports vs imports ws) (hpeek : (peek ws).isKeyword "import" = false)
    (h : ofTokens ts = .ok file) : file.package = package ∧ file.imports = imports := by
  simp only [ofTokens, hpackage, importDecls_of_imports hts himports hpeek] at h
  cases hdecls : declarations 0 ws with
  | error e => simp [hdecls, Except.map] at h
  | ok decls =>
      simp only [hdecls, Except.map, Except.ok.injEq] at h
      rw [← h]
      exact ⟨rfl, rfl⟩

end Grammar

namespace Document

open Layout

variable {specs : List ImportSpec}

theorem newline_notMem_quotedPath {path : String} (h : ImportPath.isValid path = true) :
    '\n' ∉ (quotedPath path).toList := by
  simp only [ImportPath.isValid, Bool.and_eq_true] at h
  have hpath := (Grammar.isWritable_iff.1 h.1).2
  have hline : '\n' ∉ path.toList := Piece.newline_notMem fun c hc => (hpath c hc).2
  simp [quotedPath, hline]

theorem flat_placedSpec {path : String} (hpath : ImportPath.isValid path = true)
    {written : Option String} (hname : ∀ name ∈ written, Token.isName name = true) :
    ∀ a ∈ placedSpec path written, a.2.Flat := by
  intro a ha
  refine (lexed_placedSpec hpath hname a ha).1.flat fun hkind => ?_
  cases written with
  | none =>
      rw [List.mem_singleton.1 ha]
      exact newline_notMem_quotedPath hpath
  | some name =>
      rcases List.mem_cons.1 ha with rfl | ha
      · simp [Token.plain] at hkind
      · rw [List.mem_singleton.1 ha]
        exact newline_notMem_quotedPath hpath

theorem flat_keyword {text : String} (h : text ∈ keywords) : (Token.plain .keyword text).Flat :=
  (Token.lexed_keyword h).flat (by simp [Token.plain])

theorem flat_operator {text : String} (h : text ∈ Piece.operators) (hne : text ≠ ";") :
    (Token.plain .op text).Flat :=
  (Token.lexed_operator h hne).flat (by simp [Token.plain])

theorem flat_blockTokens (h : ∀ spec ∈ specs, Writable spec) : ∀ a ∈ blockTokens specs, a.2.Flat := by
  refine List.forall_mem_cons.2 ⟨flat_operator (by decide) (by decide), ?_⟩
  refine List.forall_mem_append.2 ⟨?_, ?_⟩
  · intro a ha
    obtain ⟨spec, hspec, ha⟩ := List.mem_flatMap.1 ha
    exact flat_placedSpec (h spec hspec).path (h spec hspec).writtenName a ha
  · exact List.forall_mem_singleton.2 (flat_operator (by decide) (by decide))

theorem isNeat_blockText (h : ∀ spec ∈ specs, Writable spec) : IsNeat (blockText specs) :=
  isNeat_printed (flat_keyword (by decide)) (flat_blockTokens h) (toList_blockText specs)

theorem isNeat_package {name : String} (h : (Token.plain .ident name).Flat) :
    IsNeat ("package " ++ name) := by
  have hpackage : (Token.plain .keyword "package").Flat := flat_keyword (by decide)
  have hrest : ∀ a ∈ [(Gap.space, Token.plain .ident name)], a.2.Flat := by simpa using h
  refine isNeat_printed hpackage hrest ?_
  simp [printed, Gap.chars, Token.plain]

theorem declTexts_of_neat {ds : List Declaration}
    (h : ∀ d ∈ ds, ∃ text, d.Prints text ∧ IsNeat text) :
    ∃ texts, declTexts ds = .ok texts ∧ List.Forall₂ Declaration.Prints ds texts ∧
      ∀ text ∈ texts, IsNeat text := by
  induction ds with
  | nil => exact ⟨[], rfl, .nil, by simp⟩
  | cons d ds ih =>
      obtain ⟨⟨text, hprints, hneat⟩, hds⟩ := List.forall_mem_cons.1 h
      obtain ⟨texts, htexts, hall, hneats⟩ := ih hds
      refine ⟨text :: texts, ?_, .cons hprints hall, List.forall_mem_cons.2 ⟨hneat, hneats⟩⟩
      simp [declTexts, hprints.format, htexts, Except.map]

theorem blocks_eq {ds : List Declaration} {texts : List String} (blank : Bool)
    (hspecs : ∀ spec ∈ specs, Writable spec) (hds : declTexts ds = .ok texts)
    (hneat : ∀ text ∈ texts, IsNeat text) :
    blocks specs ds blank = .ok ((if specs = [] then [] else [blockText specs]) ++
      if texts = [] then [] else [(if blank then "\n\n" else "\n").intercalate texts]) := by
  have himports : (if specs.isEmpty then .ok [] else (importBlock specs).map ([·])) =
      (Except.ok (if specs = [] then [] else [blockText specs]) : Except Fault (List String)) := by
    cases specs with
    | nil => rfl
    | cons spec specs =>
        rw [importBlock_blockText fun spec hspec => (hspecs spec hspec).named]
        rfl
  simp only [blocks, himports, hds]
  by_cases hnil : texts = []
  · simp [hnil]
  · have hbody := (IsNeat.intercalate hnil hneat blank).ne_empty
    simp [hnil, hbody]

theorem canonical_of_parts {name : String} (hname : (Token.plain .ident name).Flat)
    {parts : List String} (h : ∀ part ∈ parts, IsNeat part) :
    Canonical ("package " ++ name ++ "\n" ++
      if parts.isEmpty then "" else "\n" ++ "\n\n".intercalate parts ++ "\n") := by
  have hclause := isNeat_package hname
  cases parts with
  | nil => simpa using hclause.canonical
  | cons part parts =>
      have hfile := hclause.append_blank (IsNeat.intercalate (by simp) h true)
      have htext : "package " ++ name ++ "\n" ++ ("\n" ++ "\n\n".intercalate (part :: parts) ++ "\n") =
          "package " ++ name ++ "\n\n" ++ "\n\n".intercalate (part :: parts) ++ "\n" := by
        simp [← String.toList_inj]
      rw [List.isEmpty_cons, if_neg (by simp), htext]
      exact hfile.canonical

/-- A file with an import block: the package clause, an empty line and the block, and then the end or
an empty line and the declarations. -/
def HasBlock (name : String) (specs : List ImportSpec) (ds : List Declaration) (blank : Bool)
    (text : String) : Prop :=
  ∃ texts, List.Forall₂ Declaration.Prints ds texts ∧
    text = "package " ++ name ++ "\n\n" ++ blockText specs ++
      if texts = [] then "\n"
      else "\n\n" ++ (if blank then "\n\n" else "\n").intercalate texts ++ "\n"

theorem intercalate_cons_eq (sep first : String) (others : List String) :
    ∃ rest, sep.intercalate (first :: others) = first ++ rest := by
  cases others with
  | nil => exact ⟨"", by simp⟩
  | cons second others => exact ⟨_, by rw [String.intercalate_cons_cons, String.append_assoc]⟩

theorem render_canonical {name : String} {ds : List Declaration} (blank : Bool)
    (hpackage : isPackageName name = true) (hname : (Token.plain .ident name).Flat)
    (hspecs : ∀ spec ∈ specs, Writable spec)
    (hds : ∀ d ∈ ds, ∃ text, d.Prints text ∧ IsNeat text) :
    ∃ text, render name specs ds blank = .ok text ∧ Canonical text ∧
      (∃ more, text = "package " ++ name ++ "\n" ++ more) ∧
      (specs ≠ [] → HasBlock name specs ds blank text) := by
  obtain ⟨texts, htexts, hprints, hneats⟩ := declTexts_of_neat hds
  have hparts : ∀ part ∈ (if specs = [] then [] else [blockText specs]) ++
      (if texts = [] then [] else [(if blank then "\n\n" else "\n").intercalate texts]),
      IsNeat part := by
    refine List.forall_mem_append.2 ⟨?_, ?_⟩
    · split
      · simp
      · exact List.forall_mem_singleton.2 (isNeat_blockText hspecs)
    · split
      · simp
      · rename_i hne
        exact List.forall_mem_singleton.2 (IsNeat.intercalate hne hneats blank)
  refine ⟨_, ?_, canonical_of_parts hname hparts, ⟨_, rfl⟩, fun hne => ⟨texts, hprints, ?_⟩⟩
  · simp only [render, hpackage, blocks_eq blank hspecs htexts hneats, Except.map]
    rfl
  · by_cases hnil : texts = []
    · simp [hne, hnil, ← String.toList_inj]
    · simp [hne, hnil, ← String.toList_inj]

theorem imports_of_heads {name : String} {us vs ws : List Token} {file : SourceFile}
    (h : Heads us name specs) (hend : Grammar.Terminator vs ws)
    (hpeek : (SourceFile.peek ws).isKeyword "import" = false) (hclosed : Grammar.Closed (us ++ vs))
    (hfile : SourceFile.ofTokens (us ++ vs) = .ok file) :
    file.package = name ∧ file.imports.map view =
      specs.map fun spec => (spec.path, writtenName spec) := by
  obtain ⟨k, n, e, i, inner, rfl, hk, hn, rfl, he, hi, found, hclause, hviews⟩ := h.clause
  simp only [List.cons_append] at hclosed hfile
  have hpackage := (Grammar.packageClause_iff hclosed).2
    ⟨k, n, _, rfl, hk, hn, rfl, .semicolon he⟩
  have hrest := Grammar.closed_tail (Grammar.closed_tail (Grammar.closed_tail hclosed
    (by simp [(Grammar.kind_of_isKeyword hk).1])) (by simp [hn])) (by simp [he])
  obtain ⟨hname, himports⟩ := Grammar.imports_of_ofTokens hrest hpackage
    (.cons hi hclause hend .nil) hpeek hfile
  exact ⟨hname, by rw [himports, List.append_nil, hviews]⟩

theorem endsStatement_of_isOp {r : Token} (h : r.isOp ")" = true) : r.endsStatement = true := by
  obtain ⟨hkind, htext⟩ := Grammar.isOp_iff.1 h
  simp [Token.endsStatement, hkind, htext]

theorem imports_of_printed {name text : String} {tail : List Char} {file : SourceFile}
    (hname : (Token.plain .ident name).Lexed) (hspecs : ∀ spec ∈ specs, Writable spec)
    (htext : text.toList = printed (headTokens name specs) ++ tail)
    (htail : tail = ['\n'] ∨ ∃ c cs, tail = '\n' :: '\n' :: c :: cs ∧ startsWord c = true ∧ c ≠ 'i')
    (h : SourceFile.ofSource text = .ok file) :
    file.package = name ∧ file.imports.map view =
      specs.map fun spec => (spec.path, writtenName spec) := by
  have hpaths : ∀ spec ∈ specs, Grammar.PathText spec.path :=
    fun spec hspec => (hspecs spec hspec).pathText
  rcases htail with rfl | ⟨c, cs, rfl, hc, hi⟩
  · have hclears : Clears (headTokens name specs) ['\n'] :=
      clears_headTokens hname hspecs (by simp [Piece.Spaced])
    obtain ⟨us, last, e, hsource, hread, hlast, he⟩ := ofSource_printed htext (.inr rfl) hclears
    have hclosed := Grammar.closed_ofSource hsource
    simp only [SourceFile.ofSource, hsource] at h
    refine imports_of_heads (heads_of_read hpaths hread) hlast ?_ hclosed h
    simp [SourceFile.peek, Token.isKeyword, he]
  · -- the word that follows the block is a token of its own
    have hword : Piece.Lexeme ⟨.word, c :: cs.takeWhile isWord⟩ :=
      .word hc fun d hd => List.mem_takeWhile_imp hd
    obtain ⟨w, hw⟩ : ∃ w : Token, w.key = Piece.key ⟨.word, c :: cs.takeWhile isWord⟩ :=
      ⟨.plain _ _, rfl⟩
    have hsplit : '\n' :: '\n' :: c :: cs =
        printed [(.newline true 0, w)] ++ cs.dropWhile isWord := by
      simp [printed, Gap.chars, Token.toList_of_key hw, List.takeWhile_append_dropWhile]
    have hclear : Clears [(.newline true 0, w)] (cs.dropWhile isWord) :=
      ⟨⟨_, hword, hw, Piece.stops_dropWhile isWord cs⟩, trivial⟩
    have hhead : Clears (headTokens name specs)
        (printed [(.newline true 0, w)] ++ cs.dropWhile isWord) :=
      clears_headTokens hname hspecs (by simp [Piece.Spaced, printed, Gap.chars])
    obtain ⟨us, s, hread, hreach, -⟩ :=
      reaches_printed (clears_append hhead hclear) (s := {}) ⟨rfl, rfl⟩
    rw [printed_append, List.append_assoc, ← hsplit, ← htext] at hreach
    obtain ⟨vs, ws, rfl, hvs, hws⟩ := hread.of_append
    have hheads := heads_of_read hpaths hvs
    obtain ⟨r, hlast, hr⟩ := hheads.last
    rw [hlast, Option.map_some, Option.getD_some] at hws
    obtain ⟨es, u, zs, rfl, hdue, hu, -⟩ := hws.of_line (by simp [Gap.newlines])
    obtain ⟨e, rfl, he⟩ := hdue.of_true (endsStatement_of_isOp hr)
    cases hsource : Token.ofSource text with
    | error d => simp [SourceFile.ofSource, hsource] at h
    | ok ts =>
        have hts := (Token.ofSource_eq_ok.1 hsource).2
        have hclosed := Grammar.closed_ofSource hsource
        simp only [SourceFile.ofSource, hsource] at h
        rw [hreach.run, List.append_assoc, List.append_assoc] at hts
        rw [hts] at h hclosed
        refine imports_of_heads hheads (.semicolon he) ?_ hclosed h
        have htext : u.text.toList = c :: cs.takeWhile isWord := by
          rw [hu.text, Token.toList_of_key hw]
        have hne : u.text ≠ "import" := by
          intro himport
          rw [himport] at htext
          exact hi (List.cons.inj htext).1.symm
        simp [SourceFile.peek, Token.isKeyword, hne]

theorem startsWord_kind (kind : Declaration.Kind) :
    ∃ c cs, kind.text.toList = c :: cs ∧ startsWord c = true ∧ c ≠ 'i' := by
  cases kind with
  | const => exact ⟨'c', _, rfl, by decide, by decide⟩
  | var => exact ⟨'v', _, rfl, by decide, by decide⟩
  | type => exact ⟨'t', _, rfl, by decide, by decide⟩
  | func => exact ⟨'f', _, rfl, by decide, by decide⟩

theorem HasBlock.imports {name text : String} {ds : List Declaration} {blank : Bool}
    {file : SourceFile} (h : HasBlock name specs ds blank text)
    (hname : (Token.plain .ident name).Lexed) (hspecs : ∀ spec ∈ specs, Writable spec)
    (hfile : SourceFile.ofSource text = .ok file) :
    file.package = name ∧ file.imports.map view =
      specs.map fun spec => (spec.path, writtenName spec) := by
  obtain ⟨texts, hprints, htext⟩ := h
  cases hprints with
  | nil =>
      have hlist : text.toList = printed (headTokens name specs) ++ ['\n'] := by
        rw [htext, if_pos rfl, String.toList_append, toList_head]
        rfl
      exact imports_of_printed hname hspecs hlist (.inl rfl) hfile
  | @cons d first ds others hfirst _ =>
      obtain ⟨body, rfl⟩ := hfirst.keyword
      obtain ⟨c, cs, hkind, hc, hi⟩ := startsWord_kind d.kind
      obtain ⟨rest, hrest⟩ :=
        intercalate_cons_eq (if blank then "\n\n" else "\n") (d.kind.text ++ body) others
      have hlist : text.toList = printed (headTokens name specs) ++
          '\n' :: '\n' :: c :: (cs ++ body.toList ++ rest.toList ++ ['\n']) := by
        rw [htext, if_neg (by simp), hrest, String.toList_append, toList_head]
        simp [hkind]
      exact imports_of_printed hname hspecs hlist (.inr ⟨c, _, rfl, hc, hi⟩) hfile

end Document

end Gosmith.Go
