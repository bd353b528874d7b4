import Gosmith.Proofs.Layout.Document
import Gosmith.Proofs.Layout.Reading

namespace Gosmith.Go

namespace Document

open Layout

def quotedPath (path : String) : String :=
  "\"" ++ path ++ "\""

def writtenName (spec : ImportSpec) : Option String :=
  if spec.name = some (ImportPath.lastSegment spec.path) ∧
    ImportPath.baseName? spec.path = spec.name then none else spec.name

def specLine (path : String) : Option String → String
  | none => quotedPath path
  | some name => name ++ " " ++ quotedPath path

theorem importSpec_eq {spec : ImportSpec} (h : ∃ name, spec.name = some name ∧ name ≠ "") :
    importSpec spec = .ok (specLine spec.path (writtenName spec)) := by
  obtain ⟨name, hname, hne⟩ := h
  simp only [importSpec, writtenName, hname, Option.some.injEq]
  by_cases hlast : name = ImportPath.lastSegment spec.path
  · cases hbase : ImportPath.baseName? spec.path with
    | none => exact absurd (hlast.trans (ImportPath.lastSegment_of_baseName? hbase)) hne
    | some base =>
        by_cases hsame : base = name
        · simp [← hlast, hsame, specLine, quotedPath]
        · simp [← hlast, hsame, specLine, quotedPath]
  · simp [hlast, specLine, quotedPath]

theorem importLines_eq {specs : List ImportSpec}
    (h : ∀ spec ∈ specs, ∃ name, spec.name = some name ∧ name ≠ "") :
    importLines specs =
      .ok (specs.map fun spec => "\t" ++ specLine spec.path (writtenName spec)) := by
  induction specs with
  | nil => rfl
  | cons spec rest ih =>
      obtain ⟨hspec, hrest⟩ := List.forall_mem_cons.1 h
      simp [importLines, importSpec_eq hspec, ih hrest, Except.map]

theorem toList_intercalate_newline (line : String) (lines : List String) :
    ("\n".intercalate (line :: lines)).toList =
      line.toList ++ lines.flatMap fun l => '\n' :: l.toList := by
  induction lines generalizing line with
  | nil => simp
  | cons l lines ih =>
      rw [String.intercalate_cons_cons, String.toList_append, String.toList_append, ih l]
      simp

def placedSpec (path : String) : Option String → List (Gap × Token)
  | none => [(.newline false 1, .plain .string (quotedPath path))]
  | some name =>
      [(.newline false 1, .plain .ident name), (.space, .plain .string (quotedPath path))]

theorem printed_placedSpec (path : String) (written : Option String) :
    printed (placedSpec path written) = '\n' :: ("\t" ++ specLine path written).toList := by
  cases written with
  | none => simp [placedSpec, specLine, printed, Gap.chars, Token.plain]
  | some name => simp [placedSpec, specLine, printed, Gap.chars, Token.plain]

theorem printed_flatMap {α : Type} (f : α → List (Gap × Token)) (items : List α) :
    printed (items.flatMap f) = items.flatMap fun a => printed (f a) := by
  induction items with
  | nil => rfl
  | cons a items ih => simp [printed_append, ih]

def blockTokens (specs : List ImportSpec) : List (Gap × Token) :=
  (.space, .plain .op "(") ::
    (specs.flatMap (fun spec => placedSpec spec.path (writtenName spec)) ++
      [(.newline false 0, .plain .op ")")])

def headTokens (name : String) (specs : List ImportSpec) : List (Gap × Token) :=
  (.none, .plain .keyword "package") :: (.space, .plain .ident name) ::
    (.newline true 0, .plain .keyword "import") :: blockTokens specs

def blockText (specs : List ImportSpec) : String :=
  "\n".intercalate
    ("import (" :: specs.map (fun spec => "\t" ++ specLine spec.path (writtenName spec)) ++ [")"])

theorem importBlock_blockText {specs : List ImportSpec}
    (h : ∀ spec ∈ specs, ∃ name, spec.name = some name ∧ name ≠ "") :
    importBlock specs = .ok (blockText specs) := by
  simp only [importBlock, importLines_eq h, Except.map]
  rfl

theorem toList_blockText (specs : List ImportSpec) :
    (blockText specs).toList = printed ((.none, .plain .keyword "import") :: blockTokens specs) := by
  rw [blockText, List.cons_append, toList_intercalate_newline, blockTokens, printed, printed,
    printed_append, printed_flatMap]
  simp [printed_placedSpec, printed, Gap.chars, Token.plain, List.flatMap_map]

theorem toList_head (name : String) (specs : List ImportSpec) :
    ("package " ++ name ++ "\n\n" ++ blockText specs).toList = printed (headTokens name specs) := by
  rw [String.toList_append, toList_blockText]
  simp [headTokens, printed, Gap.chars, Token.plain]

theorem importBlock_eq {specs : List ImportSpec}
    (h : ∀ spec ∈ specs, ∃ name, spec.name = some name ∧ name ≠ "") :
    ∃ text, importBlock specs = .ok text ∧
      ("package p\n\n" ++ text).toList = printed (headTokens "p" specs) :=
  ⟨blockText specs, importBlock_blockText h, toList_head "p" specs⟩

theorem stringBody_quoted {cs : List Char} (h : ∀ c ∈ cs, c ≠ '\\' ∧ c ≠ '"' ∧ c ≠ '\n') :
    Piece.stringBody (cs ++ ['"']) = some (cs ++ ['"'], []) := by
  induction cs with
  | nil => decide
  | cons c cs ih =>
      obtain ⟨⟨hslash, hquote, hline⟩, hcs⟩ := List.forall_mem_cons.1 h
      rw [List.cons_append, Piece.stringBody]
      · simp [hquote, hline, ih hcs]
      · simp [hslash]
      · simp [hslash]

theorem lexed_quotedPath {path : String} (h : ImportPath.isValid path = true) :
    (Token.plain .string (quotedPath path)).Lexed := by
  simp only [ImportPath.isValid, Bool.and_eq_true, Bool.not_eq_true', List.contains_eq_mem,
    decide_eq_false_iff_not] at h
  obtain ⟨hwritable, hquote⟩ := h
  have hpath := (Grammar.isWritable_iff.1 hwritable).2
  have hbody : ∀ c ∈ path.toList, c ≠ '\\' ∧ c ≠ '"' ∧ c ≠ '\n' := by
    intro c hc
    obtain ⟨hslash, hblank⟩ := hpath c hc
    refine ⟨hslash, ?_, ?_⟩
    · rintro rfl
      exact hquote hc
    · rintro rfl
      exact absurd hblank (by decide)
  refine ⟨⟨.string, '"' :: (path.toList ++ ['"'])⟩, .string (stringBody_quoted hbody), ?_⟩
  simp [Token.key, Token.plain, Piece.key, Piece.tokenKind, quotedPath, String.ofList_append,
    String.ofList_cons, String.append_assoc]

theorem content_quotedPath {u : Token} {path : String} (h : u.text = quotedPath path) :
    Grammar.content u = path := by
  simp [Grammar.content, h, quotedPath]

structure Writable (spec : ImportSpec) : Prop where
  path : ImportPath.isValid spec.path = true
  name : ∃ name, spec.name = some name ∧ Token.isName name = true

theorem Writable.writtenName {spec : ImportSpec} (h : Writable spec) :
    ∀ name ∈ writtenName spec, Token.isName name = true := by
  obtain ⟨name, hname, hspelled⟩ := h.name
  intro written hwritten
  unfold Document.writtenName at hwritten
  split at hwritten
  · simp at hwritten
  · rw [hname] at hwritten
    cases hwritten
    exact hspelled

theorem lexed_placedSpec {path : String} (hpath : ImportPath.isValid path = true)
    {written : Option String} (hname : ∀ name ∈ written, Token.isName name = true) :
    ∀ a ∈ placedSpec path written, a.2.Lexed ∧ a.1 ≠ .none := by
  have hquoted := lexed_quotedPath hpath
  cases written with
  | none => simp [placedSpec, hquoted]
  | some name => simp [placedSpec, hquoted, Token.lexed_name (hname name rfl)]

theorem clears_headTokens {name : String} (hname : (Token.plain .ident name).Lexed)
    {specs : List ImportSpec} (h : ∀ spec ∈ specs, Writable spec) {rest : List Char}
    (hrest : Piece.Spaced rest) : Clears (headTokens name specs) rest := by
  have hspecs : ∀ a ∈ specs.flatMap (fun spec => placedSpec spec.path (writtenName spec)),
      a.2.Lexed ∧ a.1 ≠ .none := by
    intro a ha
    obtain ⟨spec, hspec, ha⟩ := List.mem_flatMap.1 ha
    exact lexed_placedSpec (h spec hspec).path (h spec hspec).writtenName a ha
  have hpackage : (Token.plain .keyword "package").Lexed := Token.lexed_keyword (by decide)
  have himport : (Token.plain .keyword "import").Lexed := Token.lexed_keyword (by decide)
  have hopen : (Token.plain .op "(").Lexed := Token.lexed_operator (by decide) (by decide)
  have hclose : (Token.plain .op ")").Lexed := Token.lexed_operator (by decide) (by decide)
  refine clears_of_gapped ?_ ?_ hrest
  · simpa [headTokens, blockTokens, or_imp, forall_and, hpackage, himport, hname, hopen, hclose]
      using fun a ha => (hspecs a ha).1
  · simpa [headTokens, blockTokens, or_imp, forall_and] using fun a ha => (hspecs a ha).2

theorem endsStatement_string {u : Token} (h : u.kind = .string) : u.endsStatement = true := by
  simp [Token.endsStatement, h, Token.Kind.isLiteral]

theorem spec_of_read {path : String} (hpath : Grammar.PathText path) {written : Option String}
    {breaks : Bool} {placed : List (Gap × Token)} {us : List Token}
    (h : Read breaks (placedSpec path written ++ placed) us) :
    ∃ es vs ws line, us = es ++ (vs ++ ws) ∧ Due breaks es ∧
      Grammar.Spec vs ⟨path, written, line⟩ ∧ Read true placed ws := by
  cases written with
  | none =>
      obtain ⟨es, u, ws, rfl, hdue, hu, hread⟩ := h.of_line (by simp [Gap.newlines])
      have hcontent := content_quotedPath hu.text
      rw [endsStatement_string hu.kind] at hread
      refine ⟨es, [u], ws, u.pos.line, rfl, hdue, ?_, hread⟩
      rw [← hcontent] at hpath ⊢
      exact .plain hu.kind hpath
  | some name =>
      obtain ⟨es, n, ws', rfl, hdue, hn, hread⟩ := h.of_line (by simp [Gap.newlines])
      obtain ⟨u, ws, rfl, hu, hread⟩ := hread.of_flat rfl
      have hcontent := content_quotedPath hu.text
      rw [endsStatement_string hu.kind] at hread
      refine ⟨es, [n, u], ws, n.pos.line, rfl, hdue, ?_, hread⟩
      rw [← hcontent] at hpath ⊢
      obtain rfl : n.text = name := hn.text
      exact .named (.inl hn.kind) hu.kind hpath

def view (spec : ImportSpec) : String × Option String :=
  (spec.path, spec.name)

theorem specs_of_read {specs : List ImportSpec} (hpaths : ∀ spec ∈ specs, Grammar.PathText spec.path)
    {breaks : Bool} {us : List Token}
    (h : Read breaks (specs.flatMap (fun spec => placedSpec spec.path (writtenName spec)) ++
      [(.newline false 0, .plain .op ")")]) us) :
    ∃ es inner r found, us = es ++ (inner ++ [r]) ∧ Due breaks es ∧ Grammar.Specs inner found ∧
      r.isOp ")" = true ∧ found.map view = specs.map fun spec => (spec.path, writtenName spec) := by
  induction specs generalizing breaks us with
  | nil =>
      obtain ⟨es, r, vs, rfl, hdue, hr, hread⟩ := h.of_line (by simp [Gap.newlines])
      obtain rfl := hread.of_nil
      exact ⟨es, [], r, [], rfl, hdue, .nil, Grammar.isOp_iff.2 ⟨hr.kind, hr.text⟩, rfl⟩
  | cons spec specs ih =>
      obtain ⟨hpath, hpaths⟩ := List.forall_mem_cons.1 hpaths
      rw [List.flatMap_cons, List.append_assoc] at h
      obtain ⟨es, vs, ws, line, rfl, hdue, hspec, hread⟩ := spec_of_read hpath h
      obtain ⟨es', inner, r, found, rfl, hdue', hspecs, hr, hviews⟩ := ih hpaths hread
      obtain ⟨e, rfl, he⟩ := hdue'.of_true rfl
      refine ⟨es, vs ++ e :: inner, r, _ :: found, by simp, hdue, .cons hspec he hspecs, hr, ?_⟩
      simp [view, hviews]

structure Heads (us : List Token) (name : String) (specs : List ImportSpec) : Prop where
  clause : ∃ k n e i inner, us = k :: n :: e :: i :: inner ∧ k.isKeyword "package" = true ∧
    n.kind = .ident ∧ n.text = name ∧ e.kind = .semicolon ∧ i.isKeyword "import" = true ∧
    ∃ found, Grammar.Clause inner found ∧
      found.map view = specs.map fun spec => (spec.path, writtenName spec)
  last : ∃ r, us.getLast? = some r ∧ r.isOp ")" = true

theorem heads_of_read {name : String} {specs : List ImportSpec}
    (hpaths : ∀ spec ∈ specs, Grammar.PathText spec.path) {us : List Token}
    (h : Read false (headTokens name specs) us) : Heads us name specs := by
  -- package, the name, a line end, import (
  obtain ⟨k, us, rfl, hk, hread⟩ := h.of_flat rfl
  obtain ⟨n, us, rfl, hn, hread⟩ := hread.of_flat rfl
  obtain ⟨es, i, us, rfl, hdue, hi, hread⟩ := hread.of_line (by simp [Gap.newlines])
  obtain ⟨l, us, rfl, hl, hread⟩ := hread.of_flat rfl
  obtain ⟨es', inner, r, found, rfl, hdue', hspecs, hr, hviews⟩ := specs_of_read hpaths hread
  obtain ⟨e, rfl, he⟩ := hdue.of_true (by simp [Token.endsStatement, hn.kind, Token.plain])
  obtain rfl := hdue'.of_false (by simp [Token.endsStatement, hl.kind, hl.text, Token.plain])
  have hpackage : k.isKeyword "package" = true := by
    simp [Token.isKeyword, hk.kind, hk.text, Token.plain]
  have himport : i.isKeyword "import" = true := by
    simp [Token.isKeyword, hi.kind, hi.text, Token.plain]
  have hclause : Grammar.Clause (l :: (inner ++ [r])) found :=
    .group (Grammar.isOp_iff.2 ⟨hl.kind, hl.text⟩) hr hspecs
  exact ⟨⟨k, n, e, i, _, by simp, hpackage, hn.kind, hn.text, he, himport, found, hclause, hviews⟩,
    ⟨r, by simp [List.getLast?_cons], hr⟩⟩

theorem Writable.pathText {spec : ImportSpec} (h : Writable spec) : Grammar.PathText spec.path := by
  have hvalid := h.path
  simp only [ImportPath.isValid, Bool.and_eq_true] at hvalid
  exact Grammar.isWritable_iff.1 hvalid.1

theorem Writable.named {spec : ImportSpec} (h : Writable spec) :
    ∃ name, spec.name = some name ∧ name ≠ "" := by
  obtain ⟨name, hname, hspelled⟩ := h.name
  exact ⟨name, hname, Token.isName_ne_empty hspelled⟩

theorem ofSource_importBlock {specs : List ImportSpec} (h : ∀ spec ∈ specs, Writable spec) :
    ∃ text file, importBlock specs = .ok text ∧
      SourceFile.ofSource ("package p\n\n" ++ text) = .ok file ∧ file.decls = [] ∧
      file.imports.map view = specs.map fun spec => (spec.path, writtenName spec) := by
  obtain ⟨text, hblock, htext⟩ := importBlock_eq fun spec hspec => (h spec hspec).named
  have hname : (Token.plain .ident "p").Lexed := Token.lexed_name (by decide +kernel)
  have hclears : Clears (headTokens "p" specs) [] := clears_headTokens hname h (by simp [Piece.Spaced])
  obtain ⟨us, last, e, hsource, hread, hlast, he⟩ :=
    ofSource_printed (by rw [htext, List.append_nil]) (.inl rfl) hclears
  have hheads : Heads us "p" specs := heads_of_read (fun spec hspec => (h spec hspec).pathText) hread
  obtain ⟨k, n, e₁, i, inner, rfl, hk, hn, -, he₁, hi, found, hclause, hviews⟩ := hheads.clause
  have hfile : Grammar.File _ n.text _ [] :=
    .mk hk hn (.semicolon he₁) (.cons hi hclause hlast .nil) (.nil he)
  obtain ⟨file, hfile, -, himports, hdecls⟩ :=
    Grammar.ofTokens_of_file (Grammar.closed_ofSource hsource) (by simpa using hfile)
  refine ⟨text, file, hblock, ?_, by simpa using hdecls, by rw [himports, hviews]⟩
  rw [SourceFile.ofSource, hsource]
  exact hfile

end Document

end Gosmith.Go
