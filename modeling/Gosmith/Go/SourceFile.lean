import Gosmith.Go.Declaration
import Gosmith.Go.ImportPath
import Gosmith.Go.Token.Lexer

namespace Gosmith.Go

structure SourceFile where
  package : String
  imports : List ImportSpec := []
  decls : List Declaration := []
deriving DecidableEq, Repr

namespace SourceFile

def fail {α : Type} (fault : Fault) (t : Token) : Except Diagnostic α :=
  .error ⟨fault, t.pos⟩

-- The tokens of a source end with its end of file, which no reader passes (`Grammar.closed_ofSource`,
-- `Grammar.peek_mem`), so the token for the empty list is never seen.
def peek : List Token → Token
  | [] => { kind := .eof, text := "", pos := ⟨1, 1⟩ }
  | t :: _ => t

def terminator (ts : List Token) : Except Diagnostic (List Token) :=
  let t := peek ts
  if t.kind = .semicolon then .ok ts.tail
  else if t.kind = .eof then .ok ts
  else fail (.expectedSemicolon t) t

def specName : List Token → Option String × List Token
  | [] => (none, [])
  | t :: rest => if t.kind == .ident || t.isOp "." then (some t.text, rest) else (none, t :: rest)

def specPath (t : Token) : Except Diagnostic String :=
  let path := String.ofList t.text.toList.tail.dropLast
  if ImportPath.isWritable path then .ok path else fail (.invalidImportPath t.text) t

def importSpec (ts : List Token) : Except Diagnostic (ImportSpec × List Token) :=
  let t := peek (specName ts).2
  if t.kind = .string then
    match specPath t with
    | .ok path => .ok (⟨path, (specName ts).1, (peek ts).pos.line⟩, (specName ts).2.tail)
    | .error e => .error e
  else fail (.expectedImportPath t) t

theorem specName_length (ts : List Token) : (specName ts).2.length ≤ ts.length := by
  unfold specName
  split
  · simp
  · split <;> simp

theorem importSpec_length {ts rest : List Token} {spec : ImportSpec}
    (h : importSpec ts = .ok (spec, rest)) : rest.length < ts.length := by
  simp only [importSpec] at h
  split at h
  · rename_i hk
    split at h
    · simp only [Except.ok.injEq, Prod.mk.injEq] at h
      obtain ⟨_, rfl⟩ := h
      have hl := specName_length ts
      cases hs : (specName ts).2 with
      | nil => rw [hs] at hk; simp [peek] at hk
      | cons t us => rw [hs] at hl; simp only [List.length_cons] at hl; simp; omega
    · simp at h
  · simp [fail] at h

def importGroup (ts : List Token) : Except Diagnostic (List ImportSpec × List Token) :=
  if (peek ts).isOp ")" then .ok ([], ts.tail)
  else match _h : importSpec ts with
    | .error e => .error e
    | .ok (spec, rest) =>
        let t := peek rest
        if t.isOp ")" then .ok ([spec], rest.tail)
        else if t.kind = .semicolon then
          match importGroup rest.tail with
          | .error e => .error e
          | .ok (specs, after) => .ok (spec :: specs, after)
        else fail (.expectedSpecEnd t) t
termination_by ts.length
decreasing_by
  have := importSpec_length (by assumption)
  simp only [List.length_tail]
  omega

def importDecl (ts : List Token) : Except Diagnostic (List ImportSpec × List Token) :=
  let specs := if (peek ts).isOp "(" then importGroup ts.tail
    else (importSpec ts).map fun (spec, rest) => ([spec], rest)
  match specs with
  | .error e => .error e
  | .ok (specs, rest) => (terminator rest).map fun after => (specs, after)

theorem terminator_length {ts rest : List Token} (h : terminator ts = .ok rest) :
    rest.length ≤ ts.length := by
  simp only [terminator] at h
  split at h
  · simp only [Except.ok.injEq] at h
    subst h
    simp
  · split at h
    · simp only [Except.ok.injEq] at h
      simp [h]
    · simp [fail] at h

theorem importGroup_length {ts rest : List Token} {specs : List ImportSpec}
    (h : importGroup ts = .ok (specs, rest)) : rest.length ≤ ts.length := by
  fun_induction importGroup ts generalizing specs rest with
  | case1 ts hp =>
      simp only [Except.ok.injEq, Prod.mk.injEq] at h
      simp [← h.2]
  | case2 ts hp e hs => simp at h
  | case3 ts hp spec after hs t =>
      simp only [Except.ok.injEq, Prod.mk.injEq] at h
      have := importSpec_length hs
      simp only [← h.2, List.length_tail]
      omega
  | case4 => simp at h
  | case5 ts hp spec after hs t ht hk specs' last he =>
      rename_i ih
      simp only [Except.ok.injEq, Prod.mk.injEq] at h
      have h1 := importSpec_length hs
      have h2 := ih he
      simp only [List.length_tail] at h2
      simp only [← h.2]
      omega
  | case6 => simp [fail] at h

theorem importDecl_length {ts rest : List Token} {specs : List ImportSpec}
    (h : importDecl ts = .ok (specs, rest)) : rest.length ≤ ts.length := by
  simp only [importDecl] at h
  split at h
  · simp at h
  · rename_i specs' mid hm
    have hmid : mid.length ≤ ts.length := by
      split at hm
      · have := importGroup_length hm
        simp only [List.length_tail] at this
        omega
      · cases hs : importSpec ts with
        | error e => rw [hs] at hm; simp [Except.map] at hm
        | ok r =>
            rw [hs] at hm
            simp only [Except.map, Except.ok.injEq, Prod.mk.injEq] at hm
            have := @importSpec_length ts r.2 r.1 hs
            rw [← hm.2]
            omega
    cases ht : terminator mid with
    | error e => rw [ht] at h; simp [Except.map] at h
    | ok r =>
        rw [ht] at h
        simp only [Except.map, Except.ok.injEq, Prod.mk.injEq] at h
        have := terminator_length ht
        rw [← h.2]
        omega

def importDecls (ts : List Token) : Except Diagnostic (List ImportSpec × List Token) :=
  match ts with
  | [] => .ok ([], [])
  | t :: rest =>
      if t.isKeyword "import" then
        match _h : importDecl rest with
        | .error e => .error e
        | .ok (specs, after) =>
            match importDecls after with
            | .error e => .error e
            | .ok (more, last) => .ok (specs ++ more, last)
      else .ok ([], t :: rest)
termination_by ts.length
decreasing_by
  have := importDecl_length (by assumption)
  simp only [List.length_cons]
  omega

def declTokens : List String → List Token → Except Diagnostic (List Token × List Token)
  | _, [] => .ok ([], [])
  | stack, t :: rest =>
      let more (stack : List String) : Except Diagnostic (List Token × List Token) :=
        match declTokens stack rest with
        | .error e => .error e
        | .ok (tokens, after) => .ok (t :: tokens, after)
      if t.kind = .eof then
        match stack with
        | [] => .ok ([], t :: rest)
        | opener :: _ => fail (.unclosed (Token.closerOf opener)) t
      else if t.kind = .semicolon && stack.isEmpty then .ok ([], rest)
      else if t.isOpener then more (t.text :: stack)
      else if t.isCloser then
        match stack with
        | [] => fail (.unexpectedCloser t.text) t
        | opener :: below =>
            if Token.closerOf opener = t.text then more below else fail (.unexpectedCloser t.text) t
      else more stack

theorem declTokens_length {stack : List String} {ts tokens rest : List Token}
    (h : declTokens stack ts = .ok (tokens, rest)) : rest.length ≤ ts.length := by
  induction ts generalizing stack tokens with
  | nil =>
      simp only [declTokens, Except.ok.injEq, Prod.mk.injEq] at h
      simp [← h.2]
  | cons t us ih =>
      have hmore : ∀ (s : List String) (tokens : List Token),
          (match declTokens s us with
            | .error e => .error e
            | .ok (tokens, after) => .ok (t :: tokens, after)) =
            (Except.ok (tokens, rest) : Except Diagnostic _) →
          rest.length ≤ (t :: us).length := by
        intro s tokens h
        split at h
        · simp at h
        · rename_i hs
          simp only [Except.ok.injEq, Prod.mk.injEq] at h
          have := ih (h.2 ▸ hs)
          simp only [List.length_cons]
          omega
      simp only [declTokens] at h
      split at h
      · split at h
        · simp only [Except.ok.injEq, Prod.mk.injEq] at h
          simp [← h.2]
        · simp [fail] at h
      · split at h
        · simp only [Except.ok.injEq, Prod.mk.injEq] at h
          simp [← h.2]
        · split at h
          · exact hmore _ _ h
          · split at h
            · split at h
              · simp [fail] at h
              · split at h
                · exact hmore _ _ h
                · simp [fail] at h
            · exact hmore _ _ h

def moreNames : List Token → List String
  | comma :: t :: rest =>
      if comma.isOp "," && t.kind == .ident then t.text :: moreNames rest else []
  | _ => []

def groupNames : Nat → Bool → List Token → List String
  | _, _, [] => []
  | depth, atStart, t :: rest =>
      if t.isOpener then groupNames (depth + 1) (depth == 0) rest
      else if t.isCloser then groupNames (depth - 1) atStart rest
      else if depth == 1 && t.kind == .semicolon then groupNames depth true rest
      else if atStart && t.kind == .ident then t.text :: groupNames depth false rest
      else groupNames depth false rest

def specNames (keyword : Token) : List Token → Except Diagnostic (List String)
  | [] => fail (.expectedSpec keyword.text none) keyword
  | t :: rest =>
      if t.isOp "(" then .ok (groupNames 0 false (t :: rest))
      else if t.kind ≠ .ident then fail (.expectedSpec keyword.text (some t)) t
      else if rest.isEmpty then fail (.incompleteSpec keyword.text t.text) t
      else .ok (t.text :: moreNames rest)

def closerIndex? : Nat → List Token → Option Nat
  | _, [] => none
  | depth, t :: rest =>
      if t.isOpener then (closerIndex? (depth + 1) rest).map (· + 1)
      else if t.isCloser then
        if depth = 1 then some 0 else (closerIndex? (depth - 1) rest).map (· + 1)
      else (closerIndex? depth rest).map (· + 1)

def partner (ts : List Token) : Nat :=
  (closerIndex? 0 ts).getD (ts.length - 1)

def receiverType : Nat → Option String → List Token → Option String
  | _, found, [] => found
  | depth, found, t :: rest =>
      if t.isOp "[" then receiverType (depth + 1) found rest
      else if t.isOp "]" then receiverType (depth - 1) found rest
      else if depth == 0 && t.kind == .ident then receiverType depth (some t.text) rest
      else receiverType depth found rest

def receiver (ts : List Token) : Except Diagnostic (Option String × List Token) :=
  let t := peek ts
  if t.isOp "(" then
    let close := partner ts
    match receiverType 0 none ((ts.take close).drop 1) with
    | some name => .ok (some name, ts.drop (close + 1))
    | none => fail .noReceiverType t
  else .ok (none, ts)

def skipTypeParams (name : Token) (ts : List Token) : Token × List Token :=
  if (peek ts).isOp "[" then
    let close := partner ts
    (ts.getD close name, ts.drop (close + 1))
  else (name, ts)

def funcHeader (keyword : Token) (ts : List Token) :
    Except Diagnostic (String × Option String) :=
  match receiver ts with
  | .error e => .error e
  | .ok (receiver, rest) =>
      match rest with
      | [] => fail (.expectedFunctionName none) keyword
      | name :: after =>
          if name.kind ≠ .ident then fail (.expectedFunctionName (some name)) keyword
          else
            let (last, params) := skipTypeParams name after
            if (peek params).isOp "(" then .ok (name.text, receiver)
            else fail (.expectedParameters name.text) last

def header (kind : Declaration.Kind) (keyword : Token) (ts : List Token) :
    Except Diagnostic (List String × Option String) :=
  match kind with
  | .func => (funcHeader keyword ts).map fun (name, receiver) => ([name], receiver)
  | _ => (specNames keyword ts).map fun names => (names, none)

def startKind (t : Token) : Except Diagnostic Declaration.Kind :=
  if t.isKeyword "import" then fail .lateImport t
  else match (if t.kind = .keyword then Declaration.Kind.ofText? t.text else none) with
    | some kind => .ok kind
    | none => fail (.expectedDeclaration t) t

def declaration (order : Nat) (t : Token) (rest : List Token) :
    Except Diagnostic (Declaration × List Token) :=
  match startKind t, declTokens [] rest with
  | .error e, _ => .error e
  | .ok _, .error e => .error e
  | .ok kind, .ok (tokens, after) =>
      (header kind t tokens).map fun (names, receiver) =>
        ({ kind, tokens := t :: tokens, names, receiver, line := t.pos.line, order }, after)

theorem declaration_length {order : Nat} {t : Token} {rest after : List Token} {d : Declaration}
    (h : declaration order t rest = .ok (d, after)) : after.length ≤ rest.length := by
  simp only [declaration] at h
  split at h
  · simp at h
  · simp at h
  · rename_i kind tokens mid hs hd
    cases hh : header kind t tokens with
    | error e => rw [hh] at h; simp [Except.map] at h
    | ok r =>
        rw [hh] at h
        simp only [Except.map, Except.ok.injEq, Prod.mk.injEq] at h
        rw [← h.2]
        exact declTokens_length hd

def declarations (order : Nat) (ts : List Token) : Except Diagnostic (List Declaration) :=
  match ts with
  | [] => .ok []
  | t :: rest =>
      if t.kind = .eof then .ok []
      else match _h : declaration order t rest with
        | .error e => .error e
        | .ok (d, after) =>
            match declarations (order + 1) after with
            | .error e => .error e
            | .ok more => .ok (d :: more)
termination_by ts.length
decreasing_by
  have := declaration_length (by assumption)
  simp only [List.length_cons]
  omega

def packageClause (ts : List Token) : Except Diagnostic (String × List Token) :=
  let t := peek ts
  let name := peek ts.tail
  if !t.isKeyword "package" then fail (.expectedPackage t) t
  else if name.kind ≠ .ident then fail (.expectedPackageName name) name
  else (terminator ts.tail.tail).map fun rest => (name.text, rest)

def ofTokens (ts : List Token) : Except Diagnostic SourceFile :=
  match packageClause ts with
  | .error e => .error e
  | .ok (package, rest) =>
      match importDecls rest with
      | .error e => .error e
      | .ok (imports, after) =>
          (declarations 0 after).map fun decls => { package, imports, decls }

def ofSource (source : String) : Except Diagnostic SourceFile :=
  match Token.ofSource source with
  | .error e => .error e
  | .ok ts => ofTokens ts

end SourceFile

end Gosmith.Go
