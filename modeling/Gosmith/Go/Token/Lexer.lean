import Gosmith.Go.Token.Piece

namespace Gosmith.Go

open Gosmith.Text

/-- The position after a piece. Newlines inside a string literal, which stand after a backslash
there, do not start a line. -/
def Position.advance (pos : Position) (p : Piece) : Position :=
  let newlines := count '\n' p.text
  if p.kind = .string ∨ newlines = 0 then { pos with column := pos.column + p.text.length }
  else { line := pos.line + newlines, column := (lastLine p.text).length + 1 }

namespace Piece

def numberKind (text : List Char) : Token.Kind :=
  let lower := text.map Char.toLower
  if text.getLast? = some 'i' then .imag
  else match lower with
    | '0' :: 'x' :: _ => if lower.contains '.' || lower.contains 'p' then .float else .int
    | '0' :: 'b' :: _ => .int
    | '0' :: 'o' :: _ => .int
    | _ => if lower.contains '.' || lower.contains 'e' then .float else .int

def tokenKind (p : Piece) : Token.Kind :=
  match p.kind with
  | .rawString | .string => .string
  | .char => .char
  | .number => numberKind p.text
  | .word => if isKeyword (String.ofList p.text) then .keyword else .ident
  | _ => if p.text = [';'] then .semicolon else .op

end Piece

namespace Token

structure Pending where
  pos : Position := ⟨1, 1⟩
  space : Bool := false
  newlines : Nat := 0
  breaks : Bool := false
deriving DecidableEq, Repr, Inhabited

namespace Pending

def lineEnd (s : Pending) : List Token :=
  if s.breaks then [{ kind := .semicolon, text := autoText, pos := s.pos }] else []

def token (s : Pending) (p : Piece) : Token :=
  { kind := p.tokenKind, text := String.ofList p.text, pos := s.pos,
    spaceBefore := s.space, newlinesBefore := s.newlines }

def step (s : Pending) (p : Piece) : List Token × Pending :=
  let pos := s.pos.advance p
  if p.kind.isGap then
    match count '\n' p.text with
    | 0 => ([], { s with pos := pos, space := true })
    | n => (s.lineEnd, { pos := pos, newlines := s.newlines + n })
  else ([s.token p], { pos := pos, breaks := (s.token p).endsStatement })

def run (s : Pending) : List Piece → List Token × Pending
  | [] => ([], s)
  | p :: rest =>
      let (tokens, s') := s.step p
      let (more, last) := run s' rest
      (tokens ++ more, last)

def finish (s : Pending) : List Token :=
  s.lineEnd ++ [{ kind := .eof, text := "", pos := s.pos,
                  spaceBefore := s.space, newlinesBefore := s.newlines }]

end Pending

def ofSource (source : String) : Except Diagnostic (List Token) :=
  let (pieces, fault) := Piece.split source.toList
  let (tokens, last) := ({} : Pending).run pieces
  match fault with
  | some f => .error ⟨f, last.pos⟩
  | none => .ok (tokens ++ last.finish)

end Token

end Gosmith.Go
