import Gosmith.Settings.Yaml.Scalar

namespace Gosmith.Settings.Yaml

inductive Token where
  | listStart
  | mappingStart
  | blockEnd
  | flowListStart
  | flowListEnd
  | flowMappingStart
  | flowMappingEnd
  | item
  | comma
  | key
  | value
  | scalar (isPlain : Bool) (text : List Char)
  | documentStart
  | documentEnd
deriving DecidableEq, Repr

structure Place where
  index : Nat := 0
  line : Nat := 0
  column : Nat := 0

def Place.after (p : Place) (c : Char) : Place :=
  if isBreak c then ⟨p.index + 1, p.line + 1, 0⟩
  else if c = '\ufeff' then ⟨p.index + 1, p.line, p.column⟩
  else ⟨p.index + 1, p.line, p.column + 1⟩

structure Input where
  rest : List Char
  place : Place := {}

def Input.goTo (i : Input) (rest : List Char) : Input :=
  ⟨rest, (i.rest.take (i.rest.length - rest.length)).foldl Place.after i.place⟩

def plainText (flow : Bool) (least : Int) (gap : List Char) (lineStart : Bool) (i : Input) :
    List Char × Input × Bool :=
  match i.rest.head? == some '#', plainWord flow i.rest with
  | true, _ => ([], i, lineStart)
  | _, ([], _) => ([], i, lineStart)
  | _, (word, after) =>
      let (space, rest, crossed) := plainGap after
      let j := i.goTo rest
      if space.isEmpty || rest.head? == some '#' || (!flow && j.place.column < least) then
        (gap ++ word, j, crossed)
      else if rest.length < i.rest.length then
        let (more, k, last) := plainText flow least space crossed j
        (gap ++ word ++ more, k, last)
      else (gap ++ word, j, crossed)
termination_by i.rest.length

structure Candidate where
  number : Nat
  isRequired : Bool
  start : Place

def Candidate.isLate (c : Candidate) (p : Place) : Bool :=
  c.start.line != p.line || 1024 < p.index - c.start.index

structure Reader where
  input : Input
  tokens : List Token := []
  indent : Int := -1
  indents : List Int := []
  keyAllowed : Bool := true
  candidate : Option Candidate := none
  outer : List (Option Candidate) := []

namespace Reader

def isFlow (r : Reader) : Bool :=
  !r.outer.isEmpty

def column (r : Reader) : Int :=
  r.input.place.column

def put (r : Reader) (t : Token) (width : Nat) : Reader :=
  { r with tokens := r.tokens ++ [t], input := r.input.goTo (r.input.rest.drop width) }

def blank (comment crossed : Bool) : List Char → List Char × Bool
  | [] => ([], crossed)
  | c :: rest =>
      if isBreak c then blank false true rest
      else if comment || c = '#' then blank true crossed rest
      else if c = ' ' then blank false crossed rest
      else (c :: rest, crossed)

def skip (r : Reader) : Reader :=
  let (rest, crossed) := blank false false r.input.rest
  { r with input := r.input.goTo rest
           keyAllowed := r.keyAllowed || (crossed && !r.isFlow) }

def refresh? (r : Reader) : Option Reader :=
  let isLate (c : Candidate) : Bool := c.isLate r.input.place
  if (r.candidate :: r.outer).any (·.any fun c => isLate c && c.isRequired) then none
  else
    some { r with candidate := r.candidate.filter (!isLate ·)
                  outer := r.outer.map (·.filter (!isLate ·)) }

def dropCandidate? (r : Reader) : Option Reader :=
  if r.candidate.any (·.isRequired) then none else some { r with candidate := none }

def addCandidate? (r : Reader) : Option Reader :=
  if r.keyAllowed then
    r.dropCandidate?.map fun r =>
      { r with candidate := some ⟨r.tokens.length, !r.isFlow && r.indent == r.column,
                                  r.input.place⟩ }
  else some r

def unwound (column indent : Int) : List Int → Int × List Int × List Token
  | [] => (indent, [], [])
  | around :: more =>
      if column < indent then
        let (indent, indents, ends) := unwound column around more
        (indent, indents, .blockEnd :: ends)
      else (indent, around :: more, [])

def unwind (r : Reader) (column : Int) : Reader :=
  if r.isFlow then r
  else
    let (indent, indents, ends) := unwound column r.indent r.indents
    { r with indent := indent, indents := indents, tokens := r.tokens ++ ends }

def openBlock (r : Reader) (column : Int) (t : Token) (number : Nat) : Reader :=
  if r.indent < column then
    { r with indent := column
             indents := r.indent :: r.indents
             tokens := r.tokens.take number ++ t :: r.tokens.drop number }
  else r

def separator? (r : Reader) (t : Token) : Option Reader :=
  (r.unwind (-1)).dropCandidate?.map fun r => { r with keyAllowed := false }.put t 3

def flowStart? (r : Reader) (t : Token) : Option Reader :=
  r.addCandidate?.map fun r =>
    { r with keyAllowed := true, candidate := none, outer := r.candidate :: r.outer }.put t 1

def flowEnd? (r : Reader) (t : Token) : Option Reader := do
  let r ← r.dropCandidate?
  match r.outer with
  | [] => none
  | candidate :: outer =>
      return { r with keyAllowed := false, candidate := candidate, outer := outer }.put t 1

def comma? (r : Reader) : Option Reader :=
  r.dropCandidate?.map fun r => { r with keyAllowed := true }.put .comma 1

def entry? (r : Reader) (block t : Token) (keyAllowed : Bool) : Option Reader := do
  let r ←
    if r.isFlow then some r
    else if r.keyAllowed then some (r.openBlock r.column block r.tokens.length)
    else none
  let r ← r.dropCandidate?
  return { r with keyAllowed := keyAllowed }.put t 1

def value? (r : Reader) : Option Reader :=
  match r.candidate with
  | some c =>
      let marked :=
        { r with keyAllowed := false
                 candidate := none
                 tokens := r.tokens.take c.number ++ Token.key :: r.tokens.drop c.number }
      let opened :=
        if r.isFlow then marked else marked.openBlock c.start.column .mappingStart c.number
      some (opened.put .value 1)
  | none => r.entry? .mappingStart .value (!r.isFlow)

def quoted? (r : Reader) (quote : Char) : Option Reader := do
  let r ← r.addCandidate?
  let (text, rest) ← quotedText? quote (r.input.rest.drop 1)
  return { r with keyAllowed := false
                  tokens := r.tokens ++ [.scalar false text]
                  input := r.input.goTo rest }

def plain? (r : Reader) : Option Reader :=
  r.addCandidate?.map fun r =>
    let (text, input, lineStart) := plainText r.isFlow (r.indent + 1) [] false r.input
    { r with keyAllowed := lineStart
             tokens := r.tokens ++ [.scalar true text]
             input := input }

def step? (r : Reader) : Option Reader :=
  match r.input.rest with
  | [] => none
  | c :: rest =>
      if r.column = 0 && isMark "---" (c :: rest) then r.separator? .documentStart
      else if r.column = 0 && isMark "..." (c :: rest) then r.separator? .documentEnd
      else if c = '[' then r.flowStart? .flowListStart
      else if c = '{' then r.flowStart? .flowMappingStart
      else if c = ']' then r.flowEnd? .flowListEnd
      else if c = '}' then r.flowEnd? .flowMappingEnd
      else if c = ',' then r.comma?
      else if c = '-' && isBoundary rest then r.entry? .listStart .item true
      else if c = '?' && (r.isFlow || isBoundary rest) then
        r.entry? .mappingStart .key (!r.isFlow)
      else if c = ':' && (r.isFlow || isBoundary rest) then r.value?
      else if c = '\'' || c = '"' then r.quoted? c
      else if startsPlain r.isFlow (c :: rest) then r.plain?
      else none

def run? (r : Reader) : Option (List Token) :=
  match r.skip.refresh?.map fun s => s.unwind s.column with
  | none => none
  | some s =>
      if s.input.rest.isEmpty then (s.unwind (-1)).dropCandidate?.map (·.tokens)
      else
        match s.step? with
        | none => none
        | some t =>
            if t.input.rest.length < r.input.rest.length then t.run? else none
termination_by r.input.rest.length

end Reader

def tokens? (cs : List Char) : Option (List Token) :=
  Reader.run? { input := { rest := cs } }

end Gosmith.Settings.Yaml
