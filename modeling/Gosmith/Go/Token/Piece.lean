import Gosmith.Go.Diagnostic
import Gosmith.Text.Brace
import Gosmith.Text.Word

namespace Gosmith.Go

open Gosmith.Text

namespace Piece

inductive Kind where
  | blank | newline | lineComment | blockComment | rawString | string | char | number | word | op
deriving DecidableEq, Repr

def Kind.isGap : Kind → Bool
  | .blank | .newline | .lineComment | .blockComment => true
  | _ => false

end Piece

structure Piece where
  kind : Piece.Kind
  text : List Char
deriving DecidableEq, Repr

namespace Piece

def operators : List String :=
  ["<<=", ">>=", "&^=", "...",
    "&&", "||", "<-", "++", "--", "==", "!=", "<=", ">=", ":=", "+=", "-=", "*=", "/=", "%=", "&=",
    "|=", "^=", "<<", ">>", "&^",
    "+", "-", "*", "/", "%", "&", "|", "^", "<", ">", "=", "!", "~", "(", ")", "[", "]", braceOpen,
    braceClose, ",", ";", ".", ":"]

def isBlankChar (c : Char) : Bool :=
  c == ' ' || c == '\t' || c == '\r' || c == '\x0c'

def commentBody : List Char → Option (List Char × List Char)
  | [] => none
  | '*' :: '/' :: rest => some (['*', '/'], rest)
  | c :: rest => (commentBody rest).map fun (body, after) => (c :: body, after)

def stringBody : List Char → Option (List Char × List Char)
  | [] => none
  | ['\\'] => none
  | '\\' :: c :: rest => (stringBody rest).map fun (body, after) => ('\\' :: c :: body, after)
  | c :: rest =>
      if c = '"' then some ([c], rest)
      else if c = '\n' then none
      else (stringBody rest).map fun (body, after) => (c :: body, after)

def runeBody : List Char → Option (List Char × List Char)
  | [] => none
  | ['\\'] => none
  | '\\' :: c :: rest =>
      if c = '\n' then none
      else (runeBody rest).map fun (body, after) => ('\\' :: c :: body, after)
  | c :: rest =>
      if c = '\'' then some ([c], rest)
      else if c = '\n' then none
      else (runeBody rest).map fun (body, after) => (c :: body, after)

def isDigitOr (p : Char → Bool) (c : Char) : Bool :=
  p c || c == '_'

def isHexDigit (c : Char) : Bool :=
  c.isDigit || ('a' ≤ c && c ≤ 'f') || ('A' ≤ c && c ≤ 'F')

def takeDigits (p : Char → Bool) (cs : List Char) : List Char × List Char :=
  (cs.takeWhile (isDigitOr p), cs.dropWhile (isDigitOr p))

def fraction (p : Char → Bool) : List Char → List Char × List Char
  | '.' :: rest => ('.' :: (takeDigits p rest).1, (takeDigits p rest).2)
  | cs => ([], cs)

def sign : List Char → List Char × List Char
  | '+' :: rest => (['+'], rest)
  | '-' :: rest => (['-'], rest)
  | cs => ([], cs)

def exponent (lower upper : Char) : List Char → List Char × List Char
  | [] => ([], [])
  | c :: rest =>
      if c = lower ∨ c = upper then
        let (s, afterSign) := sign rest
        let (digits, after) := takeDigits Char.isDigit afterSign
        if digits.isEmpty then ([], c :: rest) else (c :: s ++ digits, after)
      else ([], c :: rest)

def decimalTail (cs : List Char) : List Char × List Char :=
  let (whole, afterWhole) := takeDigits Char.isDigit cs
  let (part, afterPart) := fraction Char.isDigit afterWhole
  let (power, after) := exponent 'e' 'E' afterPart
  (whole ++ part ++ power, after)

def hexTail (cs : List Char) : List Char × List Char :=
  let (whole, afterWhole) := takeDigits isHexDigit cs
  let (part, afterPart) := fraction isHexDigit afterWhole
  let (power, after) := exponent 'p' 'P' afterPart
  (whole ++ part ++ power, after)

def basedTail (p : Char → Bool) (mark : Char) (cs : List Char) : List Char × List Char :=
  let (digits, after) := takeDigits p cs
  if digits.isEmpty then decimalTail (mark :: cs) else (mark :: digits, after)

def isBinaryDigit (c : Char) : Bool :=
  c == '0' || c == '1'

def isOctalDigit (c : Char) : Bool :=
  '0' ≤ c && c ≤ '7'

def numberTail (first : Char) : List Char → List Char × List Char
  | [] => ([], [])
  | c :: rest =>
      if first = '0' ∧ (c = 'x' ∨ c = 'X') then (c :: (hexTail rest).1, (hexTail rest).2)
      else if first = '0' ∧ (c = 'b' ∨ c = 'B') then basedTail isBinaryDigit c rest
      else if first = '0' ∧ (c = 'o' ∨ c = 'O') then basedTail isOctalDigit c rest
      else decimalTail (c :: rest)

def pointTail (cs : List Char) : List Char × List Char :=
  let (digits, afterDigits) := takeDigits Char.isDigit cs
  let (power, after) := exponent 'e' 'E' afterDigits
  (digits ++ power, after)

def imaginary : List Char × List Char → List Char × List Char
  | (number, 'i' :: rest) => (number ++ ['i'], rest)
  | (number, rest) => (number, rest)

def operator? (cs : List Char) : Option (List Char × List Char) :=
  (operators.find? fun o => o.toList.isPrefixOf cs).map fun o =>
    (o.toList, cs.drop o.toList.length)

def startsPoint : List Char → Bool
  | '.' :: c :: _ => c.isDigit
  | _ => false

def quotedPiece (kind : Kind) (c : Char) (fault : Fault) :
    Option (List Char × List Char) → Except Fault (Piece × List Char)
  | some (body, after) => .ok (⟨kind, c :: body⟩, after)
  | none => .error fault

def rawBody : List Char → Option (List Char × List Char)
  | [] => none
  | c :: rest =>
      if c = backquote then some ([c], rest)
      else (rawBody rest).map fun (body, after) => (c :: body, after)

def runeRest : List Char → Option (List Char × List Char)
  | '\'' :: _ => none
  | cs => runeBody cs

def next (c : Char) (rest : List Char) : Except Fault (Piece × List Char) :=
  if isBlankChar c then
    .ok (⟨.blank, c :: rest.takeWhile isBlankChar⟩, rest.dropWhile isBlankChar)
  else if c = '\n' then .ok (⟨.newline, [c]⟩, rest)
  else if c = '/' ∧ rest.head? = some '/' then
    .ok (⟨.lineComment, c :: rest.takeWhile (· != '\n')⟩, rest.dropWhile (· != '\n'))
  else if c = '/' ∧ rest.head? = some '*' then
    match commentBody rest.tail with
    | some (body, after) => .ok (⟨.blockComment, c :: '*' :: body⟩, after)
    | none => .error .openComment
  else if c = backquote then quotedPiece .rawString c .openRawString (rawBody rest)
  else if c = '"' then quotedPiece .string c .openString (stringBody rest)
  else if c = '\'' then quotedPiece .char c .openRune (runeRest rest)
  else if c.isDigit then
    let (tail, after) := imaginary (numberTail c rest)
    .ok (⟨.number, c :: tail⟩, after)
  else if startsPoint (c :: rest) then
    let (tail, after) := imaginary (pointTail rest)
    .ok (⟨.number, c :: tail⟩, after)
  else if startsWord c then .ok (⟨.word, c :: rest.takeWhile isWord⟩, rest.dropWhile isWord)
  else match operator? (c :: rest) with
    | some (o, after) => .ok (⟨.op, o⟩, after)
    | none => .error (.illegalCharacter c)

theorem commentBody_append : ∀ {cs body after : List Char},
    commentBody cs = some (body, after) → body ++ after = cs := by
  intro cs
  fun_induction commentBody cs with
  | case1 => simp
  | case2 rest => simp
  | case3 c rest _ ih =>
      intro body after h
      simp only [Option.map_eq_some_iff, Prod.exists, Prod.mk.injEq] at h
      obtain ⟨b, a, hb, rfl, rfl⟩ := h
      simp [ih hb]

theorem stringBody_append : ∀ {cs body after : List Char},
    stringBody cs = some (body, after) → body ++ after = cs := by
  intro cs
  fun_induction stringBody cs with
  | case1 => simp
  | case2 => simp
  | case3 c rest ih =>
      intro body after h
      simp only [Option.map_eq_some_iff, Prod.exists, Prod.mk.injEq] at h
      obtain ⟨b, a, hb, rfl, rfl⟩ := h
      simp [ih hb]
  | case4 rest => simp
  | case5 rest => simp
  | case6 c rest _ _ _ _ ih =>
      intro body after h
      simp only [Option.map_eq_some_iff, Prod.exists, Prod.mk.injEq] at h
      obtain ⟨b, a, hb, rfl, rfl⟩ := h
      simp [ih hb]

theorem runeBody_append : ∀ {cs body after : List Char},
    runeBody cs = some (body, after) → body ++ after = cs := by
  intro cs
  fun_induction runeBody cs with
  | case1 => simp
  | case2 => simp
  | case3 => simp
  | case4 c rest _ ih =>
      intro body after h
      simp only [Option.map_eq_some_iff, Prod.exists, Prod.mk.injEq] at h
      obtain ⟨b, a, hb, rfl, rfl⟩ := h
      simp [ih hb]
  | case5 => simp
  | case6 => simp
  | case7 c rest _ _ _ _ ih =>
      intro body after h
      simp only [Option.map_eq_some_iff, Prod.exists, Prod.mk.injEq] at h
      obtain ⟨b, a, hb, rfl, rfl⟩ := h
      simp [ih hb]

theorem rawBody_append : ∀ {cs body after : List Char},
    rawBody cs = some (body, after) → body ++ after = cs := by
  intro cs
  induction cs with
  | nil => simp [rawBody]
  | cons c rest ih =>
      intro body after h
      simp only [rawBody] at h
      split at h
      · simp only [Option.some.injEq, Prod.mk.injEq] at h
        obtain ⟨rfl, rfl⟩ := h
        rfl
      · simp only [Option.map_eq_some_iff, Prod.exists, Prod.mk.injEq] at h
        obtain ⟨b, a, hb, rfl, rfl⟩ := h
        simp [ih hb]

theorem runeRest_append {cs body after : List Char} (h : runeRest cs = some (body, after)) :
    body ++ after = cs := by
  unfold runeRest at h
  split at h
  · simp at h
  · exact runeBody_append h

theorem takeDigits_append (p : Char → Bool) (cs : List Char) :
    (takeDigits p cs).1 ++ (takeDigits p cs).2 = cs := by
  simp [takeDigits]

theorem fraction_append (p : Char → Bool) (cs : List Char) :
    (fraction p cs).1 ++ (fraction p cs).2 = cs := by
  unfold fraction
  split <;> simp [takeDigits_append]

theorem sign_append (cs : List Char) : (sign cs).1 ++ (sign cs).2 = cs := by
  unfold sign
  split <;> simp

theorem exponent_append (lower upper : Char) (cs : List Char) :
    (exponent lower upper cs).1 ++ (exponent lower upper cs).2 = cs := by
  cases cs with
  | nil => rfl
  | cons c rest =>
      simp only [exponent]
      split
      · split
        · rfl
        · simp [takeDigits_append, sign_append]
      · rfl

theorem decimalTail_append (cs : List Char) : (decimalTail cs).1 ++ (decimalTail cs).2 = cs := by
  simp [decimalTail, exponent_append, fraction_append, takeDigits_append]

theorem hexTail_append (cs : List Char) : (hexTail cs).1 ++ (hexTail cs).2 = cs := by
  simp [hexTail, exponent_append, fraction_append, takeDigits_append]

theorem basedTail_append (p : Char → Bool) (mark : Char) (cs : List Char) :
    (basedTail p mark cs).1 ++ (basedTail p mark cs).2 = mark :: cs := by
  simp only [basedTail]
  split
  · exact decimalTail_append _
  · simp [takeDigits_append]

theorem numberTail_append (first : Char) (cs : List Char) :
    (numberTail first cs).1 ++ (numberTail first cs).2 = cs := by
  cases cs with
  | nil => rfl
  | cons c rest =>
      simp only [numberTail]
      split
      · simp [hexTail_append]
      · split
        · exact basedTail_append _ _ _
        · split
          · exact basedTail_append _ _ _
          · exact decimalTail_append _

theorem pointTail_append (cs : List Char) : (pointTail cs).1 ++ (pointTail cs).2 = cs := by
  simp [pointTail, exponent_append, takeDigits_append]

theorem imaginary_append (r : List Char × List Char) :
    (imaginary r).1 ++ (imaginary r).2 = r.1 ++ r.2 := by
  unfold imaginary
  split <;> simp

theorem operators_ne_nil : ∀ o ∈ operators, o.toList ≠ [] := by
  decide

theorem operator?_append {cs o after : List Char} (h : operator? cs = some (o, after)) :
    o ++ after = cs ∧ o ≠ [] := by
  simp only [operator?, Option.map_eq_some_iff, Prod.mk.injEq] at h
  obtain ⟨a, ha, rfl, rfl⟩ := h
  have hp := List.find?_some ha
  simp only [List.isPrefixOf_iff_prefix] at hp
  exact ⟨List.prefix_iff_eq_append.1 hp, operators_ne_nil a (List.mem_of_find?_eq_some ha)⟩

theorem quotedPiece_eq_ok {kind : Kind} {c : Char} {fault : Fault}
    {found : Option (List Char × List Char)} {p : Piece} {after : List Char}
    (h : quotedPiece kind c fault found = .ok (p, after)) :
    ∃ body, found = some (body, after) ∧ p = ⟨kind, c :: body⟩ := by
  unfold quotedPiece at h
  split at h
  · simp only [Except.ok.injEq, Prod.mk.injEq] at h
    obtain ⟨rfl, rfl⟩ := h
    exact ⟨_, rfl, rfl⟩
  · simp at h

inductive Cut (c : Char) (rest : List Char) : Piece → List Char → Prop
  | blank (hc : isBlankChar c = true) :
      Cut c rest ⟨.blank, c :: rest.takeWhile isBlankChar⟩ (rest.dropWhile isBlankChar)
  | newline (hc : c = '\n') : Cut c rest ⟨.newline, [c]⟩ rest
  | lineComment (hc : c = '/') (hrest : rest.head? = some '/') :
      Cut c rest ⟨.lineComment, c :: rest.takeWhile (· != '\n')⟩ (rest.dropWhile (· != '\n'))
  | blockComment {body after : List Char} (hc : c = '/') (hrest : rest.head? = some '*')
      (hbody : commentBody rest.tail = some (body, after)) :
      Cut c rest ⟨.blockComment, c :: '*' :: body⟩ after
  | raw {body after : List Char} (hc : c = backquote) (hbody : rawBody rest = some (body, after)) :
      Cut c rest ⟨.rawString, c :: body⟩ after
  | string {body after : List Char} (hc : c = '"') (hbody : stringBody rest = some (body, after)) :
      Cut c rest ⟨.string, c :: body⟩ after
  | char {body after : List Char} (hc : c = '\'') (hbody : runeRest rest = some (body, after)) :
      Cut c rest ⟨.char, c :: body⟩ after
  | number (hc : c.isDigit = true) :
      Cut c rest ⟨.number, c :: (imaginary (numberTail c rest)).1⟩ (imaginary (numberTail c rest)).2
  | point (hc : startsPoint (c :: rest) = true) :
      Cut c rest ⟨.number, c :: (imaginary (pointTail rest)).1⟩ (imaginary (pointTail rest)).2
  | word (hc : startsWord c = true) :
      Cut c rest ⟨.word, c :: rest.takeWhile isWord⟩ (rest.dropWhile isWord)
  | op {o after : List Char} (ho : operator? (c :: rest) = some (o, after)) :
      Cut c rest ⟨.op, o⟩ after

theorem cut_of_next {c : Char} {rest : List Char} {p : Piece} {after : List Char}
    (h : next c rest = .ok (p, after)) : Cut c rest p after := by
  have hpair {q : Piece} {tail : List Char} (hq : Cut c rest q tail)
      (heq : (Except.ok (q, tail) : Except Fault _) = .ok (p, after)) : Cut c rest p after := by
    cases heq
    exact hq
  rw [next] at h
  by_cases h1 : isBlankChar c = true
  · rw [if_pos h1] at h
    exact hpair (.blank h1) h
  rw [if_neg h1] at h
  by_cases h2 : c = '\n'
  · rw [if_pos h2] at h
    exact hpair (.newline h2) h
  rw [if_neg h2] at h
  by_cases h3 : c = '/' ∧ rest.head? = some '/'
  · rw [if_pos h3] at h
    exact hpair (.lineComment h3.1 h3.2) h
  rw [if_neg h3] at h
  by_cases h4 : c = '/' ∧ rest.head? = some '*'
  · rw [if_pos h4] at h
    cases hb : commentBody rest.tail with
    | none => simp [hb] at h
    | some r =>
        obtain ⟨body, tail⟩ := r
        rw [hb] at h
        exact hpair (.blockComment h4.1 h4.2 hb) h
  rw [if_neg h4] at h
  by_cases h5 : c = backquote
  · rw [if_pos h5] at h
    obtain ⟨body, hb, rfl⟩ := quotedPiece_eq_ok h
    exact .raw h5 hb
  rw [if_neg h5] at h
  by_cases h6 : c = '"'
  · rw [if_pos h6] at h
    obtain ⟨body, hb, rfl⟩ := quotedPiece_eq_ok h
    exact .string h6 hb
  rw [if_neg h6] at h
  by_cases h7 : c = '\''
  · rw [if_pos h7] at h
    obtain ⟨body, hb, rfl⟩ := quotedPiece_eq_ok h
    exact .char h7 hb
  rw [if_neg h7] at h
  by_cases h8 : c.isDigit = true
  · rw [if_pos h8] at h
    exact hpair (.number h8) h
  rw [if_neg h8] at h
  by_cases h9 : startsPoint (c :: rest) = true
  · rw [if_pos h9] at h
    exact hpair (.point h9) h
  rw [if_neg h9] at h
  by_cases h10 : startsWord c = true
  · rw [if_pos h10] at h
    exact hpair (.word h10) h
  rw [if_neg h10] at h
  cases ho : operator? (c :: rest) with
  | none => simp [ho] at h
  | some r =>
      obtain ⟨o, tail⟩ := r
      rw [ho] at h
      exact hpair (.op ho) h

theorem next_append {c : Char} {rest : List Char} {p : Piece} {after : List Char}
    (h : next c rest = .ok (p, after)) : p.text ++ after = c :: rest ∧ p.text ≠ [] := by
  cases cut_of_next h with
  | blank => simp
  | newline => simp
  | lineComment => simp
  | blockComment hc hrest hbody =>
      obtain ⟨ds, rfl⟩ := List.head?_eq_some_iff.1 hrest
      simpa using commentBody_append hbody
  | raw hc hbody => simp [rawBody_append hbody]
  | string hc hbody => simp [stringBody_append hbody]
  | char hc hbody => simp [runeRest_append hbody]
  | number => simp [imaginary_append, numberTail_append]
  | point => simp [imaginary_append, pointTail_append]
  | word => simp
  | op ho => exact operator?_append ho

theorem next_length {c : Char} {rest : List Char} {p : Piece} {after : List Char}
    (h : next c rest = .ok (p, after)) : after.length < (c :: rest).length := by
  obtain ⟨happ, hne⟩ := next_append h
  have := congrArg List.length happ
  have := List.length_pos_iff.2 hne
  simp only [List.length_append] at *
  omega

def split : List Char → List Piece × Option Fault
  | [] => ([], none)
  | c :: rest =>
      match _h : next c rest with
      | .error fault => ([], some fault)
      | .ok (p, after) => (p :: (split after).1, (split after).2)
termination_by cs => cs.length
decreasing_by all_goals exact next_length (by assumption)

end Piece

end Gosmith.Go
