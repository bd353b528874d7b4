import Gosmith.Proofs.Schema.TypeText
import Gosmith.Value.Basic

namespace Gosmith.Go.Grammar

theorem Nested.enclosed {free : Bool} {us : List Token} (hn : Nested free us)
    {stack : List String} (hstack : stack ≠ []) {ts : List Token}
    (hts : ∀ breaks, Enclosed stack breaks ts) (breaks : Bool) :
    Enclosed stack breaks (us ++ ts) := by
  induction hn generalizing stack ts breaks with
  | nil => exact hts breaks
  | plain ho hc he hs hn ih =>
      exact .cons (.plain ho hc he) (fun hnil => absurd hnil hstack) (ih hstack hts _)
  | group ho hc hm hi hr ihi ihr =>
      rw [List.cons_append, List.append_assoc, List.cons_append]
      refine .cons (.opener ho) (fun hnil => absurd hnil hstack) (ihi (by simp) (fun _ => ?_) _)
      exact .cons (.closer hc hm) (by simp) (ihr hstack hts _)

end Gosmith.Go.Grammar

namespace Gosmith.Go.Layout

open Gosmith.Text (braceOpen braceClose)
open Piece (operators)

variable {g : Gap} {ctx : Context} {placed more : List (Gap × Token)}

theorem gaps_keyword {k : Token} (hk : k.kind = .keyword) {ts : List Token}
    (h : gaps (start k) ts = .ok placed) : gaps {} (k :: ts) = .ok ((.none, k) :: placed) := by
  have hclose : close {} k = .ok {} := by simp [close, Token.isCloser, hk]
  have hrole : role {} k ts.head? = none := by simp [role, hk]
  have hafter : after {} k none .none = start k := by simp [after, start, Token.isOpener, hk]
  rw [gaps, hclose]
  simp only [hrole, gap, hafter, h]

theorem dropSemicolons_of_tame (h : ∀ a ∈ placed, Tame a) :
    dropSemicolons (placed.map Prod.snd) = placed.map Prod.snd := by
  induction placed with
  | nil => rfl
  | cons a placed ih =>
      obtain ⟨ha, hplaced⟩ := List.forall_mem_cons.1 h
      rw [List.map_cons, dropSemicolons_of_kept (isDropped_of_kind ha.kind _), ih hplaced]

theorem hangs_of_tame (h : ∀ a ∈ placed, Tame a) (prev : Token) :
    hangs (prev :: placed.map Prod.snd) = false := by
  induction placed generalizing prev with
  | nil => rfl
  | cons a placed ih =>
      obtain ⟨ha, hplaced⟩ := List.forall_mem_cons.1 h
      cases placed with
      | nil => rfl
      | cons b placed =>
          have hat : hangsAt prev a.2 b.2 = false := by
            refine Bool.eq_false_iff.2 fun hyes => ?_
            simp only [hangsAt, isOpen, Bool.and_eq_true, List.contains_iff_mem,
              decide_eq_true_eq] at hyes
            have hline := ha.line hyes.1.1.1.1.1.2
            omega
          rw [List.map_cons, List.map_cons, hangs, hat, Bool.false_or]
          exact ih hplaced a.2

structure Fixed (kind : Declaration.Kind) (k : Token) (placed : List (Gap × Token)) : Prop where
  keyword : k.isKeyword kind.text = true
  lexed : k.Lexed
  tame : ∀ a ∈ placed, Tame a
  gaps : gaps (start k) (placed.map Prod.snd) = .ok placed
  free : fusionFree ((.none, k) :: placed) = true
  enclosed : Grammar.Enclosed [] k.endsStatement (placed.map Prod.snd)
  header : Grammar.Header kind (placed.map Prod.snd)

namespace Fixed

variable {kind : Declaration.Kind} {k : Token} (h : Fixed kind k placed)

include h

theorem lexed_tokens : ∀ t ∈ k :: placed.map Prod.snd, t.Lexed := by
  refine List.forall_mem_cons.2 ⟨h.lexed, fun t ht => ?_⟩
  obtain ⟨a, ha, rfl⟩ := List.mem_map.1 ht
  exact (h.tame a ha).lexed

theorem clears : Clears ((.none, k) :: placed) ['\n'] := by
  have hall := gaps_keyword (Grammar.kind_of_isKeyword h.keyword).1 h.gaps
  exact clears_of_fusionFree (Declaration.lexed_of_tokens h.lexed_tokens)
    (flush_of_gaps hall h.lexed_tokens) h.free (by simp [Piece.Spaced])

theorem read_back {text : String} (htext : text.toList = k.text.toList ++ printed placed)
    (hg : 0 < g.newlines) {source : String}
    (hsource : source.toList = printed (placedBelow g k placed) ++ ['\n']) :
    ∃ file d k' us, SourceFile.ofSource source = .ok file ∧ file.decls = [d] ∧ d.kind = kind ∧
      d.tokens = k' :: us ∧ Read k.endsStatement placed us ∧ d.format = .ok text := by
  have hline : g ≠ .none := by
    rintro rfl
    simp [Gap.newlines] at hg
  obtain ⟨file, d, k', us, hfile, hdecls, hkind, htokens, hkey, hread⟩ :=
    ofSource_placedBelow hg hsource (clears_placedBelow hline h.clears) h.keyword
      (keepsLines_gaps (by simp [start]) h.gaps) h.enclosed h.header
  refine ⟨file, d, k', us, hfile, hdecls, hkind, htokens, hread, ?_⟩
  have hd : d ∈ file.decls := by simp [hdecls]
  obtain ⟨_, _, placed', text', hlaid⟩ := Declaration.exists_laid hfile hd
  obtain ⟨rfl, rfl⟩ := List.cons.inj (hlaid.tokens.symm.trans htokens)
  have hgaps := hlaid.gaps
  rw [← hlaid.dropped] at hgaps
  have hagain : printed placed' = printed placed :=
    (printed_again_iff hkey h.lexed_tokens h.gaps h.enclosed hread hgaps).2
      ⟨dropSemicolons_of_tame h.tame, hangs_of_tame h.tame k⟩
  have hsame : text' = text := by
    have hktext := congrArg Prod.snd hkey
    simp only [Token.key] at hktext
    rw [← String.toList_inj, hlaid.text, htext, hagain, hktext]
  rw [hlaid.format, hsame]

end Fixed

inductive FieldType : List (Gap × Token) → Prop
  | plain {v : List (Gap × Token)} (h : TypeText .space v) : FieldType v
  | pointer {v : List (Gap × Token)} (h : TypeText .none v) : FieldType (behind .space .op "*" :: v)

inductive FieldsText : List (Gap × Token) → Prop
  | nil : FieldsText []
  | cons {s : String} {v rest : List (Gap × Token)} (hs : Token.isName s = true) (hv : FieldType v)
      (h : FieldsText rest) : FieldsText (behind (.newline false 1) .ident s :: (v ++ rest))

theorem FieldType.tame (h : FieldType placed) : ∀ a ∈ placed, Tame a := by
  cases h with
  | plain h => exact h.tame
  | pointer h =>
      have hstar : Tame (behind .space .op "*") :=
        ⟨Token.lexed_operator (by decide) (by decide), by simp [behind, Token.plain], fun _ => rfl⟩
      exact List.forall_mem_cons.2 ⟨hstar, h.tame⟩

theorem FieldsText.tame (h : FieldsText placed) : ∀ a ∈ placed, Tame a := by
  induction h with
  | nil => simp
  | cons hs hv h ih =>
      exact List.forall_mem_cons.2 ⟨tame_name _ hs, List.forall_mem_append.2 ⟨hv.tame, ih⟩⟩

theorem FieldType.nested (h : FieldType placed) : Grammar.Nested true (placed.map Prod.snd) := by
  cases h with
  | plain h => exact h.nested
  | pointer h => exact .plain rfl rfl (by simp [behind, Token.plain]) (by simp) h.nested

theorem FieldsText.nested (h : FieldsText placed) : Grammar.Nested true (placed.map Prod.snd) := by
  induction h with
  | nil => exact .nil
  | cons hs hv h ih =>
      rw [List.map_cons, List.map_append]
      exact nested_word (.inl rfl) _ (hv.nested.append ih)

theorem TypeText.head_glued (h : TypeText .none placed) (more : List (Gap × Token)) :
    '=' ∉ (glued (placed ++ more)).head? := by
  cases h with
  | name hs =>
      obtain ⟨c, cs, hcs, hc, -⟩ := Token.isName_iff.1 hs
      simp only [behind, Token.plain, glued, hcs, List.cons_append, List.head?_cons, Option.mem_def,
        Option.some.injEq]
      rintro rfl
      exact absurd hc (by decide)
  | unit => simp [behind, Token.plain, glued]
  | slice hv => simp [behind, Token.plain, glued]
  | map hk hv => simp [behind, Token.plain, glued]

theorem FieldType.glued_eq (h : FieldType placed) (more : List (Gap × Token)) :
    glued (placed ++ more) = [] := by
  cases h with
  | plain h => cases h <;> rfl
  | pointer h => rfl

theorem FieldType.fusionFree (h : FieldType placed) (hmore : fusionFree more = true)
    (hglued : glued more = []) : Layout.fusionFree (placed ++ more) = true := by
  have hword : (glued more).head?.any Text.isWord = false := by simp [hglued]
  cases h with
  | plain h => exact h.fusionFree hmore hword
  | @pointer v h =>
      have hlonger : ∀ o ∈ operators, o.toList.head? = some '*' →
          o.toList.tail.head?.all (· == '=') = true := by decide
      have hstar : (behind .space .op "*").2.fuses (glued (v ++ more)) = false := by
        refine fuses_single .space rfl (by decide) fun o ho hhead d hd => ?_
        have heq := hlonger o ho hhead
        rw [hd, Option.all_some, beq_iff_eq] at heq
        rw [heq]
        exact h.head_glued more
      simp only [behind] at hstar
      simp [Layout.fusionFree, behind, hstar, h.fusionFree hmore hword]

theorem FieldsText.fusionFree (h : FieldsText placed) (hmore : fusionFree more = true)
    (hglued : glued more = []) :
    Layout.fusionFree (placed ++ more) = true ∧ glued (placed ++ more) = [] := by
  induction h with
  | nil => exact ⟨hmore, hglued⟩
  | cons hs hv h ih =>
      rw [List.cons_append, List.append_assoc]
      refine ⟨fusionFree_word (.inl rfl) _ (hv.fusionFree ih.1 ih.2) ?_, rfl⟩
      simp [hv.glued_eq]

theorem TypeText.head (h : TypeText g placed) :
    ∃ kind text rest, placed = behind g kind text :: rest := by
  cases h with
  | name => exact ⟨_, _, _, rfl⟩
  | unit => exact ⟨_, _, _, rfl⟩
  | slice => exact ⟨_, _, _, rfl⟩
  | map => exact ⟨_, _, _, rfl⟩

theorem lays_star {stack : List Bracket} {p : Token} (hctx : Lands ctx stack p)
    (hk : p.kind = .ident) (hp : p.text ∉ operators) (kind : Token.Kind) (text : String)
    (rest : List Token) :
    ∃ ctx', Lays ctx [behind .space .op "*"] ((behind .none kind text).2 :: rest) ctx' ∧
      ctx'.stack = stack ∧ ctx'.prev = some (behind .space .op "*").2 ∧
      ctx'.prevRole = some .unary := by
  have hclose : close ctx (behind .space .op "*").2 = .ok ctx := rfl
  have hrole : role ctx (behind .space .op "*").2 (some (behind .none kind text).2) =
      some .unary := by
    simp [role, behind, Token.plain, binaryOps, unaryOps, ambiguousOps, hctx.prev_eq,
      Token.isKeyword, hk, Gap.isSpaced, Gap.newlines]
  have hgap : gap ctx (behind .space .op "*").2 (some .unary) ((behind .none kind text).2 :: rest) =
      .space := by
    simp only [operators, List.mem_cons, not_or] at hp
    rw [gap_of_prev hctx.prev_eq rfl]
    simp [needsSpace, braceOpen, braceClose, behind, Token.plain, Token.isKeyword, hk, hp,
      hctx.role_eq, Gap.isSpaced]
  exact ⟨_, lays_token hclose hrole hgap, hctx.stack_eq, rfl, rfl⟩

theorem FieldType.lays (h : FieldType placed) {stack : List Bracket} {p : Token}
    (hctx : Lands ctx stack p) (hk : p.kind = .ident) (hp : p.text ∉ operators) (rest : List Token) :
    ∃ ctx' t, Lays ctx placed rest ctx' ∧ Lands ctx' stack t := by
  cases h with
  | plain h =>
      rw [← hctx.stack_eq]
      exact h.lays (admits_after_name hctx hk hp) rest
  | pointer h =>
      obtain ⟨kind, text, last, rfl⟩ := h.head
      obtain ⟨ctx₁, hstar, hstack, hprev, hrole⟩ := lays_star hctx hk hp kind text _
      obtain ⟨ctx₂, t, htype, h₂⟩ := h.lays (admits_after_star hprev hrole rfl) rest
      rw [hstack] at h₂
      exact ⟨ctx₂, t, hstar.trans htype, h₂⟩

theorem FieldsText.lays (h : FieldsText placed) {b : Bracket} {p : Token} (hctx : Lands ctx [b] p)
    (rest : List Token) : ∃ ctx' t, Lays ctx placed rest ctx' ∧ Lands ctx' [b] t := by
  induction h generalizing ctx p with
  | nil => exact ⟨ctx, p, lays_nil rest, hctx⟩
  | @cons s v fields hs hv h ih =>
      have hgap (ts : List Token) :
          gap ctx (behind (.newline false 1) .ident s).2 none ts = .newline false 1 := by
        simp [gap, hctx.prev_eq, behind, Token.plain, Gap.newlines, indentation, Token.isKeyword,
          hctx.stack_eq, hctx.role_eq]
      obtain ⟨ctx₁, hname, h₁⟩ := lays_word (.inl rfl) (hgap _)
      rw [hctx.stack_eq] at h₁
      obtain ⟨ctx₂, t₂, htype, h₂⟩ := hv.lays h₁ rfl (notMem_operators_of_isName hs) _
      obtain ⟨ctx₃, t₃, hfields, h₃⟩ := ih h₂
      exact ⟨ctx₃, t₃, hname.trans (htype.trans hfields), h₃⟩

def structTokens (name : String) (fields : List (Gap × Token)) : List (Gap × Token) :=
  behind .space .ident name :: behind .space .keyword "struct" :: behind .space .op braceOpen ::
    (fields ++ [behind (.newline false 0) .op braceClose])

theorem FieldsText.gap_braceOpen (h : FieldsText placed)
    (hctx : ctx.prev = some (behind g .keyword "struct").2) :
    gap ctx (behind .space .op braceOpen).2 none
      ((placed ++ [behind (.newline false 0) .op braceClose]).map Prod.snd ++ []) = .space := by
  have hline : closesOnLine 1
      ((placed ++ [behind (.newline false 0) .op braceClose]).map Prod.snd ++ []) = false := by
    cases h with
    | nil => rfl
    | cons hs hv h => rfl
  have hneeds (ts : List Token) : needsSpace ctx (behind g .keyword "struct").2
      (behind .space .op braceOpen).2 none ts = !closesOnLine 1 ts := rfl
  rw [gap_of_prev hctx rfl, hneeds, hline]
  rfl

theorem gap_braceClose {t : Token} (h : Lands ctx [] t) :
    gap ctx (behind (.newline false 0) .op braceClose).2 none [] = .newline false 0 := by
  simp [gap, h.prev_eq, behind, Token.plain, Gap.newlines, indentation, Token.isKeyword, h.stack_eq,
    h.role_eq]

theorem FieldsText.gaps_structTokens (h : FieldsText placed) {name : String}
    (hname : Token.isName name = true) {k : Token} (hk : k.isKeyword "type" = true) :
    gaps (start k) ((structTokens name placed).map Prod.snd) = .ok (structTokens name placed) := by
  obtain ⟨hkind, htext⟩ := Grammar.kind_of_isKeyword hk
  have hname' := notMem_operators_of_isName hname
  have hfirst (ts : List Token) : gap (start k) (behind .space .ident name).2 none ts = .space := by
    simp only [operators, List.mem_cons, not_or] at hname'
    simp [gap, start, needsSpace, braceOpen, braceClose, behind, Token.plain, Gap.newlines,
      Token.isKeyword, hkind, htext, hname']
  obtain ⟨ctx₁, hlays₁, h₁⟩ := lays_word (.inl rfl) (hfirst _)
  obtain ⟨ctx₂, hlays₂, h₂⟩ := lays_word (.inr rfl)
    ((admits_after_name h₁ rfl hname').word (.inr rfl) "struct" (by decide) _)
  obtain ⟨b, ctx₃, hlays₃, h₃⟩ := lays_opener (by simp) (h.gap_braceOpen h₂.prev_eq)
  rw [h₂.stack_eq, h₁.stack_eq] at h₃
  obtain ⟨ctx₄, t, hlays₄, h₄⟩ := h.lays h₃ [(behind (.newline false 0) .op braceClose).2]
  have hbelow : Lands { ctx₄ with stack := [], closing := some b } [] t :=
    ⟨rfl, h₄.prev_eq, h₄.role_eq⟩
  obtain ⟨ctx₅, hlays₅, -⟩ := lays_closer (by simp) h₄.stack_eq (gap_braceClose hbelow)
  have hall : Lays (start k) (structTokens name placed) [] ctx₅ :=
    hlays₁.trans (hlays₂.trans (hlays₃.trans (hlays₄.trans hlays₅)))
  rw [Lays, List.append_nil] at hall
  simpa [gaps, Except.map] using hall

theorem FieldsText.enclosed (h : FieldsText placed) (name : String) :
    Grammar.Enclosed [] false ((structTokens name placed).map Prod.snd) := by
  have hlast : ∀ breaks, Grammar.Enclosed [braceOpen] breaks
      [(behind (.newline false 0) .op braceClose).2] :=
    fun breaks => .cons (.closer rfl rfl) (by simp) .nil
  have hword {kind : Token.Kind} (hk : kind = .ident ∨ kind = .keyword) (text : String)
      {breaks : Bool} {ts : List Token} (hts : ∀ breaks, Grammar.Enclosed [] breaks ts) :
      Grammar.Enclosed [] breaks ((behind .space kind text).2 :: ts) := by
    rcases hk with rfl | rfl
    · exact .cons (.plain rfl rfl (by simp [behind, Token.plain]))
        (fun _ => ⟨by simp [behind, Token.plain], fun _ => rfl⟩) (hts _)
    · exact .cons (.plain rfl rfl (by simp [behind, Token.plain]))
        (fun _ => ⟨by simp [behind, Token.plain], fun _ => rfl⟩) (hts _)
  simp only [structTokens, List.map_cons, List.map_append, List.map_nil]
  refine hword (.inl rfl) _ fun _ => hword (.inr rfl) _ fun _ => ?_
  exact .cons (.opener rfl) (fun _ => ⟨by decide, fun _ => rfl⟩)
    (h.nested.enclosed (by simp) hlast _)

theorem FieldsText.fusionFree_structTokens (h : FieldsText placed) (name : String) :
    Layout.fusionFree (behind .none .keyword "type" :: structTokens name placed) = true := by
  have hlast : Layout.fusionFree [behind (.newline false 0) .op braceClose] = true :=
    fusionFree_bracket (by decide) rfl
  exact fusionFree_word (.inr rfl) _ (fusionFree_word (.inl rfl) _ (fusionFree_word (.inr rfl) _
    (fusionFree_bracket (by decide) (h.fusionFree hlast rfl).1) rfl) rfl) rfl

theorem FieldsText.fixed (h : FieldsText placed) {name : String} (hname : Token.isName name = true) :
    Fixed .type (.plain .keyword "type") (structTokens name placed) where
  keyword := rfl
  lexed := Token.lexed_keyword (by decide)
  tame := by
    simp only [structTokens, List.forall_mem_cons, List.forall_mem_append]
    exact ⟨tame_name _ hname, tame_keyword _ (by decide), tame_bracket _ (by decide), h.tame,
      tame_bracket _ (by decide), by simp⟩
  gaps := h.gaps_structTokens hname rfl
  free := h.fusionFree_structTokens name
  enclosed := h.enclosed name
  header := .inr ⟨_, _, _, rfl, rfl⟩

theorem names_of_read {name : String} {breaks : Bool} {us : List Token}
    (h : Read breaks (structTokens name placed) us) {d : Declaration} {k : Token}
    (htokens : d.tokens = k :: us) (hkind : d.kind = .type) (hheaded : Grammar.Headed d) :
    d.names = [name] := by
  obtain ⟨n, us, rfl, hn, h⟩ := h.of_flat rfl
  obtain ⟨s, us, rfl, hs, -⟩ := h.of_flat rfl
  obtain ⟨k', vs, hvs, hheader⟩ := hheaded
  obtain ⟨rfl, rfl⟩ := List.cons.inj (hvs.symm.trans htokens)
  have hident : n.kind = .ident := hn.kind
  have htext : n.text = name := hn.text
  have hcomma : s.isOp "," = false := by simp [Token.isOp, hs.kind, behind, Token.plain]
  have hmore : SourceFile.moreNames (s :: us) = [] := by
    cases us with
    | nil => rfl
    | cons u us => simp [SourceFile.moreNames, hcomma]
  simp [hkind, SourceFile.header, SourceFile.specNames, Grammar.isOp_of_ident hident, hident, htext,
    hmore, Except.map] at hheader
  exact hheader.1.symm

end Gosmith.Go.Layout

namespace Gosmith.TypeSpec

open Gosmith.Go Gosmith.Go.Layout
open Gosmith.Text (braceClose braced)

variable {ρ : Type} [HasKind ρ]

def fieldLine (f : String × TypeSpec ρ × Bool) : Except Fault String := do
  let name ← exportedName f.1
  let type ← f.2.1.reference (if f.2.2 then .required else .optional)
  return "\t" ++ name ++ " " ++ type ++ "\n"

def structText (name : String) (fields : List (String × TypeSpec ρ × Bool)) :
    Except Fault String := do
  let name ← exportedName name
  let lines ← fields.mapM fieldLine
  return "type " ++ name ++ " struct " ++ braced ("\n" ++ String.join lines)

theorem exists_reference {s : TypeSpec ρ} (h : s.isNameable = true) (presence : Presence) :
    ∃ text placed, s.reference presence = .ok text ∧ FieldType placed ∧
      printed placed = ' ' :: text.toList := by
  obtain ⟨text, htext, htype⟩ := exists_goText h
  by_cases hpointer : presence = .optional ∧ !s.isNilable
  · obtain ⟨placed, hplaced, hprinted⟩ := htype .none
    refine ⟨"*" ++ text, _, ?_, .pointer hplaced, ?_⟩
    · rw [reference, htext]
      simp only [if_pos hpointer]
    · simp [printed, behind, Token.plain, Gap.chars, hprinted]
  · obtain ⟨placed, hplaced, hprinted⟩ := htype .space
    refine ⟨text, placed, ?_, .plain hplaced, by simp [hprinted, Gap.chars]⟩
    rw [reference, htext]
    simp only [if_neg hpointer]

theorem exists_fieldLine {f : String × TypeSpec ρ × Bool} (hname : startsWithLetter f.1 = true)
    (hspec : f.2.1.isNameable = true) :
    ∃ line s v, fieldLine f = .ok line ∧ Token.isName s = true ∧ FieldType v ∧
      '\n' :: line.toList = printed (behind (.newline false 1) .ident s :: v) ++ ['\n'] := by
  obtain ⟨s, hs, hs'⟩ := exists_exportedName hname
  obtain ⟨text, v, htext, hv, hprinted⟩ :=
    exists_reference hspec (if f.2.2 then .required else .optional)
  refine ⟨"\t" ++ s ++ " " ++ text ++ "\n", s, v, ?_, hs', hv, ?_⟩
  · rw [fieldLine, hs, htext]
    rfl
  · simp [printed, behind, Token.plain, Gap.chars, hprinted]

theorem exists_fieldLines {fields : List (String × TypeSpec ρ × Bool)}
    (h : ∀ f ∈ fields, startsWithLetter f.1 = true ∧ f.2.1.isNameable = true) :
    ∃ lines placed, fields.mapM fieldLine = .ok lines ∧ FieldsText placed ∧
      '\n' :: (String.join lines).toList = printed placed ++ ['\n'] := by
  induction fields with
  | nil => exact ⟨[], [], rfl, .nil, rfl⟩
  | cons f fields ih =>
      obtain ⟨⟨hname, hspec⟩, hfields⟩ := List.forall_mem_cons.1 h
      obtain ⟨line, s, v, hline, hs, hv, hfirst⟩ := exists_fieldLine hname hspec
      obtain ⟨lines, placed, hlines, hplaced, hrest⟩ := ih hfields
      refine ⟨line :: lines, _, ?_, .cons hs hv hplaced, ?_⟩
      · rw [List.mapM_cons, hline, hlines]
        rfl
      · calc '\n' :: (String.join (line :: lines)).toList
            = '\n' :: line.toList ++ (String.join lines).toList := by simp
          _ = printed (behind (.newline false 1) .ident s :: v) ++
                ('\n' :: (String.join lines).toList) := by rw [hfirst]; simp
          _ = printed (behind (.newline false 1) .ident s :: (v ++ placed)) ++ ['\n'] := by
                rw [hrest, ← List.append_assoc, ← printed_append, List.cons_append]

theorem printed_structTokens {placed : List (Gap × Token)} {lines : String}
    (h : '\n' :: lines.toList = printed placed ++ ['\n']) (name : String) :
    ("type " ++ name ++ " struct " ++ braced ("\n" ++ lines)).toList =
      "type".toList ++ printed (structTokens name placed) := by
  have hbody : printed (placed ++ [behind (.newline false 0) .op braceClose]) =
      '\n' :: (lines.toList ++ ['}']) := by
    rw [printed_append, ← List.cons_append, h, List.append_assoc]
    rfl
  rw [structTokens, printed, printed, printed, hbody]
  simp [behind, Token.plain, Gap.chars, braced]

theorem structText_read_back {name : String} (hname : startsWithLetter name = true)
    {fields : List (String × TypeSpec ρ × Bool)}
    (hfields : ∀ f ∈ fields, startsWithLetter f.1 = true ∧ f.2.1.isNameable = true) :
    ∃ goName text file d, exportedName name = .ok goName ∧ structText name fields = .ok text ∧
      SourceFile.ofSource ("package p\n\n" ++ text ++ "\n") = .ok file ∧ file.decls = [d] ∧
      d.kind = .type ∧ d.names = [goName] ∧ d.format = .ok text := by
  obtain ⟨goName, hgo, hgoName⟩ := exists_exportedName hname
  obtain ⟨lines, placed, hlines, hplaced, hprinted⟩ := exists_fieldLines hfields
  have hfixed := hplaced.fixed hgoName
  have hstruct : structText name fields =
      .ok ("type " ++ goName ++ " struct " ++ braced ("\n" ++ String.join lines)) := by
    rw [structText, hgo, hlines]
    rfl
  have htext := printed_structTokens hprinted goName
  have hsource : ("package p\n\n" ++
      ("type " ++ goName ++ " struct " ++ braced ("\n" ++ String.join lines)) ++ "\n").toList =
      printed (placedBelow (.newline true 0) (.plain .keyword "type") (structTokens goName placed)) ++
        ['\n'] := by
    rw [String.toList_append, String.toList_append, htext]
    simp [placedBelow, printed, Token.plain, Gap.chars]
  obtain ⟨file, d, k, us, hfile, hdecls, hkind, htokens, hread, hformat⟩ :=
    hfixed.read_back htext (by simp [Gap.newlines]) hsource
  have hheaded := Grammar.headed_of_ofSource hfile d (by simp [hdecls])
  exact ⟨goName, _, file, d, hgo, hstruct, hfile, hdecls, hkind,
    names_of_read hread htokens hkind hheaded, hformat⟩

def accountFields : List (String × TypeSpec Value × Bool) :=
  [("id", .primitive .i64, true), ("OWNER", .struct "user_info" [], false),
    ("limits", .map (.primitive .string) (.list (.set (.user "http_code"))), false),
    ("raw-data", TypeSpec.typedef "blob" (.primitive .binary), false)]

def accountText : String :=
  "type BankAccount struct " ++ braced ("\n\tId int64\n\tOwner *UserInfo\n" ++
    "\tLimits map[string][]map[HttpCode]struct" ++ braced "" ++ "\n\tRawData Blob\n")

theorem structText_read_back_account :
    startsWithLetter "bank_account" = true ∧
      (∀ f ∈ accountFields, startsWithLetter f.1 = true ∧ f.2.1.isNameable = true) ∧
      ∃ file d, SourceFile.ofSource ("package p\n\n" ++ accountText ++ "\n") = .ok file ∧
        file.decls = [d] ∧ d.kind = .type ∧ d.names = ["BankAccount"] ∧
        d.format = .ok accountText := by
  have hname : startsWithLetter "bank_account" = true := by decide +kernel
  have hfields : ∀ f ∈ accountFields, startsWithLetter f.1 = true ∧ f.2.1.isNameable = true := by
    simp only [accountFields, List.forall_mem_cons]
    decide +kernel
  have hgo : exportedName "bank_account" = .ok "BankAccount" := by decide +kernel
  have htext : structText "bank_account" accountFields = .ok accountText := by decide +kernel
  obtain ⟨goName, text, file, d, hgoName, hstruct, hread⟩ := structText_read_back hname hfields
  rw [hgo, Except.ok.injEq] at hgoName
  rw [htext, Except.ok.injEq] at hstruct
  subst hgoName hstruct
  exact ⟨hname, hfields, file, d, hread⟩

end Gosmith.TypeSpec
