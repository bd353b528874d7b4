import Gosmith.Proofs.Layout.Indentation
import Gosmith.Proofs.Schema.ExportedName
import Gosmith.Schema.TypeSpec

namespace Gosmith.Go.Layout

open Gosmith.Text (braceOpen braceClose isWord)
open Piece (operators)

variable {g : Gap} {ctx ctx' ctx'' : Context} {placed more : List (Gap × Token)}

/-- From one context, the layout gives a run of tokens the gaps that they have, and from another it
goes on with the rest. -/
def Lays (ctx : Context) (placed : List (Gap × Token)) (rest : List Token) (ctx' : Context) : Prop :=
  gaps ctx (placed.map Prod.snd ++ rest) = (gaps ctx' rest).map (placed ++ ·)

theorem lays_nil (rest : List Token) : Lays ctx [] rest ctx := by
  rw [Lays, List.map_nil, List.nil_append]
  cases gaps ctx rest with
  | error e => rfl
  | ok last => rfl

theorem Lays.trans {rest : List Token} (h : Lays ctx placed (more.map Prod.snd ++ rest) ctx')
    (h' : Lays ctx' more rest ctx'') : Lays ctx (placed ++ more) rest ctx'' := by
  rw [Lays, List.map_append, List.append_assoc, h, h']
  cases gaps ctx'' rest with
  | error e => rfl
  | ok last => simp [Except.map]

theorem lays_token {below : Context} {t : Token} {rest : List Token}
    (hclose : close ctx t = .ok below) {r : Option Role} (hrole : role below t rest.head? = r)
    (hgap : gap below t r rest = g) :
    Lays ctx [(g, t)] rest (after below t r g) := by
  subst hrole hgap
  rw [Lays, List.map_singleton, List.singleton_append, gaps, hclose]
  simp only
  cases gaps (after below t (role below t rest.head?) _) rest with
  | error e => rfl
  | ok last => rfl

def behind (g : Gap) (kind : Token.Kind) (text : String) : Gap × Token :=
  (g, { Token.plain kind text with spaceBefore := g.isSpaced, newlinesBefore := g.newlines })

inductive TypeText : Gap → List (Gap × Token) → Prop
  | name {g : Gap} {s : String} (h : Token.isName s = true) : TypeText g [behind g .ident s]
  | unit {g : Gap} : TypeText g
      [behind g .keyword "struct", behind .none .op braceOpen, behind .none .op braceClose]
  | slice {g : Gap} {v : List (Gap × Token)} (hv : TypeText .none v) :
      TypeText g (behind g .op "[" :: behind .none .op "]" :: v)
  | map {g : Gap} {k v : List (Gap × Token)} (hk : TypeText .none k) (hv : TypeText .none v) :
      TypeText g (behind g .keyword "map" :: behind .none .op "[" ::
        (k ++ behind .none .op "]" :: v))

def brackets : List String := ["[", "]", braceOpen, braceClose]

structure Tame (a : Gap × Token) : Prop where
  lexed : a.2.Lexed
  kind : a.2.kind ≠ .semicolon
  line : a.2.text ∈ ambiguousOps → a.2.newlinesBefore = 0

theorem notMem_operators_of_isName {s : String} (h : Token.isName s = true) : s ∉ operators := by
  have hlexed := Token.lexed_name h
  exact hlexed.text_notMem_operators (by simp [Token.plain]) (by simp [Token.plain])

theorem tame_name (g : Gap) {s : String} (h : Token.isName s = true) : Tame (behind g .ident s) := by
  have hops : ambiguousOps ⊆ operators := by decide
  exact ⟨Token.lexed_name h, by simp [behind, Token.plain],
    fun hmem => absurd (hops hmem) (notMem_operators_of_isName h)⟩

theorem tame_keyword (g : Gap) {text : String} (h : text ∈ keywords) :
    Tame (behind g .keyword text) := by
  have hwords : ∀ k ∈ keywords, k ∉ ambiguousOps := by decide
  exact ⟨Token.lexed_keyword h, by simp [behind, Token.plain],
    fun hmem => absurd hmem (hwords text h)⟩

theorem tame_bracket (g : Gap) {text : String} (h : text ∈ brackets) :
    Tame (behind g .op text) := by
  have hops : ∀ o ∈ brackets, o ∈ operators ∧ o ≠ ";" ∧ o ∉ ambiguousOps := by
    decide
  obtain ⟨hop, hne, hplain⟩ := hops text h
  exact ⟨Token.lexed_operator hop hne, by simp [behind, Token.plain], fun hmem => absurd hmem hplain⟩

theorem TypeText.tame (h : TypeText g placed) : ∀ a ∈ placed, Tame a := by
  induction h with
  | name hs => exact List.forall_mem_singleton.2 (tame_name _ hs)
  | unit =>
      simp only [List.forall_mem_cons]
      exact ⟨tame_keyword _ (by decide), tame_bracket _ (by decide), tame_bracket _ (by decide),
        by simp⟩
  | slice hv ih =>
      simp only [List.forall_mem_cons]
      exact ⟨tame_bracket _ (by decide), tame_bracket _ (by decide), ih⟩
  | map hk hv ihk ihv =>
      simp only [List.forall_mem_cons, List.forall_mem_append]
      exact ⟨tame_keyword _ (by decide), tame_bracket _ (by decide), ihk,
        tame_bracket _ (by decide), ihv⟩

theorem nested_word {kind : Token.Kind} (h : kind = .ident ∨ kind = .keyword) (text : String)
    {ts : List Token} (hts : Grammar.Nested true ts) :
    Grammar.Nested true ((behind g kind text).2 :: ts) := by
  rcases h with rfl | rfl
  · exact .plain rfl rfl (by simp [behind, Token.plain]) (by simp) hts
  · exact .plain rfl rfl (by simp [behind, Token.plain]) (by simp) hts

theorem nested_pair {o c : Token} (ho : o.isOpener = true) (hc : c.isCloser = true)
    (hm : Token.closerOf o.text = c.text) {ts : List Token} (hts : Grammar.Nested true ts) :
    Grammar.Nested true (o :: c :: ts) := by
  have hgroup : Grammar.Nested true (o :: ([] ++ c :: ts)) := .group ho hc hm .nil hts
  exact hgroup

theorem TypeText.nested (h : TypeText g placed) : Grammar.Nested true (placed.map Prod.snd) := by
  induction h with
  | name hs => exact nested_word (.inl rfl) _ .nil
  | unit => exact nested_word (.inr rfl) _ (nested_pair rfl rfl rfl .nil)
  | slice hv ih => exact nested_pair rfl rfl rfl ih
  | map hk hv ihk ihv =>
      simp only [List.map_cons, List.map_append]
      exact nested_word (.inr rfl) _ (.group rfl rfl rfl ihk ihv)

theorem fuses_single (g : Gap) {text : String} {c : Char} (htext : text.toList = [c]) (hc : c ≠ '.')
    {cs : List Char} (h : ∀ o ∈ operators, o.toList.head? = some c →
      ∀ d ∈ o.toList.tail.head?, d ∉ cs.head?) : (behind g .op text).2.fuses cs = false := by
  have hlonger : ∀ o ∈ operators, ¬(1 < o.toList.length ∧ o.toList <+: c :: cs) := by
    rintro o ho ⟨hlength, hstart⟩
    have hcut := h o ho
    cases hcs : o.toList with
    | nil => simp [hcs] at hlength
    | cons a tail =>
        cases tail with
        | nil => simp [hcs] at hlength
        | cons d tail =>
            rw [hcs, List.cons_prefix_cons] at hstart
            obtain ⟨rfl, more, rfl⟩ := hstart
            simp [hcs] at hcut
  simpa [behind, Token.plain, Token.fuses, Piece.fuses, htext, hc] using hlonger

theorem fuses_bracket (g : Gap) {text : String} (h : text ∈ brackets)
    (cs : List Char) : (behind g .op text).2.fuses cs = false := by
  have hsingle : ∀ o ∈ operators, o.toList.tail = [] ∨
      o.toList.head?.all (fun c => decide (c ∉ ['[', ']', '{', '}'])) = true := by decide
  obtain ⟨c, hc, htext⟩ : ∃ c ∈ ['[', ']', '{', '}'], text.toList = [c] := by
    simp only [brackets, List.mem_cons, List.not_mem_nil, or_false] at h
    rcases h with rfl | rfl | rfl | rfl <;> simp [braceOpen, braceClose]
  have hpoint : c ≠ '.' := by
    rintro rfl
    simp at hc
  refine fuses_single g htext hpoint fun o ho hhead d hd => ?_
  rcases hsingle o ho with hshort | hother
  · simp [hshort] at hd
  · rw [hhead, Option.all_some, decide_eq_true_eq] at hother
    exact absurd hc hother

theorem fusionFree_word {kind : Token.Kind} (h : kind = .ident ∨ kind = .keyword) (text : String)
    (hmore : fusionFree more = true) (hword : (glued more).head?.any isWord = false) :
    fusionFree (behind g kind text :: more) = true := by
  rcases h with rfl | rfl
  · simp [behind, fusionFree, Token.fuses, Token.plain, Piece.fuses, hmore, hword]
  · simp [behind, fusionFree, Token.fuses, Token.plain, Piece.fuses, hmore, hword]

theorem fusionFree_bracket {text : String} (h : text ∈ brackets)
    (hmore : fusionFree more = true) : fusionFree (behind g .op text :: more) = true := by
  have hfuses := fuses_bracket g h (glued more)
  simp only [behind] at hfuses
  simp [behind, fusionFree, hfuses, hmore]

theorem head_glued_bracket {text : String} (h : text ∈ brackets) :
    (glued (behind .none .op text :: more)).head?.any isWord = false := by
  simp only [brackets, List.mem_cons, List.not_mem_nil, or_false] at h
  have hwords : isWord '[' = false ∧ isWord ']' = false ∧ isWord '{' = false ∧
      isWord '}' = false := by decide
  rcases h with rfl | rfl | rfl | rfl <;>
    simp [behind, Token.plain, glued, braceOpen, braceClose, hwords]

theorem TypeText.fusionFree (h : TypeText g placed) (hmore : fusionFree more = true)
    (hword : (glued more).head?.any isWord = false) : Layout.fusionFree (placed ++ more) = true := by
  induction h generalizing more with
  | name hs => exact fusionFree_word (.inl rfl) _ hmore hword
  | unit =>
      exact fusionFree_word (.inr rfl) _ (fusionFree_bracket (by decide)
        (fusionFree_bracket (by decide) hmore)) (head_glued_bracket (by decide))
  | slice hv ih =>
      exact fusionFree_bracket (by decide) (fusionFree_bracket (by decide) (ih hmore hword))
  | map hk hv ihk ihv =>
      simp only [List.cons_append, List.append_assoc]
      refine fusionFree_word (.inr rfl) _ (fusionFree_bracket (by decide) ?_)
        (head_glued_bracket (by decide))
      exact ihk (fusionFree_bracket (by decide) (ihv hmore hword)) (head_glued_bracket (by decide))

structure Lands (ctx : Context) (stack : List Bracket) (t : Token) : Prop where
  stack_eq : ctx.stack = stack
  prev_eq : ctx.prev = some t
  role_eq : ctx.prevRole = none

theorem gap_of_prev {prev t : Token} {r : Option Role} {rest : List Token}
    (hprev : ctx.prev = some prev) (hline : t.newlinesBefore = 0) :
    gap ctx t r rest = if needsSpace ctx prev t r rest then .space else .none := by
  simp [gap, hprev, hline]

theorem lays_word {kind : Token.Kind} (hk : kind = .ident ∨ kind = .keyword) {text : String}
    {rest : List Token} (hgap : gap ctx (behind g kind text).2 none rest = g) :
    ∃ ctx', Lays ctx [behind g kind text] rest ctx' ∧
      Lands ctx' ctx.stack (behind g kind text).2 := by
  have hclose : close ctx (behind g kind text).2 = .ok ctx := by
    rcases hk with rfl | rfl <;> rfl
  have hrole : role ctx (behind g kind text).2 rest.head? = none := by
    rcases hk with rfl | rfl <;> rfl
  refine ⟨_, lays_token hclose hrole hgap, ?_, rfl, rfl⟩
  rcases hk with rfl | rfl <;> rfl

theorem lays_opener {text : String} (htext : text ∈ ["[", braceOpen]) {rest : List Token}
    (hgap : gap ctx (behind g .op text).2 none rest = g) :
    ∃ b ctx', Lays ctx [behind g .op text] rest ctx' ∧
      Lands ctx' (b :: ctx.stack) (behind g .op text).2 := by
  simp only [List.mem_cons, List.not_mem_nil, or_false] at htext
  have hclose : close ctx (behind g .op text).2 = .ok ctx := by
    rcases htext with rfl | rfl <;> rfl
  have hrole : role ctx (behind g .op text).2 rest.head? = none := by
    rcases htext with rfl | rfl <;> rfl
  have hopener : (behind g .op text).2.isOpener = true := by
    rcases htext with rfl | rfl <;> rfl
  exact ⟨_, _, lays_token hclose hrole hgap, by simp only [after, hopener, if_true]; rfl, rfl, rfl⟩

theorem lays_closer {text : String} (htext : text ∈ ["]", braceClose]) {b : Bracket}
    {stack : List Bracket} (hstack : ctx.stack = b :: stack) {rest : List Token}
    (hgap : gap { ctx with stack := stack, closing := some b } (behind g .op text).2 none rest = g) :
    ∃ ctx', Lays ctx [behind g .op text] rest ctx' ∧ Lands ctx' stack (behind g .op text).2 := by
  simp only [List.mem_cons, List.not_mem_nil, or_false] at htext
  have hcloser : (behind g .op text).2.isCloser = true := by
    rcases htext with rfl | rfl <;> rfl
  have hclose : close ctx (behind g .op text).2 =
      .ok { ctx with stack := stack, closing := some b } := by
    simp [close, hcloser, hstack]
  have hrole : role { ctx with stack := stack, closing := some b } (behind g .op text).2
      rest.head? = none := by
    rcases htext with rfl | rfl <;> rfl
  refine ⟨_, lays_token hclose hrole hgap, ?_, rfl, rfl⟩
  simp [after, Token.isOpener_of_isCloser hcloser]

inductive StartsType : Token → Prop
  | word {t : Token} (hk : t.kind = .ident ∨ t.kind = .keyword) (ht : t.text ∉ operators) :
      StartsType t
  | bracket {t : Token} (hk : t.kind = .op) (ht : t.text = "[") : StartsType t

theorem StartsType.text_notMem {t : Token} (h : StartsType t) :
    t.text ∉ [",", ";", "++", "--", ")", "]", ":", ".", "...", braceOpen, braceClose, "<-", "("] := by
  have hops : [",", ";", "++", "--", ")", "]", ":", ".", "...", braceOpen, braceClose, "<-", "("] ⊆
      operators := by decide
  cases h with
  | word _ ht => exact fun hmem => ht (hops hmem)
  | bracket _ ht =>
      rw [ht]
      decide

structure Admits (ctx : Context) (g : Gap) : Prop where
  flat : g.newlines = 0
  gap_eq {t : Token} (ht : StartsType t) (hspace : t.spaceBefore = g.isSpaced)
    (hline : t.newlinesBefore = 0) (rest : List Token) : gap ctx t none rest = g

section

variable {p : Token} {stack : List Bracket}

theorem admits_after_name (h : Lands ctx stack p) (hk : p.kind = .ident) (hp : p.text ∉ operators) :
    Admits ctx .space := by
  refine ⟨rfl, fun {t} ht hspace hline rest => ?_⟩
  have hneeds : needsSpace ctx p t none rest = true := by
    cases ht with
    | word _ ht => exact needsSpace_operands h.role_eq (by simp [hk]) hp ht
    | bracket _ ht =>
        simp only [operators, List.mem_cons, not_or] at hp
        simp [needsSpace, braceOpen, braceClose, Token.isKeyword, h.role_eq, hk, hp, ht, hspace,
          Gap.isSpaced]
  rw [gap_of_prev h.prev_eq hline, if_pos hneeds]

theorem admits_after_opening (h : Lands ctx stack p) (hp : p.text = "[") : Admits ctx .none := by
  refine ⟨rfl, fun {t} ht hspace hline rest => ?_⟩
  have hneeds : needsSpace ctx p t none rest = false := by
    have htext := ht.text_notMem
    simp only [List.mem_cons, not_or] at htext
    simp [needsSpace, hp, htext]
  rw [gap_of_prev h.prev_eq hline, hneeds]
  rfl

theorem admits_after_closing (h : Lands ctx stack p) (hk : p.kind = .op) (hp : p.text = "]") :
    Admits ctx .none := by
  refine ⟨rfl, fun {t} ht hspace hline rest => ?_⟩
  have hneeds : needsSpace ctx p t none rest = false := by
    have htext := ht.text_notMem
    simp only [List.mem_cons, not_or, braceOpen, braceClose] at htext
    simp [needsSpace, braceOpen, braceClose, Token.isKeyword, h.role_eq, hk, hp, htext, hspace,
      Gap.isSpaced]
  rw [gap_of_prev h.prev_eq hline, hneeds]
  rfl

theorem admits_after_star (hprev : ctx.prev = some p) (hrole : ctx.prevRole = some .unary)
    (hp : p.text = "*") : Admits ctx .none := by
  refine ⟨rfl, fun {t} ht hspace hline rest => ?_⟩
  have hneeds : needsSpace ctx p t none rest = false := by
    have htext := ht.text_notMem
    simp only [List.mem_cons, not_or, braceOpen, braceClose] at htext
    simp [needsSpace, braceOpen, braceClose, hrole, hp, htext]
  rw [gap_of_prev hprev hline, hneeds]
  rfl

end

theorem Admits.word (h : Admits ctx g) {kind : Token.Kind} (hk : kind = .ident ∨ kind = .keyword)
    (text : String) (htext : text ∉ operators) (rest : List Token) :
    gap ctx (behind g kind text).2 none rest = g :=
  h.gap_eq (.word hk htext) rfl h.flat rest

theorem Admits.bracket (h : Admits ctx g) (rest : List Token) :
    gap ctx (behind g .op "[").2 none rest = g :=
  h.gap_eq (.bracket rfl rfl) rfl h.flat rest

theorem lays_closing {b : Bracket} {stack : List Bracket} {p : Token} (h : Lands ctx (b :: stack) p)
    (rest : List Token) : ∃ ctx', Lays ctx [behind .none .op "]"] rest ctx' ∧
      Lands ctx' stack (behind .none .op "]").2 := by
  refine lays_closer (by simp) h.stack_eq ?_
  simp [gap, h.prev_eq, needsSpace, behind, Token.plain, Gap.newlines]

theorem lays_braces {stack : List Bracket} (h : Lands ctx stack (behind g .keyword "struct").2)
    (rest : List Token) :
    ∃ ctx', Lays ctx [behind .none .op braceOpen, behind .none .op braceClose] rest ctx' ∧
      Lands ctx' stack (behind .none .op braceClose).2 := by
  have hopen : gap ctx (behind .none .op braceOpen).2 none
      ((behind .none .op braceClose).2 :: rest) = .none := by
    rw [gap_of_prev h.prev_eq rfl]
    rfl
  obtain ⟨b, ctx₁, hbrace, h₁⟩ := lays_opener (by simp) hopen
  have hclose : gap { ctx₁ with stack := ctx.stack, closing := some b }
      (behind .none .op braceClose).2 none rest = .none := by
    simp [gap, h₁.prev_eq, needsSpace, behind, Token.plain, Gap.newlines, braceOpen, braceClose]
  obtain ⟨ctx₂, hlast, h₂⟩ := lays_closer (by simp) h₁.stack_eq hclose
  rw [h.stack_eq] at h₂
  exact ⟨ctx₂, hbrace.trans hlast, h₂⟩

theorem lays_key {stack : List Bracket} (h : Lands ctx stack (behind g .keyword "map").2)
    (rest : List Token) : ∃ b ctx', Lays ctx [behind .none .op "["] rest ctx' ∧
      Lands ctx' (b :: stack) (behind .none .op "[").2 := by
  rw [← h.stack_eq]
  refine lays_opener (by simp) ?_
  simp [gap, h.prev_eq, h.role_eq, needsSpace, behind, Token.plain, Token.isKeyword, Gap.newlines,
    braceOpen, braceClose]

theorem TypeText.lays (h : TypeText g placed) (hctx : Admits ctx g) (rest : List Token) :
    ∃ ctx' t, Lays ctx placed rest ctx' ∧ Lands ctx' ctx.stack t := by
  induction h generalizing ctx rest with
  | name hs =>
      have hgap := hctx.word (.inl rfl) _ (notMem_operators_of_isName hs) rest
      obtain ⟨ctx', hlays, hlands⟩ := lays_word (.inl rfl) hgap
      exact ⟨ctx', _, hlays, hlands⟩
  | unit =>
      obtain ⟨ctx₁, hstruct, h₁⟩ := lays_word (.inr rfl) (hctx.word (.inr rfl) "struct" (by decide) _)
      obtain ⟨ctx₂, hbraces, h₂⟩ := lays_braces h₁ rest
      exact ⟨ctx₂, _, hstruct.trans hbraces, h₂⟩
  | slice hv ih =>
      obtain ⟨b, ctx₁, hopen, h₁⟩ := lays_opener (by simp) (hctx.bracket _)
      obtain ⟨ctx₂, hclose, h₂⟩ := lays_closing h₁ _
      obtain ⟨ctx₃, t, hvalue, h₃⟩ := ih (admits_after_closing h₂ rfl rfl) rest
      rw [h₂.stack_eq] at h₃
      exact ⟨ctx₃, t, hopen.trans (hclose.trans hvalue), h₃⟩
  | map hk hv ihk ihv =>
      obtain ⟨ctx₁, hmap, h₁⟩ := lays_word (.inr rfl) (hctx.word (.inr rfl) "map" (by decide) _)
      obtain ⟨b, ctx₂, hopen, h₂⟩ := lays_key h₁ _
      obtain ⟨ctx₃, t, hkey, h₃⟩ := ihk (admits_after_opening h₂ rfl) _
      rw [h₂.stack_eq] at h₃
      obtain ⟨ctx₄, hclose, h₄⟩ := lays_closing h₃ _
      obtain ⟨ctx₅, t', hvalue, h₅⟩ := ihv (admits_after_closing h₄ rfl rfl) rest
      rw [h₄.stack_eq] at h₅
      exact ⟨ctx₅, t', hmap.trans (hopen.trans (hkey.trans (hclose.trans hvalue))), h₅⟩

end Gosmith.Go.Layout

namespace Gosmith.TypeSpec

open Gosmith.Go Gosmith.Go.Layout
open Gosmith.Text (braced)

variable {ρ : Type}

def isNameable : TypeSpec ρ → Bool
  | primitive _ => true
  | list value => value.isNameable
  | set value => value.isNameable
  | map key value => key.isNameable && value.isNameable
  | typedef name _ => startsWithLetter name
  | forward name => startsWithLetter name
  | enum name _ => startsWithLetter name
  | struct name _ => startsWithLetter name
  | user name => startsWithLetter name
  | bare _ => false
  | foreign _ => false

def HasTypeText (text : String) : Prop :=
  ∀ g, ∃ placed, TypeText g placed ∧ printed placed = g.chars ++ text.toList

theorem hasTypeText_name {s : String} (h : Token.isName s = true) : HasTypeText s :=
  fun g => ⟨_, .name h, by simp [printed, behind, Token.plain]⟩

theorem HasTypeText.slice {text : String} (h : HasTypeText text) : HasTypeText ("[]" ++ text) := by
  intro g
  obtain ⟨placed, htype, hprinted⟩ := h .none
  exact ⟨_, .slice htype, by simp [printed, behind, Token.plain, hprinted, Gap.chars]⟩

theorem HasTypeText.map {key value : String} (hk : HasTypeText key) (hv : HasTypeText value) :
    HasTypeText ("map[" ++ key ++ "]" ++ value) := by
  intro g
  obtain ⟨k, hkey, hkeyText⟩ := hk .none
  obtain ⟨v, hvalue, hvalueText⟩ := hv .none
  exact ⟨_, .map hkey hvalue, by
    simp [printed, printed_append, behind, Token.plain, hkeyText, hvalueText, Gap.chars]⟩

theorem hasTypeText_emptyStruct : HasTypeText emptyStruct :=
  fun g => ⟨_, .unit, by simp [printed, behind, Token.plain, Gap.chars, emptyStruct, braced]⟩

theorem hasTypeText_primitive (p : Primitive) : HasTypeText p.goName := by
  cases p with
  | binary =>
      have hbyte : HasTypeText "byte" := hasTypeText_name (by decide +kernel)
      exact hbyte.slice
  | _ => exact hasTypeText_name (by decide +kernel)

theorem exists_exportedName {name : String} (h : startsWithLetter name = true) :
    ∃ s, exportedName name = .ok s ∧ Token.isName s = true := by
  obtain ⟨s, hs, hexported⟩ := exists_exported h
  exact ⟨s, by simp [exportedName, hs], isName_of_isExported hexported⟩

theorem exists_goText [HasKind ρ] {s : TypeSpec ρ} (h : s.isNameable = true) :
    ∃ text, s.goText = .ok text ∧ HasTypeText text := by
  have hname {name : String} (h : startsWithLetter name = true) :
      ∃ text, exportedName name = .ok text ∧ HasTypeText text := by
    obtain ⟨text, htext, hs⟩ := exists_exportedName h
    exact ⟨text, htext, hasTypeText_name hs⟩
  fun_induction isNameable s with
  | case1 p => exact ⟨p.goName, rfl, hasTypeText_primitive p⟩
  | case2 value ih =>
      obtain ⟨text, htext, htype⟩ := ih h
      exact ⟨"[]" ++ text, by simp only [goText, htext], htype.slice⟩
  | case3 value ih =>
      obtain ⟨text, htext, htype⟩ := ih h
      exact ⟨"map[" ++ text ++ "]" ++ emptyStruct, by simp only [goText, htext],
        htype.map hasTypeText_emptyStruct⟩
  | case4 key value ihk ihv =>
      rw [Bool.and_eq_true] at h
      obtain ⟨k, hk, hkey⟩ := ihk h.1
      obtain ⟨v, hv, hvalue⟩ := ihv h.2
      exact ⟨"map[" ++ k ++ "]" ++ v, by simp only [goText, hk, hv], hkey.map hvalue⟩
  | case5 name target => exact hname h
  | case6 name => exact hname h
  | case7 name items => exact hname h
  | case8 name fields => exact hname h
  | case9 name => exact hname h
  | case10 serial => simp at h
  | case11 r => simp at h

end Gosmith.TypeSpec
