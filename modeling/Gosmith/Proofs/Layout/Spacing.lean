import Gosmith.Proofs.Layout.Semicolons

namespace Gosmith.Go

open Gosmith.Text (braceOpen braceClose)

namespace Token

theorem endsOperand_of_key {t u : Token} (h : t.key = u.key) : t.endsOperand = u.endsOperand := by
  simp only [key, Prod.mk.injEq] at h
  rw [endsOperand, endsOperand, h.1, h.2]

theorem endsStatement_of_endsOperand {t : Token} (h : t.endsOperand = true) :
    t.endsStatement = true := by
  cases hk : t.kind with
  | op =>
      simp only [endsOperand, endsStatement, hk, List.contains_eq_mem, decide_eq_true_eq] at h ⊢
      simp only [List.mem_cons, List.not_mem_nil, or_false] at h ⊢
      tauto
  | _ => simp [endsOperand, endsStatement, hk, Kind.isLiteral] at h ⊢

theorem Lexed.congr {t u : Token} (h : t.Lexed) (hkey : u.key = t.key) : u.Lexed := by
  obtain ⟨p, hp, hp'⟩ := h
  exact ⟨p, hp, hkey.trans hp'⟩

theorem Lexed.text_notMem_operators {t : Token} (h : t.Lexed) (hop : t.kind ≠ .op)
    (hsemicolon : t.kind ≠ .semicolon) : t.text ∉ Piece.operators := by
  obtain ⟨p, hp, hkey⟩ := h
  have hkind : t.kind = p.tokenKind := congrArg Prod.fst hkey
  have hp' : p.kind ≠ .op := by
    intro hk
    simp only [Piece.tokenKind, hk] at hkind
    split at hkind
    · exact hsemicolon hkind
    · exact hop hkind
  intro hmem
  exact hp.text_ne_operator hp' hmem (toList_of_key hkey).symm

end Token

namespace Layout

open Grammar (Enclosed Moves)

def isCaseLabel (t : Token) : Bool :=
  t.isKeyword "case" || t.isKeyword "default"

def indifferent : List String :=
  [",", ";", "++", "--", ")", "]", ":", ".", "...", braceClose]

def isOpen (prev t : Token) : Bool :=
  t.kind == .op && ambiguousOps.contains t.text && prev.endsOperand

/-- Whether such an operator `t` stands alone on its line, with no blank before it and no case label
on the next line. -/
def hangsAt (prev t u : Token) : Bool :=
  isOpen prev t && 0 < t.newlinesBefore && !t.spaceBefore && 0 < u.newlinesBefore && !isCaseLabel u

def hangs : List Token → Bool
  | prev :: t :: u :: rest => hangsAt prev t u || hangs (t :: u :: rest)
  | _ => false

theorem newlines_gap {ctx : Context} (hprev : ctx.prev ≠ none) (t : Token) (r : Option Role)
    (rest : List Token) : (gap ctx t r rest).newlines = min 2 t.newlinesBefore := by
  unfold gap
  split
  · contradiction
  · split
    · simp only [Gap.newlines, decide_eq_true_eq]
      split <;> omega
    · split <;> simp only [Gap.newlines] <;> omega

theorem keepsLines_gaps {ctx : Context} {ts : List Token} {placed : List (Gap × Token)}
    (hprev : ctx.prev ≠ none) (h : gaps ctx ts = .ok placed) : KeepsLines placed := by
  induction ts generalizing ctx placed with
  | nil =>
      cases h
      simp [KeepsLines]
  | cons t ts ih =>
      obtain ⟨ctx', more, hclose, hmore, rfl⟩ := gaps_cons_eq_ok h
      refine List.forall_mem_cons.2 ⟨newlines_gap ?_ t _ ts, ih (by simp [after]) hmore⟩
      rwa [(close_prev hclose).1]

theorem role_of_endsOperand {t : Token} (h : t.endsOperand = true) (ctx : Context)
    (following : Option Token) : role ctx t following = none := by
  by_cases hk : t.kind = .op
  · simp only [Token.endsOperand, hk, List.contains_eq_mem, decide_eq_true_eq, List.mem_cons,
      List.not_mem_nil, or_false] at h
    rcases h with h | h | h | h | h <;> simp [role, hk, h, binaryOps, unaryOps, ambiguousOps]
  · simp [role, hk]

theorem close_eq_ok {ctx below : Context} {t : Token} (h : close ctx t = .ok below) :
    (t.isCloser = false ∧ below = ctx) ∨
      (t.isCloser = true ∧ ∃ b stack, ctx.stack = b :: stack ∧
        below = { ctx with stack := stack, closing := some b }) := by
  unfold close at h
  split at h
  · rename_i hc
    split at h
    · simp at h
    · rename_i b stack hs
      exact .inr ⟨hc, b, stack, hs, by simpa using h.symm⟩
  · rename_i hc
    exact .inl ⟨by simpa using hc, by simpa using h.symm⟩

structure Agrees (ctx ctx' : Context) (prev prev' : Token) : Prop where
  prev_eq : ctx.prev = some prev
  prev_eq' : ctx'.prev = some prev'
  key : prev'.key = prev.key
  stack : ctx'.stack = ctx.stack
  closing : ctx'.closing = ctx.closing
  printed : ctx'.printed = ctx.printed
  operand : prev.endsOperand = true → ctx.prevRole = none ∧ ctx'.prevRole = none

variable {ctx ctx' : Context} {prev prev' t v : Token}

theorem Agrees.text (h : Agrees ctx ctx' prev prev') : prev'.text = prev.text :=
  congrArg Prod.snd h.key

theorem Agrees.kind (h : Agrees ctx ctx' prev prev') : prev'.kind = prev.kind :=
  congrArg Prod.fst h.key

theorem Agrees.close (h : Agrees ctx ctx' prev prev') (hkey : v.key = t.key) {below : Context}
    {below' : Context} (hclose : close ctx t = .ok below) (hclose' : close ctx' v = .ok below') :
    Agrees below below' prev prev' := by
  have hcloser := Token.isCloser_of_key hkey
  rcases close_eq_ok hclose with ⟨ht, rfl⟩ | ⟨ht, b, stack, hs, rfl⟩
  · rcases close_eq_ok hclose' with ⟨-, rfl⟩ | ⟨hv, -⟩
    · exact h
    · simp [hv, ht] at hcloser
  · rcases close_eq_ok hclose' with ⟨hv, -⟩ | ⟨-, b', stack', hs', rfl⟩
    · simp [hv, ht] at hcloser
    · rw [h.stack, hs, List.cons.injEq] at hs'
      obtain ⟨rfl, rfl⟩ := hs'
      exact ⟨h.prev_eq, h.prev_eq', h.key, rfl, rfl, h.printed, h.operand⟩

theorem isSpacedBlock_of_agrees (h : Agrees ctx ctx' prev prev') (spaced : Bool) :
    isSpacedBlock ctx' spaced = isSpacedBlock ctx spaced := by
  simp [isSpacedBlock, h.prev_eq, h.prev_eq', h.stack, h.text, isTypeKeyword,
    Token.isKeyword_of_key h.key]

theorem Agrees.after (h : Agrees ctx ctx' prev prev') (hkey : v.key = t.key)
    (following following' : Option Token) (g : Gap) :
    Agrees (after ctx t (role ctx t following) g) (after ctx' v (role ctx' v following') g) t v := by
  have htext : v.text = t.text := congrArg Prod.snd hkey
  refine ⟨rfl, rfl, hkey, ?_, h.closing, by simp [Layout.after, h.printed], fun he => ⟨?_, ?_⟩⟩
  · simp [Layout.after, Token.isOpener_of_key hkey, htext, isSpacedBlock_of_agrees h, h.stack]
  · exact role_of_endsOperand he ctx following
  · exact role_of_endsOperand ((Token.endsOperand_of_key hkey).trans he) ctx' following'

theorem role_of_agrees (h : Agrees ctx ctx' prev prev') (hkey : v.key = t.key)
    (hopen : isOpen prev t = false) (following following' : Option Token) :
    role ctx' v following' = role ctx t following := by
  have htext : v.text = t.text := congrArg Prod.snd hkey
  have hkind : v.kind = t.kind := congrArg Prod.fst hkey
  have hends : prev'.endsOperand = prev.endsOperand := Token.endsOperand_of_key h.key
  by_cases hk : t.kind = .op
  · by_cases ht : t.text ∈ ambiguousOps
    · have hprev : prev.endsOperand = false := by simpa [isOpen, hk, ht] using hopen
      simp [role, hkind, htext, h.prev_eq, h.prev_eq', hends, hprev, Token.isKeyword_of_key h.key]
    · simp [role, hkind, htext, ht]
  · simp [role, hkind, hk]

def isParted (following : Option Token) : Bool :=
  following.all fun u => decide (0 < u.newlinesBefore) || u.spaceBefore

theorem kind_of_isOpen (h : isOpen prev t = true) :
    t.kind = .op ∧ t.text ∈ ambiguousOps ∧ prev.endsOperand = true := by
  simp only [isOpen, Bool.and_eq_true, beq_iff_eq, List.contains_eq_mem, decide_eq_true_eq] at h
  exact ⟨h.1.1, h.1.2, h.2⟩

theorem endsOperand_ne_keyword (h : prev.endsOperand = true) (text : String) :
    prev.isKeyword text = false := by
  cases hk : prev.kind with
  | keyword => simp [Token.endsOperand, hk, Token.Kind.isLiteral] at h
  | _ => simp [Token.isKeyword, hk]

theorem role_of_isOpen (hprev : ctx.prev = some prev) (hrole : ctx.prevRole = none)
    (h : isOpen prev t = true) (following : Option Token) :
    role ctx t following =
      if t.spaceBefore && isParted following then some .binary else some .unary := by
  obtain ⟨hk, ht, hends⟩ := kind_of_isOpen h
  have hnot : t.text ∉ binaryOps ∧ t.text ∉ unaryOps := by
    simp only [ambiguousOps, List.mem_cons, List.not_mem_nil, or_false] at ht
    rcases ht with ht | ht | ht | ht | ht | ht <;> simp [ht, binaryOps, unaryOps]
  cases following with
  | none => simp [role, hk, hnot, ht, hprev, hrole, hends, endsOperand_ne_keyword hends, isParted]
  | some u => simp [role, hk, hnot, ht, hprev, hrole, hends, endsOperand_ne_keyword hends, isParted]

theorem text_of_endsOperand (hl : prev.Lexed) (h : prev.endsOperand = true) :
    prev.text ∉ [",", ";", ":", "(", "[", ".", "...", braceOpen] := by
  by_cases hk : prev.kind = .op
  · simp only [Token.endsOperand, hk, List.contains_eq_mem, decide_eq_true_eq, List.mem_cons,
      List.not_mem_nil, or_false] at h
    rcases h with h | h | h | h | h <;> simp [h, braceOpen]
  · have hops : ∀ o ∈ [",", ";", ":", "(", "[", ".", "...", braceOpen], o ∈ Piece.operators := by
      decide
    have hsemicolon : prev.kind ≠ .semicolon := by
      intro hk
      simp [Token.endsOperand, hk, Token.Kind.isLiteral] at h
    exact fun hmem => hl.text_notMem_operators hk hsemicolon (hops _ hmem)

theorem needsSpace_of_isOpen (hl : prev.Lexed) (hprev : ctx.prev = some prev)
    (hrole : ctx.prevRole = none) (h : isOpen prev t = true) (following : Option Token)
    (rest : List Token) : needsSpace ctx prev t (role ctx t following) rest = t.spaceBefore := by
  obtain ⟨-, ht, hends⟩ := kind_of_isOpen h
  have htext := text_of_endsOperand hl hends
  have hspace : needsSpace ctx prev t (role ctx t following) rest =
      (role ctx t following == some .binary || t.spaceBefore) := by
    rw [role_of_isOpen hprev hrole h]
    simp only [ambiguousOps, braceOpen, List.mem_cons, List.not_mem_nil, or_false, not_or] at ht htext
    rcases ht with ht | ht | ht | ht | ht | ht <;> split <;>
      simp [needsSpace, ht, htext, hrole, hends, endsOperand_ne_keyword hends, braceOpen, braceClose]
  rw [hspace, role_of_isOpen hprev hrole h]
  cases t.spaceBefore <;> simp

theorem needsSpace_after_operator {r : Role} (hrole : ctx.prevRole = some r) (hk : prev.kind = .op)
    (hprev : prev.text ∈ ambiguousOps) (ht : t.text ∉ indifferent) (r' : Option Role)
    (rest : List Token) : needsSpace ctx prev t r' rest = decide (r = .binary) := by
  simp only [indifferent, braceClose, List.mem_cons, List.not_mem_nil, or_false, not_or] at ht
  simp only [ambiguousOps, List.mem_cons, List.not_mem_nil, or_false] at hprev
  rcases hprev with hp | hp | hp | hp | hp | hp <;> cases r <;>
    simp [needsSpace, spaceBeforeBrace, hp, hk, ht, hrole, Token.isKeyword, braceOpen, braceClose]

theorem needsSpace_indifferent (ht : t.text ∈ indifferent) (role : Option Role) (prev : Token)
    (r : Option Role) (rest : List Token) :
    needsSpace { ctx with prevRole := role } prev t r rest = needsSpace ctx prev t r rest := by
  simp only [indifferent, List.mem_cons, List.not_mem_nil, or_false] at ht
  rcases ht with h | h | h | h | h | h | h | h | h | h <;> simp [needsSpace, h, braceOpen, braceClose]

def Settles (f : Bool → Bool) : Prop :=
  ∀ b, f (f b) = f b

theorem settles_const (c : Bool) : Settles fun _ => c :=
  fun _ => rfl

theorem settles_id : Settles fun b => b :=
  fun _ => rfl

theorem settles_or (c : Bool) : Settles fun b => c || b := by
  intro b
  simp

theorem settles_ite {c : Prop} {inst : Bool → Decidable c} {f g : Bool → Bool} (hf : Settles f)
    (hg : Settles g) : Settles fun b => @ite Bool c (inst b) (f b) (g b) := by
  intro b
  by_cases hc : c
  · simpa [hc] using hf b
  · simpa [hc] using hg b

theorem settles_needsSpace (ctx : Context) (prev t : Token) (r : Option Role) (rest : List Token) :
    Settles fun b => needsSpace ctx prev { t with spaceBefore := b } r rest := by
  unfold needsSpace spaceBeforeBrace spaceBeforeParen
  dsimp only
  repeat' first
    | exact settles_const _
    | exact settles_id
    | exact settles_or _
    | apply settles_ite

theorem needsSpace_of_agrees (h : Agrees ctx ctx' prev prev') (hkey : v.key = t.key)
    (hrole : ctx'.prevRole = ctx.prevRole) (r : Option Role) {rest rest' : List Token}
    (hrest : closesOnLine 1 rest' = closesOnLine 1 rest) :
    needsSpace ctx' prev' v r rest' =
      needsSpace ctx prev { t with spaceBefore := v.spaceBefore } r rest := by
  have htext : v.text = t.text := congrArg Prod.snd hkey
  have hends : prev'.endsOperand = prev.endsOperand := Token.endsOperand_of_key h.key
  unfold needsSpace spaceBeforeBrace spaceBeforeParen isTypeKeyword
  rw [h.stack, h.closing, h.printed, hrole, h.text, h.kind, htext, hends, hrest]
  simp only [Token.isKeyword_of_key h.key]

theorem needsSpace_again (h : Agrees ctx ctx' prev prev') (hkey : v.key = t.key)
    (hrole : ctx'.prevRole = ctx.prevRole) {r : Option Role} {rest rest' : List Token}
    (hrest : closesOnLine 1 rest' = closesOnLine 1 rest)
    (hspace : v.spaceBefore = needsSpace ctx prev t r rest) :
    needsSpace ctx' prev' v r rest' = needsSpace ctx prev t r rest := by
  rw [needsSpace_of_agrees h hkey hrole r hrest, hspace]
  exact settles_needsSpace ctx prev t r rest t.spaceBefore

def Steady (ctx ctx' : Context) (t : Token) : Prop :=
  ctx'.prevRole = ctx.prevRole ∨ (t.newlinesBefore = 0 ∧ t.text ∈ indifferent) ∨
    (0 < t.newlinesBefore ∧ isCaseLabel t = true ∧ ctx.stack ≠ [])

theorem Steady.close (h : Steady ctx ctx' t) {below below' : Context}
    (hclose : close ctx t = .ok below) (hclose' : close ctx' v = .ok below') :
    Steady below below' t := by
  rcases h with hrole | hflat | ⟨hline, hlabel, hstack⟩
  · left
    rw [(close_prev hclose).2, (close_prev hclose').2, hrole]
  · exact .inr (.inl hflat)
  · have hopen : t.isCloser = false := by
      simp only [isCaseLabel, Token.isKeyword, Bool.or_eq_true, Bool.and_eq_true, beq_iff_eq] at hlabel
      rcases hlabel with ⟨hk, -⟩ | ⟨hk, -⟩ <;> simp [Token.isCloser, hk]
    rcases close_eq_ok hclose with ⟨-, rfl⟩ | ⟨hcloser, -⟩
    · exact .inr (.inr ⟨hline, hlabel, hstack⟩)
    · simp [hopen] at hcloser

theorem closesOnLine_reread {placed : List (Gap × Token)} {vs : List Token}
    (h : List.Forall₂ Reread placed vs) (hlines : KeepsLines placed) (depth : Nat) :
    closesOnLine depth vs = closesOnLine depth (placed.map Prod.snd) := by
  induction h generalizing depth with
  | nil => rfl
  | @cons a v placed vs ha h ih =>
      obtain ⟨hline, hlines⟩ := List.forall_mem_cons.1 hlines
      have hzero : 0 < v.newlinesBefore ↔ 0 < a.2.newlinesBefore := by
        rw [ha.newlines, hline]
        omega
      simp only [List.map_cons, closesOnLine, hzero, Token.isOpener_of_key ha.key,
        Token.isCloser_of_key ha.key, ih hlines]

theorem indentation_again (h : Agrees ctx ctx' prev prev') (hkey : v.key = t.key)
    (hline : 0 < t.newlinesBefore) (hsteady : Steady ctx ctx' t) :
    indentation ctx' v = indentation ctx t := by
  simp only [indentation, Token.isKeyword_of_key hkey, h.stack]
  rcases hsteady with hrole | ⟨hzero, -⟩ | ⟨-, hlabel, hstack⟩
  · rw [hrole]
  · omega
  · have hdepth := List.length_pos_iff.2 hstack
    simp only [isCaseLabel] at hlabel
    simp [hlabel, hdepth]

theorem gap_of_flat (hprev : ctx.prev = some prev) (hline : t.newlinesBefore = 0) (r : Option Role)
    (rest : List Token) :
    gap ctx t r rest = if needsSpace ctx prev t r rest then .space else .none := by
  simp [gap, hprev, hline]

theorem isOpen_of_key (hprev : prev'.key = prev.key) (hkey : v.key = t.key) :
    isOpen prev' v = isOpen prev t := by
  have hkind : v.kind = t.kind := congrArg Prod.fst hkey
  have htext : v.text = t.text := congrArg Prod.snd hkey
  rw [isOpen, isOpen, hkind, htext, Token.endsOperand_of_key hprev]

theorem needsSpace_reread (h : Agrees ctx ctx' prev prev') (hl : prev.Lexed) (hkey : v.key = t.key)
    (hline : t.newlinesBefore = 0) (hsteady : Steady ctx ctx' t)
    {following following' : Option Token} {rest rest' : List Token}
    (hrest : closesOnLine 1 rest' = closesOnLine 1 rest)
    (hspace : v.spaceBefore = needsSpace ctx prev t (role ctx t following) rest) :
    needsSpace ctx' prev' v (role ctx' v following') rest' =
      needsSpace ctx prev t (role ctx t following) rest := by
  cases hopen : isOpen prev t with
  | true =>
      obtain ⟨hrole, hrole'⟩ := h.operand (kind_of_isOpen hopen).2.2
      rw [← isOpen_of_key h.key hkey] at hopen
      rw [needsSpace_of_isOpen (hl.congr h.key) h.prev_eq' hrole' hopen, hspace]
  | false =>
      rw [role_of_agrees h hkey hopen following following']
      rcases hsteady with hrole | ⟨-, htext⟩ | ⟨hpos, -⟩
      · exact needsSpace_again h hkey hrole hrest hspace
      · have hsame : Agrees ctx { ctx' with prevRole := ctx.prevRole } prev prev' :=
          ⟨h.prev_eq, h.prev_eq', h.key, h.stack, h.closing, h.printed,
            fun he => ⟨(h.operand he).1, (h.operand he).1⟩⟩
        have htext' : v.text ∈ indifferent := by
          rwa [show v.text = t.text from congrArg Prod.snd hkey]
        rw [← needsSpace_again hsame hkey rfl hrest hspace]
        exact (needsSpace_indifferent htext' _ _ _ _).symm
      · omega

theorem gap_again (h : Agrees ctx ctx' prev prev') (hl : prev.Lexed) (hsteady : Steady ctx ctx' t)
    {following : Option Token} {rest rest' : List Token}
    (hrest : closesOnLine 1 rest' = closesOnLine 1 rest)
    (hv : Reread (gap ctx t (role ctx t following) rest, t) v) (following' : Option Token) :
    gap ctx' v (role ctx' v following') rest' = gap ctx t (role ctx t following) rest := by
  have hlines : v.newlinesBefore = min 2 t.newlinesBefore := by
    rw [hv.newlines, newlines_gap (by simp [h.prev_eq])]
  by_cases hline : 0 < t.newlinesBefore
  · have hline' : 0 < v.newlinesBefore := by omega
    have hblank : 1 < v.newlinesBefore ↔ 1 < t.newlinesBefore := by omega
    simp only [gap, h.prev_eq, h.prev_eq', hline, hline', if_true, hblank,
      indentation_again h hv.key hline hsteady]
  · have hflat : t.newlinesBefore = 0 := by omega
    have hflat' : v.newlinesBefore = 0 := by omega
    have hspace : v.spaceBefore = needsSpace ctx prev t (role ctx t following) rest := by
      rw [hv.space, gap_of_flat h.prev_eq hflat]
      split <;> simp_all [Gap.isSpaced]
    rw [gap_of_flat h.prev_eq hflat, gap_of_flat h.prev_eq' hflat',
      needsSpace_reread h hl hv.key hflat hsteady hrest hspace]

theorem spaceBefore_of_isOpen (hprev : ctx.prev = some prev) (hl : prev.Lexed)
    (hrole : ctx.prevRole = none) (hopen : isOpen prev t = true)
    (hdepth : 0 < t.newlinesBefore → ctx.stack ≠ []) {following : Option Token} {rest : List Token}
    (hv : Reread (gap ctx t (role ctx t following) rest, t) v) :
    v.spaceBefore = (t.spaceBefore || decide (0 < t.newlinesBefore)) := by
  rw [hv.space]
  by_cases hline : 0 < t.newlinesBefore
  -- inside brackets a line is indented, so a tab stands before its first token
  · have hk := (kind_of_isOpen hopen).1
    have hpos := List.length_pos_iff.2 (hdepth hline)
    simp [gap, hprev, hline, indentation, Token.isKeyword, hk, hrole, Gap.isSpaced, hpos]
  · have hflat : t.newlinesBefore = 0 := by omega
    rw [gap_of_flat hprev hflat, needsSpace_of_isOpen hl hprev hrole hopen]
    cases t.spaceBefore <;> simp [Gap.isSpaced, hflat]

theorem isCloser_of_not_indifferent (h : t.text ∉ indifferent) : t.isCloser = false := by
  simp only [indifferent, braceClose, List.mem_cons, List.not_mem_nil, or_false, not_or] at h
  simp [Token.isCloser, Token.closers, h]

theorem spaceBefore_after_isOpen {u w : Token} {r : Role} {g : Gap} {below : Context}
    (hopen : isOpen prev t = true) (hclose : close (after ctx t (some r) g) u = .ok below)
    (hline : u.newlinesBefore = 0) (htext : u.text ∉ indifferent) {r' : Option Role}
    {rest : List Token} (hw : Reread (gap below u r' rest, u) w) :
    w.spaceBefore = decide (r = .binary) := by
  obtain ⟨hk, ht, -⟩ := kind_of_isOpen hopen
  rcases close_eq_ok hclose with ⟨-, rfl⟩ | ⟨hcloser, -⟩
  · have hprev : (after ctx t (some r) g).prev = some t := rfl
    have hrole : (after ctx t (some r) g).prevRole = some r := rfl
    rw [hw.space, gap_of_flat hprev hline, needsSpace_after_operator hrole hk ht htext]
    cases r <;> simp [Gap.isSpaced]
  · simp [isCloser_of_not_indifferent htext] at hcloser

theorem role_again_of_flat {u w : Token} {g : Gap} {below : Context} {r : Option Role}
    {rest : List Token} (hopen : isOpen prev t = true) (hprev : ctx.prev = some prev)
    (hrole : ctx.prevRole = none) (hprev' : ctx'.prev = some prev') (hrole' : ctx'.prevRole = none)
    (hopen' : isOpen prev' v = true) (hspace : t.spaceBefore = true → v.spaceBefore = true)
    (hclose : close (after ctx t (role ctx t (some u)) g) u = .ok below)
    (hline : u.newlinesBefore = 0) (hline' : w.newlinesBefore = 0)
    (hw : Reread (gap below u r rest, u) w) (htext : u.text ∉ indifferent) :
    role ctx' v (some w) = role ctx t (some u) := by
  have hr := role_of_isOpen hprev hrole hopen (some u)
  rw [role_of_isOpen hprev' hrole' hopen']
  split at hr
  · rename_i hboth
    rw [hr] at hclose ⊢
    have hw' := spaceBefore_after_isOpen hopen hclose hline htext hw
    simp only [Bool.and_eq_true] at hboth
    simp [isParted, hw', hspace hboth.1]
  · rw [hr] at hclose ⊢
    have hw' := spaceBefore_after_isOpen hopen hclose hline htext hw
    simp [isParted, hw', hline']

theorem role_again_of_line {u w : Token} (hopen : isOpen prev t = true)
    (hprev : ctx.prev = some prev) (hrole : ctx.prevRole = none) (hprev' : ctx'.prev = some prev')
    (hrole' : ctx'.prevRole = none) (hopen' : isOpen prev' v = true)
    (hspace : v.spaceBefore = (t.spaceBefore || decide (0 < t.newlinesBefore)))
    (hline : 0 < u.newlinesBefore) (hline' : 0 < w.newlinesBefore) :
    (role ctx' v (some w) = role ctx t (some u) ∧ (0 < t.newlinesBefore → t.spaceBefore = true)) ∨
      (0 < t.newlinesBefore ∧ t.spaceBefore = false ∧ role ctx t (some u) = some .unary ∧
        role ctx' v (some w) = some .binary) := by
  rw [role_of_isOpen hprev hrole hopen, role_of_isOpen hprev' hrole' hopen', hspace]
  cases t.spaceBefore with
  | true => simp [isParted, hline, hline']
  | false =>
      by_cases hstart : 0 < t.newlinesBefore
      · simp [isParted, hline', hstart]
      · simp [hstart]

theorem steady_or_hangs (h : Agrees ctx ctx' prev prev') (hl : prev.Lexed)
    (hdepth : isOpen prev t = true → 0 < t.newlinesBefore → ctx.stack ≠ []) {u w : Token} {g : Gap}
    {below : Context} {r : Option Role} {rest rest' : List Token}
    (hv : Reread (gap ctx t (role ctx t (some u)) rest, t) v)
    (hclose : close (after ctx t (role ctx t (some u)) g) u = .ok below)
    (hw : Reread (gap below u r rest', u) w) :
    (Steady (after ctx t (role ctx t (some u)) g) (after ctx' v (role ctx' v (some w)) g) u ∧
        hangsAt prev t u = false) ∨
      (hangsAt prev t u = true ∧ role ctx t (some u) = some .unary ∧
        role ctx' v (some w) = some .binary) := by
  have hbelow : below.prev ≠ none := by simp [(close_prev hclose).1, after]
  have hlines : w.newlinesBefore = min 2 u.newlinesBefore := by
    rw [hw.newlines, newlines_gap hbelow]
  have hsame (hr : role ctx' v (some w) = role ctx t (some u)) :
      Steady (after ctx t (role ctx t (some u)) g) (after ctx' v (role ctx' v (some w)) g) u :=
    .inl hr
  cases hopen : isOpen prev t with
  | false =>
      exact .inl ⟨hsame (role_of_agrees h hv.key hopen _ _), by simp [hangsAt, hopen]⟩
  | true =>
      obtain ⟨hrole, hrole'⟩ := h.operand (kind_of_isOpen hopen).2.2
      have hopen' := (isOpen_of_key h.key hv.key).trans hopen
      have hspace := spaceBefore_of_isOpen h.prev_eq hl hrole hopen (hdepth hopen) hv
      by_cases hline : 0 < u.newlinesBefore
      · have hline' : 0 < w.newlinesBefore := by omega
        rcases role_again_of_line hopen h.prev_eq hrole h.prev_eq' hrole' hopen' hspace hline hline'
          with ⟨hr, hspaced⟩ | ⟨hstart, hbare, hr, hr'⟩
        · refine .inl ⟨hsame hr, ?_⟩
          by_cases hstart : 0 < t.newlinesBefore
          · simp [hangsAt, hspaced hstart]
          · simp [hangsAt, hstart]
        · cases hlabel : isCaseLabel u with
          | true =>
              have hstack : (after ctx t (role ctx t (some u)) g).stack ≠ [] := by
                simp only [after]
                split
                · simp
                · exact hdepth hopen hstart
              exact .inl ⟨.inr (.inr ⟨hline, hlabel, hstack⟩), by simp [hangsAt, hlabel]⟩
          | false => exact .inr ⟨by simp [hangsAt, hopen, hstart, hbare, hline, hlabel], hr, hr'⟩
      -- within a line the role may change only before a token that is indifferent to it
      · have hflat : u.newlinesBefore = 0 := by omega
        refine .inl ⟨?_, by simp [hangsAt, hflat]⟩
        by_cases htext : u.text ∈ indifferent
        · exact .inr (.inl ⟨hflat, htext⟩)
        · exact hsame (role_again_of_flat hopen h.prev_eq hrole h.prev_eq' hrole' hopen'
            (fun hspaced => by simp [hspace, hspaced]) hclose hflat (by omega) hw htext)

theorem gap_ne_of_roles (h : Agrees ctx ctx' prev prev') (hrole : ctx.prevRole = some .unary)
    (hrole' : ctx'.prevRole = some .binary) (hkey : v.key = t.key) (hline : 0 < t.newlinesBefore)
    (hline' : 0 < v.newlinesBefore) (hlabel : isCaseLabel t = false) (r r' : Option Role)
    (rest rest' : List Token) : gap ctx' v r' rest' ≠ gap ctx t r rest := by
  simp only [isCaseLabel] at hlabel
  simp [gap, h.prev_eq, h.prev_eq', hline, hline', indentation, Token.isKeyword_of_key hkey, hlabel,
    hrole, hrole', h.stack]

theorem depth_after {stack stack' : List String} (hm : Moves stack t stack')
    (hstack : stack.length = ctx.stack.length) {below : Context} (hclose : close ctx t = .ok below)
    (r : Option Role) (g : Gap) : stack'.length = (after below t r g).stack.length := by
  rcases close_eq_ok hclose with ⟨hno, rfl⟩ | ⟨hcloser, b, bs, hbs, rfl⟩
  · cases hm with
    | opener ho => simp [after, ho, hstack]
    | closer hc => simp [hno] at hc
    | plain ho => simp [after, ho, hstack]
  · have ho := Token.isOpener_of_isCloser hcloser
    cases hm with
    | opener ho' => simp [ho] at ho'
    | closer => simpa [after, ho, hbs] using hstack
    | plain _ hc => simp [hcloser] at hc

theorem stack_ne_nil_of_isOpen {stack : List String} {breaks : Bool} {rest : List Token}
    (hopen : isOpen prev t = true) (hbreaks : breaks = prev.endsStatement)
    (hen : Enclosed stack breaks (t :: rest)) (hstack : stack.length = ctx.stack.length)
    {below : Context} (hclose : close ctx t = .ok below) (hline : 0 < t.newlinesBefore) :
    below.stack ≠ [] := by
  obtain ⟨-, ht, hends⟩ := kind_of_isOpen hopen
  -- a line that ended with an operand outside brackets would have ended the declaration
  have hcloser : t.isCloser = false := by
    simp only [ambiguousOps, List.mem_cons, List.not_mem_nil, or_false] at ht
    rcases ht with ht | ht | ht | ht | ht | ht <;> simp [Token.isCloser, Token.closers, ht]
  cases hen with
  | cons _ hfree _ =>
      rcases close_eq_ok hclose with ⟨-, rfl⟩ | ⟨hc, -⟩
      · intro hnil
        rw [hnil, List.length_nil, List.length_eq_zero_iff] at hstack
        have hzero := (hfree hstack).2 (hbreaks.trans (Token.endsStatement_of_endsOperand hends))
        omega
      · simp [hcloser] at hc

theorem gaps_ne_of_hangs {s t v u w : Token} (h : Agrees ctx ctx' t v)
    (hrole : ctx.prevRole = some .unary) (hrole' : ctx'.prevRole = some .binary)
    (hangs : hangsAt s t u = true) {rest vs : List Token} {a : Gap × Token}
    {more more' : List (Gap × Token)} (hmore : gaps ctx (u :: rest) = .ok (a :: more))
    (hw : Reread a w) (hmore' : gaps ctx' (w :: vs) = .ok more') :
    more'.map Prod.fst ≠ (a :: more).map Prod.fst := by
  obtain ⟨below, _, hclose, -, heq⟩ := gaps_cons_eq_ok hmore
  rw [List.cons.injEq] at heq
  obtain ⟨rfl, rfl⟩ := heq
  obtain ⟨below', _, hclose', -, rfl⟩ := gaps_cons_eq_ok hmore'
  have hbelow := h.close hw.key hclose hclose'
  simp only [hangsAt, Bool.and_eq_true, decide_eq_true_eq, Bool.not_eq_true'] at hangs
  obtain ⟨⟨-, hline⟩, hlabel⟩ := hangs
  have hlines : w.newlinesBefore = min 2 u.newlinesBefore := by
    rw [hw.newlines, newlines_gap (by simp [hbelow.prev_eq])]
  have hne := gap_ne_of_roles hbelow ((close_prev hclose).2.trans hrole)
    ((close_prev hclose').2.trans hrole') hw.key hline (by omega) hlabel
  intro heq
  exact hne _ _ _ _ (List.cons.inj heq).1

theorem gap_step {rest vs : List Token} {more : List (Gap × Token)} {below below' : Context}
    (hag : Agrees ctx ctx' prev prev') (hl : prev.Lexed) (hsteady : Steady ctx ctx' t)
    (hclose : close ctx t = .ok below) (hclose' : close ctx' v = .ok below')
    (hv : Reread (gap below t (role below t rest.head?) rest, t) v)
    (hmore : gaps (after below t (role below t rest.head?)
      (gap below t (role below t rest.head?) rest)) rest = .ok more)
    (hvs : List.Forall₂ Reread more vs) :
    Agrees below below' prev prev' ∧
      gap below' v (role below' v vs.head?) vs = gap below t (role below t rest.head?) rest := by
  have hbelow := hag.close hv.key hclose hclose'
  have hlines : KeepsLines more := keepsLines_gaps (by simp [after]) hmore
  have hrest : closesOnLine 1 vs = closesOnLine 1 rest := by
    rw [closesOnLine_reread hvs hlines, gaps_tokens hmore]
  exact ⟨hbelow, gap_again hbelow hl (hsteady.close hclose hclose') hrest hv vs.head?⟩

theorem gaps_again {ts : List Token} (hag : Agrees ctx ctx' prev prev')
    (hl : ∀ s ∈ prev :: ts, s.Lexed) (hsteady : ∀ t ∈ ts.head?, Steady ctx ctx' t)
    {stack : List String} (hen : Enclosed stack prev.endsStatement ts)
    (hstack : stack.length = ctx.stack.length) {placed placed' : List (Gap × Token)}
    (h : gaps ctx ts = .ok placed) {vs : List Token} (hvs : List.Forall₂ Reread placed vs)
    (h' : gaps ctx' vs = .ok placed') :
    placed'.map Prod.fst = placed.map Prod.fst ↔ hangs (prev :: ts) = false := by
  -- the contexts may differ in the role of the token before, but only if the next token is steady
  induction ts generalizing ctx ctx' prev prev' stack placed placed' vs with
  | nil =>
      cases h
      cases hvs
      cases h'
      simp [hangs]
  | cons t rest ih =>
      obtain ⟨hprev, hl⟩ := List.forall_mem_cons.1 hl
      obtain ⟨below, more, hclose, hmore, rfl⟩ := gaps_cons_eq_ok h
      cases hvs with
      | @cons _ v _ vs hv hvs =>
      obtain ⟨below', more', hclose', hmore', rfl⟩ := gaps_cons_eq_ok h'
      obtain ⟨hbelow, hgap⟩ := gap_step hag hprev (hsteady t rfl) hclose hclose' hv hmore hvs
      have hafter := hbelow.after hv.key rest.head? vs.head?
        (gap below t (role below t rest.head?) rest)
      have hdepth := fun hopen => stack_ne_nil_of_isOpen hopen rfl hen hstack hclose
      rw [hgap] at hmore'
      rw [List.map_cons, List.map_cons, hgap, List.cons.injEq, and_iff_right rfl]
      cases hen with
      | cons hm hfree hen =>
      have hstack' := depth_after hm hstack hclose (role below t rest.head?)
        (gap below t (role below t rest.head?) rest)
      cases rest with
      | nil =>
          cases hmore
          cases hvs
          cases hmore'
          simp [hangs]
      | cons u rest =>
          obtain ⟨below₂, more₂, hclose₂, -, rfl⟩ := gaps_cons_eq_ok hmore
          cases hvs with
          | @cons _ w _ vs hw hws =>
          rcases steady_or_hangs hbelow hprev hdepth hv hclose₂ hw with
            ⟨hnext, hno⟩ | ⟨hyes, hr, hr'⟩
          · rw [hangs, hno, Bool.false_or]
            refine ih hafter hl ?_ hen hstack' hmore (.cons hw hws) hmore'
            simpa using hnext
          · have hne := gaps_ne_of_hangs hafter hr hr' hyes hmore hw hmore'
            rw [hangs, hyes, Bool.true_or]
            exact iff_of_false hne (by simp)

end Layout

end Gosmith.Go
