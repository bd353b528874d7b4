import Gosmith.Proofs.Grammar.File
import Gosmith.Proofs.Lexeme.Shape
import Gosmith.Go.Layout

namespace Gosmith.Go

open Gosmith.Text (braceOpen braceClose)

namespace Token

theorem Lexed.kind_ne_op {t : Token} (h : t.Lexed) (hne : t.text ∉ Piece.operators) :
    t.kind ≠ .op := by
  obtain ⟨p, hp, hkey⟩ := h
  simp only [key, Piece.key, Prod.mk.injEq] at hkey
  rw [hkey.1]
  intro hk
  have hm := p.makes
  rw [hk] at hm
  cases hm with
  | number _ hnum => simp at hnum
  | op hgap =>
      cases hp with
      | op ho => exact hne (by simpa [hkey.2] using ho)
      | _ => simp [Piece.Kind.isGap] at hgap

theorem Lexed.kind_of_slash {t : Token} (h : t.Lexed) (ht : t.text = "/") : t.kind = .op := by
  obtain ⟨p, hp, hkey⟩ := h
  have htext : p.text = ['/'] := by rw [← toList_of_key hkey, ht]; rfl
  have hhead : p.text.head? = some '/' := by simp [htext]
  obtain ⟨o, -, rfl⟩ := hp.operator_of_head hhead (by decide)
  simp only at htext
  have hkind := congrArg Prod.fst hkey
  simpa [key, Piece.key, Piece.tokenKind, htext] using hkind

end Token

namespace Layout

open Piece (operators)

def balanced : Nat → List Token → Bool
  | _, [] => true
  | depth, t :: rest =>
      if t.isCloser then 0 < depth && balanced (depth - 1) rest
      else balanced (if t.isOpener then depth + 1 else depth) rest

theorem balanced_nested {free : Bool} {ts : List Token} (h : Grammar.Nested free ts) (depth : Nat)
    (us : List Token) : balanced depth (ts ++ us) = balanced depth us := by
  induction h generalizing depth us with
  | nil => rfl
  | plain ho hc he hs h ih => simp [balanced, ho, hc, ih]
  | group ho hc hm hi hr ihi ihr =>
      simp [balanced, ho, hc, Token.isCloser_of_isOpener ho, ihi, ihr]

theorem balanced_of_decl {kind : Declaration.Kind} {ts : List Token} (h : Grammar.Decl kind ts) :
    balanced 0 ts = true := by
  cases h with
  | @mk k ts hk hn hh =>
      have hkind := (Grammar.kind_of_isKeyword hk).1
      have hbody : balanced 0 (ts ++ []) = true := balanced_nested hn 0 []
      simpa [balanced, Token.isCloser, Token.isOpener, hkind] using hbody

theorem kind_of_isDropped {t : Token} {following : Option Token} (h : isDropped t following = true) :
    t.kind = .semicolon := by
  simp only [isDropped, Bool.and_eq_true, beq_iff_eq] at h
  exact h.1

theorem isAuto_of_mem_dropSemicolons {ts : List Token} {t : Token} (h : t ∈ dropSemicolons ts) :
    t ∈ ts ∧ t.isAuto = false := by
  induction ts with
  | nil => simp [dropSemicolons] at h
  | cons u rest ih =>
      rw [dropSemicolons] at h
      split at h
      · exact ⟨List.mem_cons_of_mem _ (ih h).1, (ih h).2⟩
      · rename_i hkept
        rcases List.mem_cons.1 h with rfl | h
        · refine ⟨List.mem_cons_self, Bool.eq_false_iff.2 fun hauto => hkept ?_⟩
          simp [isDropped, hauto, Token.kind_of_isAuto hauto]
        · exact ⟨List.mem_cons_of_mem _ (ih h).1, (ih h).2⟩

theorem lexed_of_mem_dropSemicolons {source : String} {ts : List Token}
    (hts : Token.ofSource source = .ok ts) {us : List Token} (hsub : us ⊆ ts)
    (heof : ∀ u ∈ us, u.kind ≠ .eof) : ∀ t ∈ dropSemicolons us, t.Lexed := by
  intro t ht
  obtain ⟨hmem, hauto⟩ := isAuto_of_mem_dropSemicolons ht
  refine Token.lexed_of_mem_written hts ?_
  simp [Token.written, hsub hmem, hauto, heof t hmem]

theorem balanced_dropSemicolons (depth : Nat) (ts : List Token) :
    balanced depth (dropSemicolons ts) = balanced depth ts := by
  induction ts generalizing depth with
  | nil => rfl
  | cons t rest ih =>
      rw [dropSemicolons]
      split
      · rename_i hd
        have hkind := kind_of_isDropped hd
        rw [ih]
        simp [balanced, Token.isCloser, Token.isOpener, hkind]
      · simp [balanced, ih]

theorem gaps_of_balanced {ctx : Context} {ts : List Token}
    (h : balanced ctx.stack.length ts = true) : ∃ placed, gaps ctx ts = .ok placed := by
  induction ts generalizing ctx with
  | nil => exact ⟨[], rfl⟩
  | cons t rest ih =>
      obtain ⟨ctx', hclose, hrest⟩ : ∃ ctx', close ctx t = .ok ctx' ∧
          balanced (if t.isOpener then ctx'.stack.length + 1 else ctx'.stack.length) rest = true := by
        simp only [balanced] at h
        split at h
        · rename_i hc
          have ho := Token.isOpener_of_isCloser hc
          cases hs : ctx.stack with
          | nil => simp [hs] at h
          | cons b below =>
              refine ⟨_, by simp only [close, hc, hs, if_true]; rfl, ?_⟩
              simpa [ho, hs] using h
        · rename_i hc
          exact ⟨ctx, by simp [close, hc], h⟩
      have hstack : (after ctx' t (role ctx' t rest.head?)
          (gap ctx' t (role ctx' t rest.head?) rest)).stack.length =
            if t.isOpener then ctx'.stack.length + 1 else ctx'.stack.length := by
        simp only [after]
        split <;> rfl
      obtain ⟨more, hmore⟩ := ih (hstack ▸ hrest)
      exact ⟨_, by simp only [gaps, hclose, hmore]; rfl⟩

theorem gaps_cons_eq_ok {ctx : Context} {t : Token} {ts : List Token} {placed : List (Gap × Token)}
    (h : gaps ctx (t :: ts) = .ok placed) : ∃ ctx' more, close ctx t = .ok ctx' ∧
      gaps (after ctx' t (role ctx' t ts.head?) (gap ctx' t (role ctx' t ts.head?) ts)) ts = .ok more ∧
        placed = (gap ctx' t (role ctx' t ts.head?) ts, t) :: more := by
  rw [gaps] at h
  split at h
  · simp at h
  · rename_i ctx' hclose
    simp only at h
    split at h
    · simp at h
    · rename_i more hmore
      exact ⟨ctx', more, hclose, hmore, by simpa using h.symm⟩

theorem gaps_tokens {ctx : Context} {ts : List Token} {placed : List (Gap × Token)}
    (h : gaps ctx ts = .ok placed) : placed.map Prod.snd = ts := by
  induction ts generalizing ctx placed with
  | nil =>
      cases h
      rfl
  | cons t ts ih =>
      obtain ⟨ctx', more, -, hmore, rfl⟩ := gaps_cons_eq_ok h
      simp [ih hmore]

theorem close_prev {ctx ctx' : Context} {t : Token} (h : close ctx t = .ok ctx') :
    ctx'.prev = ctx.prev ∧ ctx'.prevRole = ctx.prevRole := by
  unfold close at h
  split at h
  · split at h
    · simp at h
    · cases h
      exact ⟨rfl, rfl⟩
  · cases h
    exact ⟨rfl, rfl⟩

theorem gaps_head {ts : List Token} {g : Gap} {t : Token} {rest : List (Gap × Token)}
    (h : gaps {} ts = .ok ((g, t) :: rest)) : g = .none := by
  cases ts with
  | nil => simp [gaps] at h
  | cons u ts =>
      obtain ⟨ctx', more, hclose, -, heq⟩ := gaps_cons_eq_ok h
      cases heq
      simp [gap, (close_prev hclose).1]

structure Context.Settled (ctx : Context) (prev : Token) : Prop where
  prev_eq : ctx.prev = some prev
  operand : prev.kind ≠ .op → ctx.prevRole = none
  operator : prev.kind = .op → prev.text ∈ binaryOps → ctx.prevRole = some .binary

theorem settled_after (ctx : Context) (t : Token) (following : Option Token) (g : Gap) :
    (after ctx t (role ctx t following) g).Settled t := by
  refine ⟨rfl, fun hk => ?_, fun hk hop => ?_⟩
  · simp [after, role, hk]
  · simp [after, role, hk, hop]

theorem Context.Settled.close {ctx ctx' : Context} {prev t : Token} (h : ctx.Settled prev)
    (hclose : close ctx t = .ok ctx') : ctx'.Settled prev := by
  obtain ⟨hprev, hrole⟩ := close_prev hclose
  exact ⟨by rw [hprev, h.prev_eq], fun hk => by rw [hrole, h.operand hk],
    fun hk hop => by rw [hrole, h.operator hk hop]⟩

theorem needsSpace_operands {ctx : Context} {prev t : Token} {rest : List Token}
    (hrole : ctx.prevRole = none) (hkey : prev.kind ≠ .keyword) (hprev : prev.text ∉ operators)
    (ht : t.text ∉ operators) : needsSpace ctx prev t none rest = true := by
  simp only [operators, List.mem_cons, not_or] at hprev ht
  simp [needsSpace, braceOpen, braceClose, Token.isKeyword, hrole, hkey, hprev, ht]

theorem needsSpace_slash {ctx : Context} {prev t : Token} {r : Option Role} {rest : List Token}
    (hrole : ctx.prevRole = some .binary) (hkind : prev.kind = .op) (hprev : prev.text = "/")
    (ht : t.text ∈ ["/", "/=", "*", "*="]) : needsSpace ctx prev t r rest = true := by
  simp only [List.mem_cons, List.not_mem_nil, or_false] at ht
  rcases ht with ht | ht | ht | ht <;>
    simp [needsSpace, braceOpen, braceClose, Token.isKeyword, hrole, hkind, hprev, ht]

structure Flush (t u : Token) : Prop where
  operand : t.kind ≠ .keyword → t.text ∉ operators → u.text ∈ operators
  slash : t.text = "/" → u.text ∉ ["/", "/=", "*", "*="]

theorem flush_of_gap {ctx : Context} {t u : Token} {following : Option Token} {rest : List Token}
    (hctx : ctx.Settled t) (ht : t.Lexed) (hu : u.Lexed)
    (h : gap ctx u (role ctx u following) rest = .none) : Flush t u := by
  have hspace : needsSpace ctx t u (role ctx u following) rest = false := by
    simp only [gap, hctx.prev_eq] at h
    split at h
    · simp at h
    · split at h
      · simp at h
      · rename_i hno
        simpa using hno
  constructor
  · intro hkey htext
    by_contra hutext
    have hrole : role ctx u following = none := by simp [role, hu.kind_ne_op hutext]
    have hyes : needsSpace ctx t u none rest = true :=
      needsSpace_operands (hctx.operand (ht.kind_ne_op htext)) hkey htext hutext
    simp [← hrole, hspace] at hyes
  · intro htext hmem
    have hkind := ht.kind_of_slash htext
    have hrole := hctx.operator hkind (by simp [htext, binaryOps])
    have hyes : needsSpace ctx t u (role ctx u following) rest = true :=
      needsSpace_slash hrole hkind htext hmem
    simp [hspace] at hyes

theorem flush_of_gaps {ctx : Context} {ts : List Token} {placed : List (Gap × Token)}
    (h : gaps ctx ts = .ok placed) (hts : ∀ t ∈ ts, t.Lexed) :
    placed.IsChain fun a b => b.1 = .none → Flush a.2 b.2 := by
  induction ts generalizing ctx placed with
  | nil =>
      cases h
      exact .nil
  | cons t ts ih =>
      obtain ⟨ctx', more, -, hmore, rfl⟩ := gaps_cons_eq_ok h
      obtain ⟨ht, hts⟩ := List.forall_mem_cons.1 hts
      have hchain := ih hmore hts
      cases ts with
      | nil =>
          cases hmore
          exact .singleton _
      | cons u us =>
          obtain ⟨ctx'', more', hclose, -, rfl⟩ := gaps_cons_eq_ok hmore
          have hctx := (settled_after ctx' t (List.head? (u :: us)) _).close hclose
          refine .cons_cons (fun hgap => ?_) hchain
          exact flush_of_gap hctx ht (hts u List.mem_cons_self) hgap

end Layout

end Gosmith.Go
