import Gosmith.Proofs.Template.Lexing
import Gosmith.Template.Parser

namespace Gosmith.Template.Parser

namespace Input

def left (i : Input) : Nat :=
  i.rest.length + if i.current.kind = .finish then 0 else 1

def Sound (i : Input) : Prop :=
  ∀ f ∈ i.fault, f.what ≠ .tooDeep

theorem sound_of_next {i j : Input} (h : i.next = .ok j) (hi : i.Sound) : j.Sound := by
  unfold next at h
  split at h <;> cases h <;> exact hi

theorem ne_tooDeep_of_next {i : Input} {f : Located Fault} (h : i.next = .error f)
    (hi : i.Sound) : f.what ≠ .tooDeep := by
  unfold next at h
  split at h <;> cases h
  next hf => exact hi f hf

theorem left_of_next_of_ne {i j : Input} (h : i.next = .ok j) (hk : i.current.kind ≠ .finish) :
    j.left + 1 ≤ i.left := by
  unfold next at h
  split at h
  next hfinish => exact absurd hfinish hk
  next t ts hrest _ =>
    cases h
    have hlast : (if t.kind = .finish then 0 else 1) ≤ 1 := by split <;> simp
    simp only [left, hrest, hk, if_false, List.length_cons]
    omega
  next => simp at h
  next =>
    cases h
    simp [left, hk]

theorem left_of_next {i j : Input} (h : i.next = .ok j) : j.left ≤ i.left := by
  by_cases hk : i.current.kind = .finish
  · obtain rfl : i = j := by simpa [next, hk] using h
    exact Nat.le_refl _
  · exact Nat.le_of_succ_le (left_of_next_of_ne h hk)

end Input

section Rules

variable {α β : Type} {t : Token} {m n : Nat}

def Input.Leaves (i : Input) (k : α → Nat) : Except (Located Fault) (α × Input) → Prop
  | .error e => e.what ≠ .tooDeep
  | .ok (a, j) => j.Sound ∧ j.left + k a ≤ i.left

/-- Started at `t` with fewer than `m` tokens left, `p` never fails for depth, and it takes at
least `k a` of them where it returns `a`. -/
def TakesAt (t : Token) (m : Nat) (p : P α) (k : α → Nat) : Prop :=
  ∀ i : Input, i.current = t → i.Sound → i.left < m → i.Leaves k (p.run i)

def Takes (m : Nat) (p : P α) (k : α → Nat) : Prop :=
  ∀ t, TakesAt t m p k

theorem TakesAt.mono {m' : Nat} {p : P α} {k k' : α → Nat} (h : TakesAt t m p k) (hm : m' ≤ m)
    (hk : ∀ a, k' a ≤ k a) : TakesAt t m' p k' := by
  intro i ht hi hleft
  have hrun := h i ht hi (by omega)
  cases hr : p.run i with
  | error e => rwa [hr] at hrun
  | ok r =>
      rw [hr] at hrun
      exact ⟨hrun.1, Nat.le_trans (Nat.add_le_add_left (hk r.1) _) hrun.2⟩

theorem Takes.mono {m' : Nat} {p : P α} {k k' : α → Nat} (h : Takes m p k) (hm : m' ≤ m)
    (hk : ∀ a, k' a ≤ k a) : Takes m' p k' :=
  fun t => (h t).mono hm hk

theorem TakesAt.fewer {m' : Nat} {p : P α} {k : α → Nat} (h : TakesAt t m p k) (hm : m' ≤ m) :
    TakesAt t m' p k :=
  h.mono hm fun _ => Nat.le_refl _

theorem Takes.fewer {m' : Nat} {p : P α} {k : α → Nat} (h : Takes m p k) (hm : m' ≤ m) :
    Takes m' p k :=
  fun t => (h t).fewer hm

theorem takes_zero (p : P α) (k : α → Nat) : Takes 0 p k :=
  fun _ _ _ _ h => absurd h (Nat.not_lt_zero _)

theorem takesAt_pure {a : α} {k : α → Nat} (h : k a = 0) : TakesAt t m (pure a) k :=
  fun i _ hi _ => ⟨hi, by rw [h, Nat.add_zero]⟩

theorem takes_pure {a : α} {k : α → Nat} (h : k a = 0) : Takes m (pure a) k :=
  fun _ => takesAt_pure h

theorem takesAt_fail {f : Fault} {line : Nat} {k : α → Nat} (h : f ≠ .tooDeep) :
    TakesAt t m (fail f line) k :=
  fun _ _ _ _ => h

theorem TakesAt.bind {p : P α} {f : α → P β} {s : α → Nat} {k : β → Nat} (hp : TakesAt t m p s)
    (hf : ∀ a, Takes (m - s a) (f a) fun b => k b - s a) : TakesAt t m (p >>= f) k := by
  intro i ht hi hleft
  have hfirst := hp i ht hi hleft
  rw [StateT.run_bind]
  cases hr : p.run i with
  | error e => rwa [hr] at hfirst
  | ok r =>
      rw [hr] at hfirst
      obtain ⟨hsound, htaken⟩ := hfirst
      have hsecond := hf r.1 r.2.current r.2 rfl hsound (by omega)
      change i.Leaves k ((f r.1).run r.2)
      cases hr' : (f r.1).run r.2 with
      | error e => rwa [hr'] at hsecond
      | ok r' =>
          rw [hr'] at hsecond
          obtain ⟨hsound', htaken'⟩ := hsecond
          refine ⟨hsound', ?_⟩
          dsimp only at htaken'
          omega

theorem Takes.bind {p : P α} {f : α → P β} {s : α → Nat} {k : β → Nat} (hp : Takes m p s)
    (hf : ∀ a, Takes (m - s a) (f a) fun b => k b - s a) : Takes m (p >>= f) k :=
  fun t => (hp t).bind hf

theorem takesAt_current {f : Token → P β} {k : β → Nat} (h : TakesAt t m (f t) k) :
    TakesAt t m (current >>= f) k := by
  rintro i rfl hi hleft
  exact h i rfl hi hleft

theorem takes_current {f : Token → P β} {k : β → Nat} (h : ∀ t, TakesAt t m (f t) k) :
    Takes m (current >>= f) k :=
  fun t => takesAt_current (h t)

theorem takesAt_guard {c : Prop} [Decidable c] {p : P α} {q : P β} {s : α → Nat} {k : β → Nat}
    (hp : Takes m p s) (hq : Takes m q k) :
    TakesAt t m (if c then p >>= fun _ => q else q) k := by
  split
  · exact (hp t).bind fun a => hq.mono (Nat.sub_le m _) fun b => Nat.sub_le (k b) _
  · exact hq t

theorem takesAt_refuse {c : Prop} [Decidable c] {f : Fault} {line : Nat} {q : P β} {k : β → Nat}
    (h : f ≠ .tooDeep) (hq : Takes m q k) :
    TakesAt t m (if c then (fail f line : P Unit) >>= fun _ => q else q) k :=
  takesAt_guard (s := fun _ => 0) (fun _ => takesAt_fail h) hq

theorem takesAt_isAt {kind : Token.Kind} {f : Bool → P β} {k : β → Nat}
    (h : TakesAt t m (f (t.kind == kind)) k) : TakesAt t m (isAt kind >>= f) k := by
  rintro i rfl hi hleft
  exact h i rfl hi hleft

theorem run_advance (i : Input) :
    advance.run i = i.next.map fun j => (i.current, j) := by
  cases hn : i.next with
  | error f =>
      simp only [advance, StateT.run_bind, StateT.run_get, pure_bind, hn]
      rfl
  | ok j =>
      simp only [advance, StateT.run_bind, StateT.run_get, pure_bind, hn]
      rfl

theorem run_ahead (i : Input) :
    ahead.run i = i.next.map fun j => (j.current.kind, i) := by
  cases hn : i.next with
  | error f =>
      simp only [ahead, StateT.run_bind, StateT.run_get, pure_bind, hn]
      rfl
  | ok j =>
      simp only [ahead, StateT.run_bind, StateT.run_get, pure_bind, hn]
      rfl

theorem takes_advance : Takes m advance fun _ => 0 := by
  intro t i _ hi _
  rw [run_advance]
  cases hn : i.next with
  | error f => exact Input.ne_tooDeep_of_next hn hi
  | ok j => exact ⟨Input.sound_of_next hn hi, Input.left_of_next hn⟩

theorem takesAt_advance (ht : t.kind ≠ .finish) : TakesAt t m advance fun _ => 1 := by
  rintro i rfl hi _
  rw [run_advance]
  cases hn : i.next with
  | error f => exact Input.ne_tooDeep_of_next hn hi
  | ok j => exact ⟨Input.sound_of_next hn hi, Input.left_of_next_of_ne hn ht⟩

theorem takesAt_ahead {f : Token.Kind → P β} {k : β → Nat} (h : ∀ kind, TakesAt t m (f kind) k) :
    TakesAt t m (ahead >>= f) k := by
  intro i ht hi hleft
  rw [StateT.run_bind, run_ahead]
  cases hn : i.next with
  | error e => exact Input.ne_tooDeep_of_next hn hi
  | ok j => exact h j.current.kind i ht hi hleft

theorem takesAt_skipIf {kind : Token.Kind} (hkind : kind ≠ .finish) :
    TakesAt t m (skipIf kind) Bool.toNat := by
  refine takesAt_isAt ?_
  split
  next h =>
    rw [beq_iff_eq] at h
    exact (takesAt_advance (h ▸ hkind)).bind fun _ => takes_pure rfl
  next => exact takesAt_pure rfl

theorem takes_expect {kind : Token.Kind} (hkind : kind ≠ .finish) :
    Takes m (expect kind) fun _ => 1 := by
  refine takes_current fun t => ?_
  split
  next h => exact takesAt_advance (h ▸ hkind)
  next => exact takesAt_fail (by simp)

theorem takes_expectName : Takes m expectName fun _ => 1 := by
  refine takes_current fun t => ?_
  split
  next h =>
    exact (takesAt_advance (by simp [h])).bind fun _ => takes_pure rfl
  next => exact takesAt_fail (by simp)

-- By induction on the rounds: the tokens left and `live` of the state together get fewer with
-- each, so a state that is no longer live may be reached without taking a token.
theorem takes_chain {step : α → P (Option α)} (live : α → Nat)
    (hstep : ∀ a, Takes m (step a) fun o => o.elim 0 fun b => live b + 1 - live a) {a : α}
    (hn : m + live a ≤ n) : Takes m (chain step n a) fun _ => 0 := by
  induction n generalizing m a with
  | zero =>
      obtain rfl : m = 0 := by omega
      exact takes_zero _ _
  | succ n ih =>
      refine (hstep a).bind fun o => ?_
      cases o with
      | none => exact takes_pure rfl
      | some b =>
          change Takes (m - (live b + 1 - live a)) (chain step n b) _
          rcases Nat.eq_zero_or_pos (m - (live b + 1 - live a)) with hm | hm
          · rw [hm]
            exact takes_zero _ _
          · have hrest := ih (fun a' => (hstep a').fewer (Nat.sub_le _ (live b + 1 - live a)))
              (show m - (live b + 1 - live a) + live b ≤ n by omega)
            exact hrest.mono (Nat.le_refl _) fun _ => Nat.sub_le 0 _

theorem takes_loop {step : α → P (Option α)}
    (hstep : ∀ a, Takes m (step a) fun o => o.isSome.toNat) (hn : m ≤ n) (a : α) :
    Takes m (chain step n a) fun _ => 0 := by
  refine takes_chain (fun _ => 0) (fun a => (hstep a).mono (Nat.le_refl m) ?_) hn
  rintro (_ | b) <;> simp

end Rules

section Functions

variable {sub : P LExpr} {m n : Nat}

theorem takes_items {α : Type} {close : String} {item : P α} (hitem : Takes m item fun _ => 1)
    (hn : m ≤ n) : Takes m (items n close item) fun _ => 0 := by
  refine takes_loop (fun acc t => takesAt_isAt ?_) hn []
  split
  · exact takesAt_pure rfl
  · refine takesAt_guard (takes_expect (by simp)) fun t => takesAt_isAt ?_
    split
    · exact takesAt_pure rfl
    · exact (hitem t).bind fun _ => takes_pure rfl

theorem takes_tupleExpr {item : P LExpr} (hitem : Takes m item fun _ => 1) (hn : m < n)
    (bracketed : Bool) (stop : Option String) :
    Takes m (tupleExpr n item bracketed stop) fun _ => 0 := by
  refine takes_current fun start => ?_
  refine (takes_chain (fun s => if s.ended then 0 else 1) (fun s => ?_) ?_ start).bind fun s => ?_
  · intro t
    split
    · exact takesAt_pure rfl
    next hs =>
      refine takesAt_guard (takes_expect (by simp)) (takes_current fun t => ?_)
      split
      · exact takesAt_pure (by simp)
      · refine (hitem t).bind fun e => takes_current fun t => ?_
        split <;> exact takesAt_pure (by simp [hs])
  · exact hn
  · split
    · exact takes_pure rfl
    · split
      · exact takes_pure rfl
      · split
        · exact takes_pure rfl
        · exact takes_current fun t => takesAt_fail (by simp)

theorem takes_leftChain {operand : P LExpr} {op? : Token.Kind → Option (Expr → Expr → Expr)}
    (hoperand : Takes m operand fun _ => 1) (hop : op? .finish = none) (hn : m ≤ n) :
    Takes m (leftChain n operand op?) fun _ => 1 := by
  refine takes_current fun start => (hoperand start).bind fun first => ?_
  refine (takes_loop (fun s => takes_current fun t => ?_) (by omega) _).bind fun _ => takes_pure rfl
  split
  · exact takesAt_pure rfl
  next build h =>
    have ht : t.kind ≠ .finish := fun hk => by simp [hk, hop] at h
    refine (takesAt_advance ht).bind fun _ => (hoperand.fewer (by omega)).bind fun _ => ?_
    exact takes_current fun _ => takesAt_pure rfl

section

variable (hsub : Takes m sub fun _ => 1) (hn : m < n)

include hsub hn

theorem takes_listExpr : Takes (m + 1) (listExpr sub n) fun _ => 1 := by
  refine (takes_expect (by simp)).bind fun _ => ?_
  refine (takes_items hsub (Nat.le_of_lt hn)).bind fun _ => ?_
  exact (takes_expect (by simp)).bind fun _ => takes_pure rfl

theorem takes_dictExpr : Takes (m + 1) (dictExpr sub n) fun _ => 1 := by
  have hentry : Takes m (dictEntry sub) fun _ => 1 := by
    refine hsub.bind fun _ => (takes_expect (by simp)).bind fun _ => ?_
    exact (hsub.fewer (by omega)).bind fun _ => takes_pure rfl
  refine (takes_expect (by simp)).bind fun _ => ?_
  refine (takes_items hentry (Nat.le_of_lt hn)).bind fun _ => ?_
  exact (takes_expect (by simp)).bind fun _ => takes_pure rfl

theorem takes_primary (slots : Bool) : Takes (m + 1) (primary sub n slots) fun _ => 1 := by
  refine takes_current fun t => ?_
  split
  next name h =>
    refine (takesAt_advance (by simp [h])).bind fun _ => ?_
    split
    all_goals try exact takes_pure rfl
    split
    · intro t
      refine (takesAt_skipIf (by simp)).bind fun dot => ?_
      split
      · exact takes_expectName.bind fun _ => takes_pure (by simp)
      · exact takes_pure (by simp)
    · exact takes_pure rfl
  next h =>
    refine (takesAt_advance (by simp [h])).bind fun _ => ?_
    refine (takes_loop (fun acc => takes_current fun t => ?_) (by omega) _).bind fun _ =>
      takes_pure rfl
    split
    next h => exact (takesAt_advance (by simp [h])).bind fun _ => takes_pure rfl
    next => exact takesAt_pure rfl
  next h => exact (takesAt_advance (by simp [h])).bind fun _ => takes_pure rfl
  next h => exact (takesAt_advance (by simp [h])).bind fun _ => takes_pure rfl
  next h =>
    refine (takesAt_advance (by simp [h])).bind fun _ => ?_
    refine (takes_tupleExpr hsub hn true none).bind fun _ => ?_
    exact (takes_expect (by simp)).bind fun _ => takes_pure rfl
  next => exact takes_listExpr hsub hn t
  next => exact takes_dictExpr hsub hn t
  next => exact takesAt_fail (by simp)

omit hn in
theorem takes_positional (a : Arguments) (line : Nat) :
    Takes m (positional sub a line) fun _ => 1 := by
  refine fun t => takesAt_refuse (by simp) ?_
  exact hsub.bind fun _ => takes_pure rfl

omit hn in
theorem takes_argument (a : Arguments) (line : Nat) : Takes m (argument sub a line) fun _ => 1 := by
  refine takes_current fun t => ?_
  split
  next h =>
    refine takesAt_ahead fun kind => ?_
    split
    · refine (takesAt_advance (by simp [h])).bind fun _ => takes_advance.bind fun _ => ?_
      exact (hsub.fewer (by omega)).bind fun _ => takes_pure rfl
    · exact takes_positional hsub a line t
  next => exact takes_positional hsub a line t

theorem takes_arguments : Takes (m + 1) (arguments sub n) fun _ => 1 := by
  refine (takes_expect (by simp)).bind fun open_ => ?_
  refine (takes_loop (fun s t => takesAt_isAt ?_) (by omega) _).bind fun _ => ?_
  · have hlast {m' : Nat} (hm : m' ≤ m) : Takes m' (argument sub s.1 open_.line >>= fun a =>
        pure (some (a, true))) fun o => o.isSome.toNat :=
      ((takes_argument hsub s.1 open_.line).fewer hm).bind fun _ => takes_pure rfl
    split
    · exact takesAt_pure rfl
    · dsimp only
      split
      · refine (takes_expect (by simp) t).bind fun _ t => takesAt_isAt ?_
        split
        · exact takesAt_pure rfl
        · exact (hlast (by omega)).mono (Nat.le_refl _) (by simp) t
      · exact hlast (by omega) t
  · exact (takes_expect (by simp)).bind fun _ => takes_pure rfl

omit hn in
theorem takes_rangePart : Takes m (rangePart sub) fun _ => 0 := by
  refine takes_current fun t => ?_
  dsimp only
  split
  · exact takesAt_pure rfl
  · exact (hsub t).bind fun _ => takes_pure rfl

omit hn in
theorem takes_rangeFrom (lo : Expr) : Takes m (rangeFrom sub lo) fun _ => 0 := by
  refine (takes_rangePart hsub).bind fun _ t => (takesAt_skipIf (by simp)).bind fun more => ?_
  split
  · exact ((takes_rangePart hsub).fewer (by omega)).bind fun _ => takes_pure (by simp)
  · exact takes_pure (by simp)

omit hn in
theorem takes_subscript : Takes m (subscript sub) fun _ => 1 := by
  have hrange (lo : Expr) := takes_rangeFrom hsub lo
  refine fun t => (takesAt_skipIf (by simp)).bind fun fromStart => ?_
  split
  next h =>
    subst h
    exact (hrange _).fewer (by omega)
  next =>
    refine (hsub.fewer (by omega)).bind fun e t => (takesAt_skipIf (by simp)).bind fun more => ?_
    split
    · exact (hrange e.what).mono (by omega) (by simp)
    · exact takes_pure (by simp)

theorem takes_subscripts : Takes m (subscripts sub n) fun _ => 0 := by
  refine takes_loop (fun acc t => takesAt_isAt ?_) (Nat.le_of_lt hn) []
  split
  · exact takesAt_pure rfl
  · refine takesAt_guard (takes_expect (by simp)) ?_
    exact (takes_subscript hsub).bind fun _ => takes_pure rfl

theorem takes_postfixStep (e : LExpr) :
    Takes (m + 1) (postfixStep sub n e) fun o => o.isSome.toNat := by
  refine takes_current fun t => ?_
  split
  next h =>
    refine (takesAt_advance (by simp [h])).bind fun _ => takes_advance.bind fun name => ?_
    split
    · exact takes_pure rfl
    · exact takes_pure rfl
    · exact fun _ => takesAt_fail (by simp)
  next h =>
    refine (takesAt_advance (by simp [h])).bind fun _ => ?_
    refine (takes_subscripts hsub hn).bind fun subs => (takes_expect (by simp)).bind fun _ => ?_
    split <;> exact takes_pure rfl
  next => exact (takes_arguments hsub hn t).bind fun _ => takes_pure rfl
  next => exact takesAt_pure rfl

theorem takes_withPostfix (e : LExpr) : Takes (m + 1) (withPostfix sub n e) fun _ => 0 :=
  takes_loop (takes_postfixStep hsub hn) hn e

omit hsub hn in
theorem takes_dottedName (hn : m ≤ n) : Takes m (dottedName n) fun _ => 1 := by
  refine takes_expectName.bind fun name => ?_
  refine (takes_loop (fun acc t => ?_) (by omega) _).bind fun _ => takes_pure rfl
  refine (takesAt_skipIf (by simp)).bind fun dot => ?_
  split
  · exact takes_expectName.bind fun _ => takes_pure (by simp)
  · exact takes_pure (by simp)

theorem takes_filterExpr (e : Expr) : Takes (m + 1) (filterExpr sub n e) fun _ => 1 := by
  refine (takes_expect (by simp)).bind fun _ => ?_
  refine (takes_dottedName (by omega)).bind fun name t => ?_
  refine takesAt_isAt ?_
  dsimp only
  split
  · exact ((takes_arguments hsub hn t).fewer (by omega)).bind fun _ => takes_pure rfl
  · exact takesAt_pure rfl

theorem takes_testArguments : Takes (m + 1) (testArguments sub n) fun _ => 0 := by
  refine takes_current fun t => ?_
  split
  · exact (takes_arguments hsub hn t).mono (Nat.le_refl _) (by simp)
  · split
    · refine takesAt_refuse (by simp) ?_
      refine (takes_primary hsub hn false).bind fun e => ?_
      exact ((takes_withPostfix hsub hn e).fewer (by omega)).bind fun _ => takes_pure rfl
    · exact takesAt_pure rfl

theorem takes_testExpr {t : Token} (ht : t.kind ≠ .finish) (e : Expr) :
    TakesAt t (m + 1) (testExpr sub n e) fun _ => 1 := by
  refine (takesAt_advance ht).bind fun _ t => (takesAt_skipIf (by simp)).bind fun negated => ?_
  refine (takes_dottedName (by omega)).bind fun name => ?_
  exact ((takes_testArguments hsub hn).fewer (by omega)).bind fun _ => takes_pure (by simp)

theorem takes_filterStep (e : LExpr) :
    Takes (m + 1) (filterStep sub n e) fun o => o.isSome.toNat := by
  refine takes_current fun t => ?_
  split
  next => exact (takes_filterExpr hsub hn e.what t).bind fun _ => takes_pure rfl
  next h => exact (takes_testExpr hsub hn (by simp [h]) e.what).bind fun _ => takes_pure rfl
  next => exact takes_postfixStep hsub hn e t
  next => exact takesAt_pure rfl

theorem takes_unaryExpr : Takes (m + 1) (unaryExpr sub n) fun _ => 1 := by
  refine (takes_loop (fun signs => takes_current fun t => ?_) hn []).bind fun signs => ?_
  · split
    next h => exact (takesAt_advance (by simp [h])).bind fun _ => takes_pure rfl
    next h => exact (takesAt_advance (by simp [h])).bind fun _ => takes_pure rfl
    next => exact takesAt_pure rfl
  · refine (takes_primary hsub hn false).bind fun e => ?_
    refine ((takes_withPostfix hsub hn e).fewer (by omega)).bind fun e => ?_
    exact (takes_loop (takes_filterStep hsub hn) hn _).fewer (by omega)

theorem takes_powerExpr : Takes (m + 1) (powerExpr sub n) fun _ => 1 :=
  takes_leftChain (takes_unaryExpr hsub hn) rfl hn

theorem takes_productExpr : Takes (m + 1) (productExpr sub n) fun _ => 1 :=
  takes_leftChain (takes_powerExpr hsub hn) rfl hn

theorem takes_concatExpr : Takes (m + 1) (concatExpr sub n) fun _ => 1 := by
  have hproduct := takes_productExpr hsub hn
  refine takes_current fun start => (hproduct start).bind fun first => ?_
  refine (takes_loop (fun parts t => ?_) (by omega) _).bind fun parts => ?_
  · refine (takesAt_skipIf (by simp)).bind fun more => ?_
    split
    · exact (hproduct.fewer (by omega)).bind fun _ => takes_pure (by simp)
    · exact takes_pure (by simp)
  · split <;> exact takes_pure rfl

theorem takes_sumExpr : Takes (m + 1) (sumExpr sub n) fun _ => 1 :=
  takes_leftChain (takes_concatExpr hsub hn) rfl hn

omit hsub hn in
theorem takes_takeCompareOp : Takes m takeCompareOp fun o => o.isSome.toNat := by
  refine takes_current fun t => ?_
  dsimp only
  split
  next h =>
    have ht : t.kind ≠ .finish := fun hk => by simp [hk, compareOp?] at h
    exact (takesAt_advance ht).bind fun _ => takes_pure rfl
  next =>
    split
    next h =>
      rw [beq_iff_eq] at h
      refine takesAt_ahead fun kind => ?_
      split
      · refine (takesAt_advance (by simp [h])).bind fun _ => ?_
        exact takes_advance.bind fun _ => takes_pure rfl
      · exact takesAt_pure rfl
    next => exact takesAt_pure rfl

theorem takes_compareExpr : Takes (m + 1) (compareExpr sub n) fun _ => 1 := by
  have hsum := takes_sumExpr hsub hn
  refine hsum.bind fun first => ?_
  refine (takes_loop (fun ops => takes_takeCompareOp.bind fun op => ?_) (by omega) _).bind
    fun ops => ?_
  · split
    · exact takes_pure rfl
    · exact (hsum.fewer (by omega)).bind fun _ => takes_pure rfl
  · split
    · exact takes_pure rfl
    · exact takes_current fun t => takesAt_pure rfl

theorem takes_notExpr : Takes (m + 1) (notExpr sub n) fun _ => 1 := by
  refine (takes_loop (fun lines => takes_current fun t => ?_) hn []).bind fun lines => ?_
  · refine (takesAt_skipIf (by simp)).bind fun more => ?_
    split <;> exact takes_pure (by simp_all)
  · exact (takes_compareExpr hsub hn).bind fun _ => takes_pure rfl

theorem takes_andExpr : Takes (m + 1) (andExpr sub n) fun _ => 1 :=
  takes_leftChain (takes_notExpr hsub hn) rfl hn

theorem takes_orExpr : Takes (m + 1) (orExpr sub n) fun _ => 1 :=
  takes_leftChain (takes_andExpr hsub hn) rfl hn

theorem takes_condExpr : Takes (m + 1) (condExpr sub n) fun _ => 1 := by
  have hor := takes_orExpr hsub hn
  refine takes_current fun start => (hor start).bind fun first => ?_
  refine (takes_loop (fun s t => ?_) (by omega) _).bind fun _ => takes_pure rfl
  refine (takesAt_skipIf (by simp)).bind fun more => ?_
  split
  · refine (hor.fewer (by omega)).bind fun test t => ?_
    refine (takesAt_skipIf (by simp)).bind fun otherwise => ?_
    simp only [bind_assoc, pure_bind]
    split
    · refine (hsub.fewer (by omega)).bind fun no => ?_
      exact takes_current fun _ => takesAt_pure (by simp_all)
    · exact takes_current fun _ => takesAt_pure (by simp_all)
  · exact takes_pure (by simp_all)

end

theorem takes_expr (hn : m < n) : Takes m (expr n) fun _ => 1 := by
  induction n generalizing m with
  | zero => omega
  | succ n ih =>
      cases m with
      | zero => exact takes_zero _ _
      | succ m => exact takes_condExpr (ih (by omega)) (by omega)

theorem takes_plainExpr (hn : m < n) : Takes m (plainExpr n) fun _ => 1 :=
  (takes_orExpr (takes_expr hn) hn).fewer (Nat.le_succ m)

theorem takes_assignTarget (hn : m < n) (slots : Bool) (stop : Option String) :
    Takes m (assignTarget n slots stop) fun _ => 0 := by
  have hprimary := (takes_primary (takes_expr hn) hn slots).fewer (Nat.le_succ m)
  refine (takes_tupleExpr hprimary hn false stop).bind fun e => ?_
  split
  · exact takes_pure rfl
  · exact fun _ => takesAt_fail (by simp)

theorem takes_endOfTag : Takes m endOfTag fun _ => 1 := by
  refine fun t => (takesAt_skipIf (by simp)).bind fun _ => ?_
  exact (takes_expect (by simp)).bind fun _ => takes_pure (by simp)

theorem takes_loopFilter (hn : m < n) : Takes m (loopFilter n) fun _ => 0 := by
  refine fun t => (takesAt_skipIf (by simp)).bind fun filtered => ?_
  split
  · exact ((takes_expr hn).fewer (by omega)).bind fun _ => takes_pure (by simp)
  · exact takes_pure (by simp)

theorem takes_captureFilter (hn : m < n) : Takes m (captureFilter n) fun _ => 0 := by
  have hfilter (e : Expr) := (takes_filterExpr (takes_expr hn) hn e).fewer (Nat.le_succ m)
  refine takes_loop (fun e t => takesAt_isAt ?_) (Nat.le_of_lt hn) none
  split
  · exact (hfilter _ t).bind fun _ => takes_pure rfl
  · exact takesAt_pure rfl

section

variable {body : List OpenBlock → P (List Node)}
  (hbody : ∀ blocks, Takes m (body blocks) fun _ => 0) (hn : m < n)

include hbody

theorem takes_section_ (blocks : List OpenBlock) (tag : String) (closers : List String) :
    Takes m (section_ body blocks tag closers) fun _ => 1 := by
  refine takes_endOfTag.bind fun _ => ((hbody _).fewer (by omega)).bind fun nodes => ?_
  exact takes_current fun t => takesAt_refuse (by simp) (takes_pure rfl)

theorem takes_lastSection (blocks : List OpenBlock) (tag closer : String) :
    Takes m (lastSection body blocks tag closer) fun _ => 1 := by
  refine (takes_section_ hbody blocks tag [closer]).bind fun nodes => ?_
  exact takes_advance.bind fun _ => takes_pure rfl

theorem takes_loopSections (blocks : List OpenBlock) :
    Takes m (loopSections body blocks) fun _ => 1 := by
  refine (takes_section_ hbody blocks _ _).bind fun nodes => takes_advance.bind fun close => ?_
  split
  · exact takes_pure rfl
  · exact ((takes_lastSection hbody blocks _ _).fewer (by omega)).bind fun _ => takes_pure rfl

include hn

theorem takes_forStatement (blocks : List OpenBlock) :
    Takes m (forStatement body n blocks) fun _ => 1 := by
  refine (takes_expect (by simp)).bind fun tag => ?_
  refine ((takes_assignTarget hn false _).fewer (by omega)).bind fun target => ?_
  refine (takes_expect (by simp)).bind fun _ => ?_
  refine ((takes_tupleExpr (takes_plainExpr hn) hn false _).fewer (by omega)).bind fun items => ?_
  refine ((takes_loopFilter hn).fewer (by omega)).bind fun filter t => ?_
  refine (takesAt_skipIf (by simp)).bind fun _ => ?_
  exact ((takes_loopSections hbody blocks).fewer (by omega)).bind fun _ => takes_pure (by simp)

theorem takes_arm (blocks : List OpenBlock) (s : ArmState) :
    Takes m (arm body n blocks s) fun o => o.isSome.toNat := by
  unfold arm
  split
  · exact takes_pure rfl
  · refine (takes_tupleExpr (takes_plainExpr hn) hn false none).bind fun test => ?_
    refine (takes_section_ hbody blocks _ _).bind fun nodes => takes_advance.bind fun close => ?_
    split
    · exact takes_current fun t => takesAt_pure rfl
    · split
      · refine ((takes_lastSection hbody blocks _ _).fewer (by omega)).bind fun _ => takes_pure rfl
      · exact takes_pure rfl

theorem takes_ifStatement (blocks : List OpenBlock) :
    Takes m (ifStatement body n blocks) fun _ => 1 := by
  refine (takes_expect (by simp)).bind fun tag => ?_
  refine ((takes_loop (takes_arm hbody hn blocks) (Nat.le_of_lt hn) _).fewer (by omega)).bind
    fun _ => takes_pure rfl

theorem takes_setStatement {t : Token} (ht : t.kind ≠ .finish) (blocks : List OpenBlock) :
    TakesAt t m (setStatement body n blocks) fun _ => 1 := by
  refine (takesAt_advance ht).bind fun tag => ?_
  refine ((takes_assignTarget hn true none).fewer (by omega)).bind fun target t => ?_
  refine (takesAt_skipIf (by simp)).bind fun assigned => ?_
  split
  · refine ((takes_tupleExpr (takes_expr hn) hn false none).fewer (by omega)).bind fun _ => ?_
    exact takes_pure (by simp)
  · refine ((takes_captureFilter hn).fewer (by omega)).bind fun filter => ?_
    exact ((takes_lastSection hbody blocks _ _).fewer (by omega)).bind fun _ => takes_pure (by simp)

theorem takes_statement (blocks : List OpenBlock) :
    Takes m (statement body n blocks) fun _ => 1 := by
  refine takes_current fun t => ?_
  split
  next => exact (takes_forStatement hbody hn blocks t).bind fun _ => takes_pure rfl
  next => exact takes_ifStatement hbody hn blocks t
  next h => exact (takes_setStatement hbody hn (by simp [h]) blocks).bind fun _ => takes_pure rfl
  next => exact takesAt_fail (by simp)
  next => exact takesAt_fail (by simp)

theorem takes_bodyStep (blocks : List OpenBlock) (s : BodyState) :
    Takes (m + 1) (bodyStep body n blocks s) fun o => o.isSome.toNat := by
  unfold bodyStep
  split
  · exact takes_pure rfl
  · refine takes_current fun t => ?_
    split
    next => exact takesAt_pure rfl
    next h => exact (takesAt_advance (by simp [h])).bind fun _ => takes_pure rfl
    next h =>
      refine (takesAt_advance (by simp [h])).bind fun _ => ?_
      refine (takes_tupleExpr (takes_expr hn) hn false none).bind fun _ => ?_
      exact (takes_expect (by simp)).bind fun _ => takes_pure rfl
    next h _ _ =>
      refine (takesAt_advance h).bind fun _ => takes_current fun t => ?_
      split
      · exact takesAt_pure rfl
      · refine (takes_statement hbody hn blocks t).bind fun _ => ?_
        exact (takes_expect (by simp)).bind fun _ => takes_pure rfl

end

theorem takes_body (hn : m < n) (blocks : List OpenBlock) :
    Takes m (body n blocks) fun _ => 0 := by
  induction n generalizing m blocks with
  | zero => omega
  | succ n ih =>
      cases m with
      | zero => exact takes_zero _ _
      | succ m =>
          refine (takes_loop (takes_bodyStep (ih (by omega)) (by omega) blocks) ?_ _).bind
            fun _ => takes_pure rfl
          exact Nat.le_of_lt hn

end Functions

theorem body_ne_tooDeep {i : Input} {n : Nat} {f : Located Fault} (hi : i.Sound)
    (hn : i.left + 1 < n) (h : ((body n []).run i).map Prod.fst = .error f) :
    f.what ≠ .tooDeep := by
  cases hrun : (body n []).run i with
  | ok r => simp [hrun, Except.map] at h
  | error e =>
      obtain rfl : e = f := by simpa [hrun, Except.map] using h
      have hbody := takes_body hn [] i.current i rfl hi (Nat.lt_succ_self _)
      rwa [hrun] at hbody

end Parser

theorem parse_ne_tooDeep {opts : Options} {source : String} {f : Located Fault}
    (h : parse opts source = .error f) : f.what ≠ .tooDeep := by
  unfold parse at h
  dsimp only at h
  split at h
  next e hnext =>
    cases h
    exact Parser.Input.ne_tooDeep_of_next hnext fun f => tokens_ne_tooDeep
  next i hnext =>
    have hsound := Parser.Input.sound_of_next hnext fun f => tokens_ne_tooDeep
    have hleft := Parser.Input.left_of_next_of_ne hnext (by simp)
    have hstart : i.left ≤ (tokens opts source).1.length := by simpa [Parser.Input.left] using hleft
    exact Parser.body_ne_tooDeep hsound (by omega) h

end Gosmith.Template
