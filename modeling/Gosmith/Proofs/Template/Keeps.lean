import Gosmith.Template.Eval

namespace Gosmith.Template

open Gosmith.Imports Gosmith.Journal

namespace Run

def Keeps (I : Session → Prop) {α : Type} (m : Run α) : Prop :=
  ∀ s : State, I s.toSession → I (m s).2.toSession

variable {I : Session → Prop} {α β : Type}

theorem bind_apply (m : Run α) (k : α → Run β) (s : State) : (m >>= k) s =
    match m s with
    | (.ok a, s') => k a s'
    | (.error e, s') => (.error e, s') := by
  change (match m s with | (r, s') => ExceptT.bindCont k r s') = _
  rcases m s with ⟨r, s'⟩
  cases r <;> rfl

namespace Keeps

theorem pure (a : α) : Keeps I (Pure.pure a : Run α) :=
  fun _ hs => hs

theorem bind {m : Run α} {k : α → Run β} (hm : Keeps I m) (hk : ∀ a, Keeps I (k a)) :
    Keeps I (m >>= k) := by
  intro s hs
  have hs' := hm s hs
  rw [bind_apply]
  rcases hms : m s with ⟨r, s'⟩
  rw [hms] at hs'
  cases r with
  | ok a => exact hk a s' hs'
  | error e => exact hs'

theorem fail (f : Failure) : Keeps I (Run.fail f : Run α) :=
  fun _ hs => hs

theorem ofExcept (x : Except Failure α) : Keeps I (Run.ofExcept x) := by
  cases x with
  | ok a => exact pure a
  | error f => exact fail f

theorem get : Keeps I (MonadState.get : Run State) :=
  fun _ hs => hs

theorem get_bind {k : State → Run α} (hk : ∀ s : State, I s.toSession → I (k s s).2.toSession) :
    Keeps I (MonadState.get >>= k) :=
  fun s hs => hk s hs

theorem onLine {m : Run α} (hm : Keeps I m) (line : Nat) : Keeps I (Run.onLine line m) := by
  intro s hs
  have hs' := hm s hs
  unfold Run.onLine
  rcases hms : m s with ⟨r, s'⟩
  rw [hms] at hs'
  cases r <;> exact hs'

theorem ite {p : Prop} [Decidable p] {m k : Run α} (hm : Keeps I m) (hk : Keeps I k) :
    Keeps I (if p then m else k) := by
  split
  · exact hm
  · exact hk

theorem mapM {f : α → Run β} (hf : ∀ a, Keeps I (f a)) (l : List α) : Keeps I (l.mapM f) := by
  induction l with
  | nil => exact pure []
  | cons a l ih =>
      rw [List.mapM_cons]
      exact (hf a).bind fun b => ih.bind fun bs => pure (b :: bs)

theorem update {f : State → State} (hf : ∀ s, (f s).toSession = s.toSession) :
    Keeps I (modify f : Run PUnit) := by
  intro s hs
  have hkept : I (f s).toSession := by rw [hf s]; exact hs
  exact hkept

theorem found (v : Value) : Keeps I (Run.found v) := by
  cases v with
  | undefined u =>
      refine ite (get.bind fun s => ?_) (pure _)
      exact bind (update fun _ => rfl) fun _ => pure _
  | _ => exact pure _

end Keeps

end Run

namespace Loop

variable {I : Session → Prop} {passes : Value → Run Bool}

open Run Run.Keeps

theorem here_keeps (depth : Nat) : Keeps I (here depth) :=
  get.bind fun _ => Keeps.pure _

theorem put_keeps (depth : Nat) (c : Rounds) : Keeps I (put depth c) :=
  update fun _ => rfl

theorem begin_keeps (c : Rounds) : Keeps I (begin c) :=
  update fun _ => rfl

theorem finish_keeps : Keeps I finish :=
  update fun _ => rfl

theorem draw_keeps (hp : ∀ v, Keeps I (passes v)) (items : List Value) :
    Keeps I (draw passes items) := by
  induction items with
  | nil => exact Keeps.pure none
  | cons item rest ih => exact (hp item).bind fun b => ite (Keeps.pure _) ih

theorem drawAll_keeps (hp : ∀ v, Keeps I (passes v)) (items : List Value) :
    Keeps I (drawAll passes items) := by
  induction items with
  | nil => exact Keeps.pure []
  | cons item rest ih =>
      exact (hp item).bind fun b => ite (ih.bind fun more => Keeps.pure _) ih

theorem hasNext_keeps (hp : ∀ v, Keeps I (passes v)) (depth : Nat) :
    Keeps I (hasNext passes depth) := by
  refine (here_keeps depth).bind fun c => ite (Keeps.pure true) ?_
  refine (draw_keeps hp c.untested).bind fun drawn => ?_
  cases drawn with
  | some drawn => exact (put_keeps depth _).bind fun _ => Keeps.pure true
  | none => exact (put_keeps depth _).bind fun _ => Keeps.pure false

theorem size_keeps (hp : ∀ v, Keeps I (passes v)) (depth : Nat) :
    Keeps I (size passes depth) := by
  refine (here_keeps depth).bind fun c => (drawAll_keeps hp c.untested).bind fun more => ?_
  exact (put_keeps depth _).bind fun _ => Keeps.pure _

theorem next_keeps (hp : ∀ v, Keeps I (passes v)) (depth : Nat) :
    Keeps I (next passes depth) := by
  refine (hasNext_keeps hp depth).bind fun b => ite (Keeps.pure none) ?_
  refine (here_keeps depth).bind fun c => ?_
  cases c.ready with
  | nil => exact Keeps.pure none
  | cons item rest => exact (put_keeps depth _).bind fun _ => Keeps.pure _

theorem runAll_keeps {next : Run (Option Value)} {round : Value → Run String}
    (hn : Keeps I next) (hr : ∀ v, Keeps I (round v)) (n : Nat) :
    Keeps I (runAll next round n) := by
  induction n with
  | zero => exact Keeps.pure _
  | succ n ih =>
      refine hn.bind fun item => ?_
      cases item with
      | none => exact Keeps.pure _
      | some item => exact (hr item).bind fun text => ih.bind fun more => Keeps.pure _

theorem state_keeps (hp : ∀ v, Keeps I (passes v)) (depth : Nat) :
    Keeps I (state passes depth) :=
  (size_keeps hp depth).bind fun _ => (here_keeps depth).bind fun _ => Keeps.pure _

theorem member_keeps (hp : ∀ v, Keeps I (passes v)) (l : LoopState)
    (name : String) : Keeps I (member passes l name) := by
  refine (here_keeps l.depth).bind fun c => ?_
  have hsize (f : Nat → Value) : Keeps I (size passes l.depth >>= fun n => Pure.pure (f n)) :=
    (size_keeps hp l.depth).bind fun n => Keeps.pure _
  have hnext : Keeps I (hasNext passes l.depth >>= fun b => Pure.pure (Value.bool (!b))) :=
    (hasNext_keeps hp l.depth).bind fun b => Keeps.pure _
  split
  case h_4 => exact hnext
  case h_5 | h_6 | h_7 => exact hsize _
  all_goals exact Keeps.pure _

end Loop

end Gosmith.Template
