import Gosmith.Proofs.Imports.Sound

namespace Gosmith.Imports

open Gosmith.Go

inductive Call where
  | request (path : String)
  | merge (path : String) (name : Option String)
deriving DecidableEq, Repr

namespace Call

def isAllowed : Call → Bool
  | request _ => true
  | merge _ none => true
  | merge _ (some name) => name == blankName || Token.isName name

def run (t : Table) (c : Call) : Except Fault String × Table :=
  let result := match c with
    | request path => t.request path
    | merge path name => t.merge path name
  match result with
  | .ok (name, t', _) => (.ok name, t')
  | .error f => (.error f, t)

theorem run_cases (t : Table) (c : Call) :
    (∃ f, c.run t = (.error f, t)) ∨
      ∃ path written origin name t', c.run t = (.ok name, t') ∧
        Table.Registers t path written origin name t' ∧
        (c.isAllowed = true → ∀ w ∈ written, w ≠ blankName → Token.isName w = true) := by
  cases c with
  | request path =>
      cases h : t.request path with
      | error f => exact .inl ⟨f, by simp [run, h]⟩
      | ok r =>
          obtain ⟨name, t', events⟩ := r
          exact .inr ⟨path, none, .requested, name, t', by simp [run, h],
            Table.request_registers h, by simp⟩
  | merge path written =>
      cases h : t.merge path written with
      | error f => exact .inl ⟨f, by simp [run, h]⟩
      | ok r =>
          obtain ⟨name, t', events⟩ := r
          refine .inr ⟨path, written, .literal, name, t', by simp [run, h],
            Table.merge_registers h, ?_⟩
          rintro hallowed w rfl hw
          simpa [isAllowed, hw] using hallowed

theorem run_extends (t : Table) (c : Call) : t.Extends (c.run t).2 := by
  rcases c.run_cases t with ⟨f, h⟩ | ⟨path, written, origin, name, t', h, hreg, -⟩
  · rw [h]
    exact .refl t
  · rw [h]
    exact hreg.extends

theorem run_sound {t : Table} (hs : t.Sound) {c : Call} (hc : c.isAllowed = true) :
    (c.run t).2.Sound := by
  rcases c.run_cases t with ⟨f, h⟩ | ⟨path, written, origin, name, t', h, hreg, hw⟩
  · rw [h]
    exact hs
  · rw [h]
    exact hreg.sound hs (hw hc)

theorem run_error {t : Table} {c : Call} {f : Fault} (h : (c.run t).1 = .error f) :
    (c.run t).2 = t := by
  rcases c.run_cases t with ⟨g, heq⟩ | ⟨path, written, origin, name, t', heq, -⟩
  · rw [heq]
  · simp [heq] at h

end Call

inductive Step where
  | call (i : Nat) (c : Call)
  | copy (i : Nat)
deriving DecidableEq, Repr

namespace Step

def isAllowed : Step → Bool
  | call _ c => c.isAllowed
  | copy _ => true

def run (pool : List Table) : Step → List Table
  | call i c => pool.modify i fun t => (c.run t).2
  | copy i => pool ++ pool[i]?.toList

def runAll (pool : List Table) (steps : List Step) : List Table :=
  steps.foldl run pool

theorem run_sound {pool : List Table} (hp : ∀ t ∈ pool, t.Sound) {s : Step}
    (hs : s.isAllowed = true) : ∀ t ∈ s.run pool, t.Sound := by
  intro t ht
  cases s with
  | call i c =>
      obtain ⟨j, hj⟩ := List.mem_iff_getElem?.1 ht
      simp only [run, List.getElem?_modify, Option.map_eq_map, Option.map_eq_some_iff] at hj
      obtain ⟨u, hu, heq⟩ := hj
      have hsound := hp u (List.mem_of_getElem? hu)
      split at heq
      · exact heq ▸ Call.run_sound hsound hs
      · exact heq ▸ hsound
  | copy i =>
      rcases List.mem_append.1 ht with ht | ht
      · exact hp t ht
      · exact hp t (List.mem_of_getElem? (Option.mem_toList.1 ht))

theorem runAll_sound {steps : List Step} (hs : ∀ s ∈ steps, s.isAllowed = true)
    {pool : List Table} (hp : ∀ t ∈ pool, t.Sound) : ∀ t ∈ runAll pool steps, t.Sound := by
  induction steps generalizing pool with
  | nil => exact hp
  | cons s steps ih =>
      exact ih (fun u hu => hs u (List.mem_cons_of_mem _ hu))
        (run_sound hp (hs s List.mem_cons_self))

theorem run_extends (s : Step) {pool : List Table} {i : Nat} {t : Table} (h : pool[i]? = some t) :
    ∃ t', (s.run pool)[i]? = some t' ∧ t.Extends t' := by
  cases s with
  | call j c =>
      simp only [run, List.getElem?_modify, h, Option.map_eq_map, Option.map_some]
      split
      · exact ⟨_, rfl, c.run_extends t⟩
      · exact ⟨t, rfl, .refl t⟩
  | copy j =>
      refine ⟨t, ?_, .refl t⟩
      rw [run, List.getElem?_append_left (List.getElem?_eq_some_iff.1 h).1, h]

theorem runAll_extends (steps : List Step) {pool : List Table} {i : Nat} {t : Table}
    (h : pool[i]? = some t) : ∃ t', (runAll pool steps)[i]? = some t' ∧ t.Extends t' := by
  induction steps generalizing pool t with
  | nil => exact ⟨t, h, .refl t⟩
  | cons s steps ih =>
      obtain ⟨u, hu, htu⟩ := s.run_extends h
      obtain ⟨v, hv, huv⟩ := ih hu
      exact ⟨v, hv, htu.trans huv⟩

end Step

theorem alias_table_invariant (steps : List Step) (hs : ∀ s ∈ steps, s.isAllowed = true)
    (i : Nat) (t : Table) (ht : (Step.runAll [{}] steps)[i]? = some t) :
    (∀ b ∈ t.bindings, b.name ≠ blankName → t.names.lookup b.name = some b.path) ∧
    (∀ a ∈ t.bindings, ∀ b ∈ t.bindings, a.name ≠ blankName → a.name = b.name → a.path = b.path) ∧
    (∀ b ∈ t.bindings, b.name ≠ blankName → Token.isName b.name = true ∧ isKeyword b.name = false) ∧
    (∀ later : List Step, ∃ t', (Step.runAll (Step.runAll [{}] steps) later)[i]? = some t' ∧
      ∀ path b, t.find? path = some b →
        ∃ b', t'.find? path = some b' ∧ (b.name ≠ blankName → b' = b)) ∧
    ∀ (c : Call) (f : Fault), (c.run t).1 = .error f → (c.run t).2 = t := by
  have hempty : ∀ u ∈ [({} : Table)], u.Sound := by
    intro u hu
    rw [List.mem_singleton.1 hu]
    exact Table.sound_empty
  have hsound : t.Sound := Step.runAll_sound hs hempty t (List.mem_of_getElem? ht)
  refine ⟨hsound.claimed, ?_, ?_, fun later => Step.runAll_extends later ht, fun c f => Call.run_error⟩
  · intro a ha b hb hname heq
    have hpath := hsound.claimed a ha hname
    rw [heq, hsound.claimed b hb (heq ▸ hname), Option.some.injEq] at hpath
    exact hpath.symm
  · intro b hb hname
    have hspelled := hsound.spelled b hb hname
    exact ⟨hspelled, (isName_iff_isWordText.1 hspelled).2⟩

def crowdedSteps : List Step :=
  [.call 0 (.request "a/util"), .call 0 (.request "b/util"), .copy 0,
    .call 1 (.merge "x/util2" none), .call 1 (.merge "c" (some "_")), .call 0 (.request "")]

theorem alias_table_invariant_crowded :
    (∀ s ∈ crowdedSteps, s.isAllowed = true) ∧
    ∃ t, (Step.runAll [{}] crowdedSteps)[1]? = some t ∧
      t.bindings.map (fun b => (b.path, b.name)) =
        [("a/util", "util"), ("b/util", "util2"), ("x/util2", "util22"), ("c", "_")] ∧
      (∀ b ∈ t.bindings, b.name ≠ blankName → t.names.lookup b.name = some b.path) ∧
      ∀ later : List Step,
        ∃ t', (Step.runAll (Step.runAll [{}] crowdedSteps) later)[1]? = some t' ∧
          ∀ path b, t.find? path = some b →
            ∃ b', t'.find? path = some b' ∧ (b.name ≠ blankName → b' = b) := by
  have hs : ∀ s ∈ crowdedSteps, s.isAllowed = true := by decide +kernel
  cases ht : (Step.runAll [{}] crowdedSteps)[1]? with
  | none => exact absurd ht (by decide +kernel)
  | some t =>
      obtain ⟨hclaimed, -, -, hlater, -⟩ := alias_table_invariant crowdedSteps hs 1 t ht
      refine ⟨hs, t, rfl, ?_, hclaimed, hlater⟩
      have hnames : (Step.runAll [{}] crowdedSteps)[1]?.map
          (fun t => t.bindings.map fun b => (b.path, b.name)) =
            some [("a/util", "util"), ("b/util", "util2"), ("x/util2", "util22"), ("c", "_")] := by
        decide +kernel
      rw [ht] at hnames
      exact Option.some.inj hnames

end Gosmith.Imports
