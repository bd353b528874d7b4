import Gosmith.Imports.Table
import Gosmith.Proofs.FreshName
import Gosmith.Proofs.Lexeme.Token

namespace Gosmith.Imports

open Gosmith.Go Gosmith.Journal Gosmith.Text

namespace Table

theorem find?_put (b : Binding) (bs : List Binding) (path : String) :
    (put b bs).find? (·.path == path) =
      if b.path = path then some b else bs.find? (·.path == path) := by
  induction bs with
  | nil =>
      by_cases h : b.path = path
      · simp [put, h]
      · simp [put, h, beq_eq_false_iff_ne.2 h]
  | cons a bs ih =>
      simp only [put]
      split
      · rename_i heq
        simp only [List.find?_cons, heq]
        split <;> simp_all
      · rename_i hne
        simp only [List.find?_cons, ih]
        split
        · rename_i ha
          have hpath : a.path = path := by simpa using ha
          rw [if_neg (by rintro rfl; exact hne hpath)]
        · rfl

theorem mem_put {a b : Binding} {bs : List Binding} (h : a ∈ put b bs) :
    a = b ∨ a ∈ bs := by
  induction bs with
  | nil => simpa [put] using h
  | cons c bs ih =>
      simp only [put] at h
      split at h
      · rcases List.mem_cons.1 h with rfl | h
        · exact .inl rfl
        · exact .inr (List.mem_cons_of_mem _ h)
      · rcases List.mem_cons.1 h with rfl | h
        · exact .inr List.mem_cons_self
        · exact (ih h).imp_right (List.mem_cons_of_mem _)

theorem nodup_put {b : Binding} {bs : List Binding} (h : (bs.map Binding.path).Nodup) :
    ((put b bs).map Binding.path).Nodup := by
  induction bs with
  | nil => simp [put]
  | cons c bs ih =>
      simp only [List.map_cons, List.nodup_cons] at h
      simp only [put]
      split
      · rename_i heq
        simp only [List.map_cons, List.nodup_cons, ← heq]
        exact h
      · rename_i hne
        simp only [List.map_cons, List.nodup_cons]
        refine ⟨fun hmem => ?_, ih h.2⟩
        obtain ⟨a, ha, hpath⟩ := List.mem_map.1 hmem
        rcases mem_put ha with rfl | ha
        · exact hne hpath.symm
        · exact h.1 (hpath ▸ List.mem_map_of_mem ha)

theorem path_of_find? {t : Table} {path : String} {b : Binding} (h : t.find? path = some b) :
    b.path = path := by
  simpa using List.find?_some h

theorem mem_of_find? {t : Table} {path : String} {b : Binding} (h : t.find? path = some b) :
    b ∈ t.bindings :=
  List.mem_of_find?_eq_some h

/-- What a successful registration of a path does. `written` is the name that the snippet gives it,
if any. -/
inductive Registers (t : Table) (path : String) (written : Option String) (origin : Origin) :
    String → Table → Prop
  | kept {b} : t.find? path = some b → b.name ≠ blankName ∨ written = some blankName →
      Registers t path written origin b.name t
  | blank : t.find? path = none → written = some blankName →
      Registers t path written origin blankName
        { t with bindings := put ⟨path, blankName, origin⟩ t.bindings }
  | named {wanted} : (∀ b, t.find? path = some b → b.name = blankName) →
      written ≠ some blankName → written.or (ImportPath.baseName? path) = some wanted →
      Registers t path written origin (t.reserve path wanted origin).1
        (t.reserve path wanted origin).2.1

variable {t t' : Table} {path name : String} {written : Option String} {events : List Event}

theorem defaultName_eq_ok {base : String} :
    defaultName path = .ok base ↔ ImportPath.baseName? path = some base := by
  unfold defaultName
  split
  · rename_i heq
    simp [heq]
  · rename_i heq
    simp [heq]

theorem Registers.of_reserve {origin : Origin} {wanted : String}
    (hfree : ∀ b, t.find? path = some b → b.name = blankName) (hblank : written ≠ some blankName)
    (hwanted : written.or (ImportPath.baseName? path) = some wanted)
    (h : t.reserve path wanted origin = (name, t', events)) :
    Registers t path written origin name t' := by
  have hreg : Registers t path written origin _ _ := .named hfree hblank hwanted
  rwa [h] at hreg

theorem Registers.of_default {origin : Origin}
    (hfree : ∀ b, t.find? path = some b → b.name = blankName)
    (h : ((defaultName path).map fun base => t.reserve path base origin) = .ok (name, t', events)) :
    Registers t path none origin name t' := by
  cases hbase : defaultName path with
  | error f => simp [hbase, Except.map] at h
  | ok base =>
      simp only [hbase, Except.map, Except.ok.injEq] at h
      exact .of_reserve hfree (by simp) (by simpa using defaultName_eq_ok.1 hbase) h

theorem request_registers (h : t.request path = .ok (name, t', events)) :
    Registers t path none .requested name t' := by
  unfold request at h
  split at h
  · simp at h
  cases hb : t.find? path with
  | none =>
      simp only [hb] at h
      exact .of_default (by simp [hb]) h
  | some b =>
      simp only [hb] at h
      split at h
      · rename_i hname
        simp only [Except.ok.injEq, Prod.mk.injEq] at h
        obtain ⟨rfl, rfl, -⟩ := h
        exact .kept hb (.inl hname)
      · rename_i hname
        refine .of_default (fun c hc => ?_) h
        rw [hb, Option.some.injEq] at hc
        simpa [← hc] using hname

theorem Registers.of_written (hfree : ∀ b, t.find? path = some b → b.name = blankName)
    (hblank : written ≠ some blankName)
    (h : (match written with
      | some wanted => .ok (t.reserve path wanted .literal)
      | none => (defaultName path).map fun wanted => t.reserve path wanted .literal) =
      Except.ok (name, t', events)) : Registers t path written .literal name t' := by
  cases written with
  | some wanted =>
      simp only [Except.ok.injEq] at h
      exact .of_reserve hfree hblank Option.some_or h
  | none => exact .of_default hfree h

theorem merge_registers (h : t.merge path written = .ok (name, t', events)) :
    Registers t path written .literal name t' := by
  simp only [merge] at h
  split at h
  · simp at h
  cases hb : t.find? path with
  | none =>
      simp only [hb] at h
      split at h
      · rename_i hname
        simp only [Except.ok.injEq, Prod.mk.injEq] at h
        obtain ⟨rfl, rfl, -⟩ := h
        exact .blank hb hname
      · rename_i hname
        exact .of_written (by simp [hb]) hname h
  | some b =>
      simp only [hb] at h
      split at h
      · rename_i hname
        simp only [Except.ok.injEq, Prod.mk.injEq] at h
        obtain ⟨rfl, rfl, -⟩ := h
        exact .kept hb hname
      · rename_i hname
        simp only [not_or, Decidable.not_not] at hname
        refine .of_written (fun c hc => ?_) hname.2 h
        rw [hb, Option.some.injEq] at hc
        simpa [← hc] using hname.1

theorem isValid_of_merge {r : String × Table × List Event} (h : t.merge path written = .ok r) :
    ImportPath.isValid path = true := by
  cases hvalid : ImportPath.isValid path with
  | true => rfl
  | false => simp [merge, hvalid] at h

theorem defaultName_error {f : Fault} (h : defaultName path = .error f) :
    f = .invalidPath path ∧ ImportPath.baseName? path = none := by
  cases hbase : ImportPath.baseName? path with
  | some base => simp [defaultName, hbase] at h
  | none =>
      simp only [defaultName, hbase, Except.error.injEq] at h
      exact ⟨h.symm, rfl⟩

theorem merge_error {f : Fault} (h : t.merge path written = .error f) :
    f = .invalidPath path ∧ (ImportPath.isValid path = false ∨
      written = none ∧ ImportPath.baseName? path = none) := by
  cases hvalid : ImportPath.isValid path with
  | false =>
      simp only [merge, hvalid, Bool.not_false, if_true, Except.error.injEq] at h
      exact ⟨h.symm, .inl rfl⟩
  | true =>
      simp only [merge, hvalid, Bool.not_true, Bool.false_eq_true, if_false] at h
      have hreserved : (match written with
          | some wanted => .ok (t.reserve path wanted .literal)
          | none => (defaultName path).map fun wanted => t.reserve path wanted .literal) =
          Except.error f := by
        split at h
        · split at h
          · simp at h
          · exact h
        · split at h
          · simp at h
          · exact h
      cases written with
      | some wanted => simp at hreserved
      | none =>
          cases hdefault : defaultName path with
          | ok base => simp [hdefault, Except.map] at hreserved
          | error g =>
              obtain ⟨rfl, hbase⟩ := defaultName_error hdefault
              simp only [hdefault, Except.map, Except.error.injEq] at hreserved
              exact ⟨hreserved.symm, .inr ⟨rfl, hbase⟩⟩

end Table

end Gosmith.Imports
