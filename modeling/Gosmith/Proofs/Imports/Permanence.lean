import Gosmith.Proofs.Imports.Pool

namespace Gosmith.Imports

open Gosmith.Go

namespace Table

variable {t t' : Table} {path name : String} {written : Option String} {origin : Origin}

theorem nameOf?_bind (t : Table) (b : Binding) (names : List (String × String)) (path : String) :
    ({ bindings := put b t.bindings, names := names } : Table).nameOf? path =
      if b.path = path then some b.name else t.nameOf? path := by
  rw [nameOf?, find?_bind]
  split
  · rfl
  · rfl

theorem lookup_reserve_cases {wanted key owner : String}
    (h : (t.reserve path wanted origin).2.1.names.lookup key = some owner) :
    t.names.lookup key = some owner ∨
      key = (t.reserve path wanted origin).1 ∧ owner = path := by
  simp only [reserve, List.lookup_append] at h ⊢
  cases hold : t.names.lookup key with
  | some q => exact .inl (by simpa [hold] using h)
  | none =>
      rw [hold, Option.none_or, List.lookup_cons] at h
      split at h
      · rename_i hkey
        exact .inr ⟨beq_iff_eq.1 hkey, (Option.some.inj h).symm⟩
      · simp at h

theorem nameOf?_of_free (hfree : ∀ b, t.find? path = some b → b.name = blankName)
    (h : t.nameOf? path = some name) : name = blankName := by
  obtain ⟨b, hb, rfl⟩ := Option.map_eq_some_iff.1 h
  exact hfree b hb

/-- The names in use and the names of the paths are the same relation, the blank name aside; that
one is in use only for a path whose base name it is. -/
structure Paired (t : Table) : Prop where
  names : ∀ name path, name ≠ blankName →
    (t.names.lookup name = some path ↔ t.nameOf? path = some name)
  blank : ∀ path, t.names.lookup blankName = some path →
    ImportPath.baseName? path = some blankName

theorem paired_empty : ({} : Table).Paired :=
  ⟨by simp [nameOf?, find?], by simp⟩

theorem Paired.bind_blank (h : t.Paired) (hnew : t.find? path = none) (origin : Origin) :
    ({ t with bindings := put ⟨path, blankName, origin⟩ t.bindings } : Table).Paired := by
  refine ⟨fun name q hname => ?_, h.blank⟩
  rw [nameOf?_bind, h.names name q hname]
  split
  · rename_i hq
    have hnone : t.nameOf? q = none := by
      rw [nameOf?, ← hq, hnew]
      rfl
    have hblank : blankName ≠ name := hname.symm
    simp [hnone, hblank]
  · rfl

theorem Paired.reserve (h : t.Paired)
    (hfree : ∀ b, t.find? path = some b → b.name = blankName) {wanted : String}
    (hwanted : wanted = blankName → ImportPath.baseName? path = some blankName) :
    (t.reserve path wanted origin).2.1.Paired := by
  refine ⟨fun name q hname => ⟨fun hl => ?_, fun hn => ?_⟩, fun q hl => ?_⟩
  · rw [Table.reserve, nameOf?_bind]
    rcases lookup_reserve_cases hl with hold | ⟨rfl, rfl⟩
    · have hbound := (h.names name q hname).1 hold
      rw [if_neg, hbound]
      rintro rfl
      exact hname (nameOf?_of_free hfree hbound)
    · rw [if_pos rfl]
      rfl
  · rw [Table.reserve, nameOf?_bind] at hn
    split at hn
    · rename_i hq
      obtain rfl : path = q := hq
      obtain rfl : (t.reserve path wanted origin).1 = name := Option.some.inj hn
      exact lookup_reserved wanted
    · exact lookup_reserve ((h.names name q hname).2 hn)
  · rcases lookup_reserve_cases hl with hold | ⟨hkey, rfl⟩
    · exact h.blank q hold
    · -- A numbered name is never the blank one, so the blank one was wanted.
      refine hwanted ?_
      by_contra hne
      exact uniqueName_ne_blank hne _ hkey.symm

theorem Registers.paired (h : Registers t path written origin name t') (hp : t.Paired) :
    t'.Paired := by
  cases h with
  | kept _ _ => exact hp
  | blank hnew _ => exact hp.bind_blank hnew origin
  | @named wanted hfree hblank hwanted =>
      refine hp.reserve hfree ?_
      rintro rfl
      cases written with
      | none => simpa using hwanted
      | some w => exact absurd (by simpa using hwanted) hblank

theorem Registers.lookup_iff (h : Registers t path written origin name t') {q own : String}
    (hown : t.nameOf? q = some own) (hne : own ≠ blankName) (key : String) :
    t'.names.lookup key = some q ↔ t.names.lookup key = some q := by
  cases h with
  | kept _ _ => rfl
  | blank _ _ => rfl
  | named hfree _ _ =>
      refine ⟨fun hl => ?_, lookup_reserve⟩
      rcases lookup_reserve_cases hl with hold | ⟨-, rfl⟩
      · exact hold
      · exact absurd (nameOf?_of_free hfree hown) hne

theorem Registers.lookup_of_blank (h : Registers t path none origin name t')
    (hname : name = blankName) : t'.names.lookup blankName = some path := by
  cases h with
  | kept _ hkept => exact absurd hname (hkept.resolve_right (by simp))
  | blank _ hwritten => simp at hwritten
  | named _ _ _ =>
      rw [← hname]
      exact lookup_reserved _

theorem request_of_nameOf? (hvalid : ImportPath.isValid path = true)
    (h : t.nameOf? path = some name) (hne : name ≠ blankName) :
    t.request path = .ok (name, t, []) := by
  obtain ⟨b, hb, rfl⟩ := Option.map_eq_some_iff.1 h
  simp [request, hvalid, hb, hne]

theorem isValid_of_request {r : String × Table × List Journal.Event}
    (h : t.request path = .ok r) : ImportPath.isValid path = true := by
  cases hvalid : ImportPath.isValid path with
  | true => rfl
  | false => simp [request, hvalid] at h

end Table

namespace Call

def runAll (t : Table) (calls : List Call) : Table :=
  calls.foldl (fun t c => (c.run t).2) t

theorem runAll_cons (t : Table) (c : Call) (calls : List Call) :
    runAll t (c :: calls) = runAll (c.run t).2 calls := rfl

theorem run_paired {t : Table} (h : t.Paired) (c : Call) : (c.run t).2.Paired := by
  rcases c.run_cases t with ⟨f, heq⟩ | ⟨path, written, origin, name, t', heq, hreg, -⟩
  · rw [heq]
    exact h
  · rw [heq]
    exact hreg.paired h

theorem runAll_paired {t : Table} (h : t.Paired) (calls : List Call) : (runAll t calls).Paired := by
  induction calls generalizing t with
  | nil => exact h
  | cons c calls ih => exact ih (run_paired h c)

theorem runAll_extends (t : Table) (calls : List Call) : t.Extends (runAll t calls) := by
  induction calls generalizing t with
  | nil => exact .refl t
  | cons c calls ih => exact (c.run_extends t).trans (ih _)

theorem run_lookup_iff {t : Table} {path name : String} (hname : t.nameOf? path = some name)
    (hne : name ≠ blankName) (c : Call) (key : String) :
    (c.run t).2.names.lookup key = some path ↔ t.names.lookup key = some path := by
  rcases c.run_cases t with ⟨f, heq⟩ | ⟨q, written, origin, resolved, t', heq, hreg, -⟩
  · rw [heq]
  · rw [heq]
    exact hreg.lookup_iff hname hne key

theorem runAll_lookup_iff {t : Table} {path name : String} (hname : t.nameOf? path = some name)
    (hne : name ≠ blankName) (calls : List Call) (key : String) :
    (runAll t calls).names.lookup key = some path ↔ t.names.lookup key = some path := by
  induction calls generalizing t with
  | nil => rfl
  | cons c calls ih =>
      have hkept := (c.run_extends t).nameOf? hname hne
      rw [runAll_cons, ih hkept, run_lookup_iff hname hne]

theorem run_request_eq_ok {t t' : Table} {path name : String}
    (h : (request path).run t = (.ok name, t')) :
    ∃ events, t.request path = .ok (name, t', events) := by
  cases hr : t.request path with
  | error f => simp [run, hr] at h
  | ok r =>
      obtain ⟨n, u, events⟩ := r
      simp only [run, hr, Prod.mk.injEq, Except.ok.injEq] at h
      obtain ⟨rfl, rfl⟩ := h
      exact ⟨events, rfl⟩

end Call

open Table in
theorem request_permanent_iff (calls : List Call) (path name : String) (t : Table)
    (h : (Call.request path).run (Call.runAll {} calls) = (.ok name, t)) :
    ((name ≠ blankName ∧ ∀ later : List Call,
        (Call.runAll t later).nameOf? path = some name ∧
        (Call.request path).run (Call.runAll t later) = (.ok name, Call.runAll t later) ∧
        ∀ key, (Call.runAll t later).names.lookup key = some path ↔ key = name) ↔
      t.names.lookup blankName ≠ some path) ∧
    (ImportPath.baseName? path ≠ some blankName → t.names.lookup blankName ≠ some path) := by
  obtain ⟨events, hrequest⟩ := Call.run_request_eq_ok h
  have hreg := request_registers hrequest
  have hpaired : t.Paired := hreg.paired (Call.runAll_paired paired_empty calls)
  refine ⟨⟨fun hkept hblank => ?_, fun hfree => ?_⟩, fun hbase hblank => ?_⟩
  · obtain ⟨hne, hlater⟩ := hkept
    obtain ⟨-, -, honly⟩ := hlater []
    exact hne ((honly blankName).1 hblank).symm
  · have hne : name ≠ blankName := fun hname => hfree (hreg.lookup_of_blank hname)
    refine ⟨hne, fun later => ?_⟩
    have hname := (Call.runAll_extends t later).nameOf? hreg.nameOf? hne
    refine ⟨hname, ?_, fun key => ?_⟩
    · simp [Call.run, request_of_nameOf? (isValid_of_request hrequest) hname hne]
    · rw [Call.runAll_lookup_iff hreg.nameOf? hne]
      by_cases hkey : key = blankName
      · subst hkey
        simp [hfree, hne.symm]
      · rw [hpaired.names key path hkey, hreg.nameOf?, Option.some.injEq, eq_comm]
  · exact hbase (hpaired.blank path hblank)

def upgraded : List Call :=
  [.merge "a/util" (some "_"), .request "b/util", .merge "c" (some "util2")]

theorem request_permanent_upgraded :
    ((Call.request "a/util").run (Call.runAll {} upgraded)).1 = .ok "util3" ∧
      ∀ later : List Call,
        let t := Call.runAll ((Call.request "a/util").run (Call.runAll {} upgraded)).2 later
        t.nameOf? "a/util" = some "util3" ∧
          (Call.request "a/util").run t = (.ok "util3", t) ∧
          ∀ key, t.names.lookup key = some "a/util" ↔ key = "util3" := by
  have hname : ((Call.request "a/util").run (Call.runAll {} upgraded)).1 = .ok "util3" := by
    decide +kernel
  obtain ⟨hiff, hbase⟩ := request_permanent_iff upgraded "a/util" "util3"
    ((Call.request "a/util").run (Call.runAll {} upgraded)).2 (Prod.ext hname rfl)
  exact ⟨hname, (hiff.2 (hbase (by decide +kernel))).2⟩

theorem blank_base_name_not_kept :
    let first := (Call.request "é").run {}
    let second := (Call.request "é").run first.2
    first.1 = .ok "_" ∧ second.1 = .ok "_2" ∧
      second.2.names = [("_", "é"), ("_2", "é")] := by
  decide +kernel

end Gosmith.Imports
