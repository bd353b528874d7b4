import Gosmith.Proofs.Text.Lines
import Gosmith.Workspace.Basic

namespace Gosmith

open Gosmith.Text

namespace Path

structure IsPart (p : List Char) : Prop where
  ne_nil : p ≠ []
  ne_dot : p ≠ ['.']
  no_slash : '/' ∉ p

theorem isPart_of_mem_parts {path : String} {p : List Char} (h : p ∈ parts path) : IsPart p := by
  obtain ⟨hmem, hkept⟩ := List.mem_filter.1 h
  simp only [Bool.and_eq_true, Bool.not_eq_true', List.isEmpty_eq_false_iff, bne_iff_ne] at hkept
  exact ⟨hkept.1, hkept.2, notMem_of_mem_splitWhen hmem⟩

theorem parts_slash (cs : List Char) :
    parts (String.ofList ('/' :: cs)) = parts (String.ofList cs) := by
  simp [parts, splitWhen]

theorem parts_intercalate {ps : List (List Char)} (hne : ps ≠ []) (hps : ∀ p ∈ ps, IsPart p) :
    parts (String.ofList (['/'].intercalate ps)) = ps := by
  have hsplit : splitWhen (· == '/') (['/'].intercalate ps) = ps := by
    rw [splitWhen_eq_splitOnP]
    exact List.splitOn_intercalate '/' (fun p hp => (hps p hp).no_slash) hne
  rw [parts, String.toList_ofList, hsplit]
  refine List.filter_eq_self.2 fun p hp => ?_
  simp [(hps p hp).ne_nil, (hps p hp).ne_dot]

theorem root_cases (path : String) : root path = "" ∨ root path = "/" ∨ root path = "//" := by
  unfold root
  split <;> simp

theorem join_of_parts (r : String) {ps : List (List Char)} (hne : ps ≠ []) :
    join r ps = r ++ String.ofList (['/'].intercalate ps) := by
  cases ps with
  | nil => exact absurd rfl hne
  | cons p ps => simp [join, ← String.toList_inj, String.toList_intercalate, Function.comp_def]

theorem head_intercalate {ps : List (List Char)} (hne : ps ≠ []) (hps : ∀ p ∈ ps, IsPart p) :
    ∃ c cs, ['/'].intercalate ps = c :: cs ∧ c ≠ '/' := by
  obtain ⟨p, rest, rfl⟩ := List.exists_cons_of_ne_nil hne
  have hp := hps p List.mem_cons_self
  obtain ⟨c, cs, rfl⟩ := List.exists_cons_of_ne_nil hp.ne_nil
  have hslash : c ≠ '/' := fun heq => hp.no_slash (heq ▸ List.mem_cons_self)
  cases rest with
  | nil => exact ⟨c, cs, by simp, hslash⟩
  | cons q rest => exact ⟨c, _, by simp; rfl, hslash⟩

theorem read_join {r : String} (hr : r = "" ∨ r = "/" ∨ r = "//") {ps : List (List Char)}
    (hps : ∀ p ∈ ps, IsPart p) : root (join r ps) = r ∧ parts (join r ps) = ps := by
  by_cases hne : ps = []
  · subst hne
    rcases hr with rfl | rfl | rfl <;> decide +kernel
  · obtain ⟨c, cs, hhead, hslash⟩ := head_intercalate hne hps
    have hparts := parts_intercalate hne hps
    rw [join_of_parts r hne]
    rw [hhead] at hparts ⊢
    rcases hr with rfl | rfl | rfl
    · rw [String.empty_append]
      exact ⟨by simp [root, hslash], hparts⟩
    · have htext : "/" ++ String.ofList (c :: cs) = String.ofList ('/' :: c :: cs) := by simp
      rw [htext, parts_slash]
      exact ⟨by simp [root, hslash], hparts⟩
    · have htext : "//" ++ String.ofList (c :: cs) = String.ofList ('/' :: '/' :: c :: cs) := by
        simp [← String.toList_inj]
      rw [htext, parts_slash, parts_slash]
      exact ⟨by simp [root, hslash], hparts⟩

theorem read_normal (path : String) :
    root (normal path) = root path ∧ parts (normal path) = parts path :=
  read_join (root_cases path) fun _ => isPart_of_mem_parts

theorem read_parent (path : String) :
    root (parent path) = root path ∧ parts (parent path) = (parts path).dropLast :=
  read_join (root_cases path) fun _ hp => isPart_of_mem_parts (List.dropLast_subset _ hp)

theorem normal_normal (path : String) : normal (normal path) = normal path := by
  obtain ⟨hroot, hparts⟩ := read_normal path
  rw [normal, hroot, hparts, normal]

theorem normal_ne_empty (path : String) : normal path ≠ "" := by
  intro hempty
  have htwice := normal_normal path
  rw [hempty] at htwice
  exact absurd htwice (by decide +kernel)

end Path

namespace Workspace

variable {w w' : Workspace} {p q : Place} {path : String}

theorem hasDir_of_prefix (h : p <+: q) (hq : w.hasDir q = true) : w.hasDir p = true := by
  simp only [hasDir, Bool.or_eq_true, List.any_eq_true, List.isPrefixOf_iff_prefix] at hq ⊢
  rcases hq with (hq | ⟨dir, hdir, hq⟩) | ⟨file, hfile, hq⟩
  · exact .inl (.inl (h.trans hq))
  · exact .inl (.inr ⟨dir, hdir, h.trans hq⟩)
  · exact .inr ⟨file, hfile, h.trans hq⟩

theorem hasDir_start (w : Workspace) (path : String) :
    w.hasDir (Path.start w.cwd path) = true := by
  have hprefix : Path.start w.cwd path <+: w.cwd := by
    unfold Path.start
    split
    · exact List.prefix_refl _
    · exact List.nil_prefix
  simp [hasDir, hprefix]

theorem walk_append (w : Workspace) (p : Place) (parts : List (List Char)) (last : List Char) :
    w.walk p (parts ++ [last]) = (w.walk p parts).bind fun q =>
      if w.hasDir q then .ok (Path.move q last) else .error q := by
  induction parts generalizing p with
  | nil => rfl
  | cons part parts ih =>
      rw [List.cons_append, walk, walk]
      split
      · exact ih _
      · rfl

theorem opened_eq_ok : w.opened path = .ok p ↔ w.resolve path = .ok p ∧ w.hasDir p = false := by
  unfold opened
  cases hresolve : w.resolve path with
  | error q => simp
  | ok q =>
      cases hdir : w.hasDir q with
      | true =>
          refine iff_of_false (by simp [hdir]) ?_
          rintro ⟨⟨⟩, hnone⟩
          simp [hdir] at hnone
      | false =>
          simp only [hdir, Bool.false_eq_true, if_false, Except.ok.injEq, iff_self_and]
          rintro rfl
          exact hdir

theorem parent_of_opened (h : w.opened path = .ok p) :
    w.hasDir p.dropLast = true ∧ ∃ name, p = p.dropLast ++ [name] := by
  obtain ⟨hresolve, hdir⟩ := opened_eq_ok.1 h
  unfold resolve at hresolve
  rcases List.eq_nil_or_concat (Path.parts path) with hparts | ⟨parts, last, hparts⟩
  · rw [hparts, walk] at hresolve
    cases hresolve
    simp [hasDir_start] at hdir
  · rw [hparts, List.concat_eq_append, walk_append] at hresolve
    cases hwalk : w.walk (Path.start w.cwd path) parts with
    | error q => simp [hwalk, Except.bind] at hresolve
    | ok q =>
        rw [hwalk] at hresolve
        simp only [Except.bind] at hresolve
        split at hresolve
        · rename_i hq
          cases hresolve
          by_cases hup : last = ['.', '.']
          · rw [Path.move, if_pos hup, hasDir_of_prefix (List.dropLast_prefix q) hq] at hdir
            simp at hdir
          · simpa [Path.move, hup] using hq
        · simp at hresolve

theorem opened_isOk : (∃ p, w.opened path = .ok p) ↔
    w.isDir path = false ∧ w.isDir (Path.parent path) = true := by
  obtain ⟨hroot, hparent⟩ := Path.read_parent path
  have hstart : Path.start w.cwd (Path.parent path) = Path.start w.cwd path := by
    rw [Path.start, hroot, Path.start]
  simp only [opened_eq_ok, isDir, resolve, hstart, hparent]
  rcases List.eq_nil_or_concat (Path.parts path) with hparts | ⟨parts, last, hparts⟩
  · simp [hparts, walk, hasDir_start, Except.toOption]
  · rw [hparts, List.concat_eq_append, List.dropLast_concat, walk_append]
    cases w.walk (Path.start w.cwd path) parts with
    | error q => simp [Except.bind, Except.toOption]
    | ok q =>
        cases hq : w.hasDir q with
        | false => simp [Except.bind, Except.toOption, hq]
        | true => simp [Except.bind, Except.toOption, hq]

structure SameDirs (w w' : Workspace) : Prop where
  cwd : w'.cwd = w.cwd
  hasDir : w'.hasDir = w.hasDir

namespace SameDirs

theorem refl (w : Workspace) : SameDirs w w :=
  ⟨rfl, rfl⟩

theorem trans {w₁ w₂ w₃ : Workspace} (h : SameDirs w₁ w₂) (h' : SameDirs w₂ w₃) : SameDirs w₁ w₃ :=
  ⟨h'.cwd.trans h.cwd, h'.hasDir.trans h.hasDir⟩

theorem walk (h : SameDirs w w') (p : Place) (parts : List (List Char)) :
    w'.walk p parts = w.walk p parts := by
  induction parts generalizing p with
  | nil => rfl
  | cons part parts ih => rw [Workspace.walk, Workspace.walk, h.hasDir, ih]

theorem resolve (h : SameDirs w w') (path : String) : w'.resolve path = w.resolve path := by
  rw [Workspace.resolve, Workspace.resolve, h.walk, h.cwd]

theorem opened (h : SameDirs w w') : w'.opened path = .ok p ↔ w.opened path = .ok p := by
  rw [opened_eq_ok, opened_eq_ok, h.resolve, h.hasDir]

end SameDirs

theorem sameDirs_putAt (h : w.opened path = .ok p) (text : String) :
    SameDirs w (w.putAt p text) := by
  refine ⟨rfl, funext fun q => ?_⟩
  have hany : (Assoc.set p text w.files).any (fun f => q.isPrefixOf f.1.dropLast) =
      (w.files.any (fun f => q.isPrefixOf f.1.dropLast) || q.isPrefixOf p.dropLast) :=
    Assoc.any_set (fun f => q.isPrefixOf f.dropLast) p text w.files
  cases hq : q.isPrefixOf p.dropLast with
  | false =>
      rw [hq, Bool.or_false] at hany
      simp only [hasDir, putAt, hany]
  | true =>
      -- the new file lies in a directory, so all of its directories are there already
      have hdir : w.hasDir q = true :=
        hasDir_of_prefix (List.isPrefixOf_iff_prefix.1 hq) (parent_of_opened h).1
      rw [hq, Bool.or_true] at hany
      rw [hdir]
      simp only [hasDir, putAt, hany, Bool.or_true]

theorem sameDirs_appendTo (w : Workspace) (path text : String) :
    SameDirs w (w.appendTo path text) := by
  unfold appendTo
  split
  · exact .refl w
  · rename_i p hp
    exact sameDirs_putAt hp _

theorem fileAt?_putAt (w : Workspace) (p q : Place) (text : String) :
    (w.putAt p text).fileAt? q = if q = p then some text else w.fileAt? q :=
  Assoc.lookup_set _ _ _ _

def LeadsTo (w : Workspace) (p : Place) (path : String) : Bool :=
  (w.resolve path).toOption == some p

theorem leadsTo_iff : w.LeadsTo p path = true ↔ w.resolve path = .ok p := by
  unfold LeadsTo
  cases w.resolve path with
  | error q => simp [Except.toOption]
  | ok q => simp [Except.toOption]

theorem fileAt?_appendTo {text : String} (hdir : w.hasDir p = false)
    (h : w.fileAt? p = some text) (path more : String) :
    (w.appendTo path more).fileAt? p =
      some (if w.LeadsTo p path then text ++ more else text) := by
  cases hleads : w.LeadsTo p path with
  | true =>
      have hopened := opened_eq_ok.2 ⟨leadsTo_iff.1 hleads, hdir⟩
      simp [appendTo, hopened, appendAt, fileAt?_putAt, h]
  | false =>
      cases hopened : w.opened path with
      | error f => simpa [appendTo, hopened] using h
      | ok q =>
          have hne : p ≠ q := by
            rintro rfl
            rw [leadsTo_iff.2 (opened_eq_ok.1 hopened).1] at hleads
            simp at hleads
          simpa [appendTo, hopened, appendAt, fileAt?_putAt, hne] using h

theorem contents_of_fileAt? {text : String} (hopened : w.opened path = .ok p)
    (h : w.fileAt? p = some text) : w.contents path = .ok text := by
  simp [contents, hopened, h, bind, Except.bind, pure, Except.pure]

theorem pathExists_of_fileAt? {text : String} (hopened : w.opened path = .ok p)
    (h : w.fileAt? p = some text) : w.pathExists path = true := by
  simp [pathExists, file?, (opened_eq_ok.1 hopened).1, Except.toOption, h]

end Workspace

end Gosmith
