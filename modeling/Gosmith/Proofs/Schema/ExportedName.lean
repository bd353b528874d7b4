import Gosmith.Proofs.Generator.PackageName
import Gosmith.Proofs.Text.Lines
import Mathlib

-- The lemmas on letter case (`Char.toUpper_eq_of_not_isLower` and those around it) are in no single
-- file of Mathlib; they come with the whole library.

namespace Gosmith.Go

open Gosmith.Text

theorem isAlphanum_toUpper {c : Char} (h : c.isAlphanum = true) : c.toUpper.isAlphanum = true := by
  by_cases hlower : c.isLower = true
  · simp [Char.isAlphanum, Char.isAlpha, hlower]
  · rwa [Char.toUpper_eq_of_not_isLower hlower]

theorem isAlphanum_toLower {c : Char} (h : c.isAlphanum = true) : c.toLower.isAlphanum = true := by
  by_cases hupper : c.isUpper = true
  · simp [Char.isAlphanum, Char.isAlpha, hupper]
  · rwa [Char.toLower_eq_of_not_isUpper hupper]

theorem words_of_find? {cs : List Char} {c : Char} (h : cs.find? Char.isAlphanum = some c) :
    ∃ w ws, words cs = (c :: w) :: ws := by
  induction cs with
  | nil => simp at h
  | cons a rest ih =>
      cases ha : a.isAlphanum with
      | false =>
          have hskip : words (a :: rest) = words rest := by simp [words, splitWhen, ha]
          rw [hskip]
          exact ih (by simpa [ha] using h)
      | true =>
          obtain rfl : a = c := by simpa [ha] using h
          cases hparts : splitWhen (fun c => !c.isAlphanum) rest with
          | nil => exact ⟨[], [], by simp [words, splitWhen, ha, hparts]⟩
          | cons part parts => exact ⟨part, _, by simp [words, splitWhen, ha, hparts]; rfl⟩

theorem isAlphanum_of_mem_words {cs w : List Char} (h : w ∈ words cs) :
    ∀ c ∈ w, c.isAlphanum = true := by
  intro c hc
  have hpart := of_mem_splitWhen (List.mem_of_mem_filter h) hc
  simpa using hpart

section

variable {cs : List Char}

theorem words_of_alphanum (hne : cs ≠ []) (h : ∀ c ∈ cs, c.isAlphanum = true) :
    words cs = [cs] := by
  have hwhole : cs.splitOnP (fun c => !c.isAlphanum) = [cs] :=
    List.splitOnP_eq_singleton fun c hc => by simp [h c hc]
  rw [words, splitWhen_eq_splitOnP, hwhole]
  simpa using hne

theorem isAlphanum_of_mem_capitalize (h : ∀ c ∈ cs, c.isAlphanum = true) :
    ∀ c ∈ capitalize cs, c.isAlphanum = true := by
  cases cs with
  | nil => exact h
  | cons c rest =>
      obtain ⟨hc, hrest⟩ := List.forall_mem_cons.1 h
      refine List.forall_mem_cons.2 ⟨isAlphanum_toUpper hc, fun d hd => ?_⟩
      obtain ⟨a, ha, rfl⟩ := List.mem_map.1 hd
      exact isAlphanum_toLower (hrest a ha)

theorem isAlphanum_of_mem_upperFirst (h : ∀ c ∈ cs, c.isAlphanum = true) :
    ∀ c ∈ upperFirst cs, c.isAlphanum = true := by
  cases cs with
  | nil => exact h
  | cons c rest =>
      obtain ⟨hc, hrest⟩ := List.forall_mem_cons.1 h
      exact List.forall_mem_cons.2 ⟨isAlphanum_toUpper hc, hrest⟩

theorem isAlphanum_of_mem_exportWord (h : ∀ c ∈ cs, c.isAlphanum = true) :
    ∀ c ∈ exportWord cs, c.isAlphanum = true := by
  unfold exportWord
  split
  · exact isAlphanum_of_mem_capitalize h
  · exact isAlphanum_of_mem_upperFirst h

theorem exportWord_cons (c : Char) (w : List Char) :
    ∃ more, exportWord (c :: w) = c.toUpper :: more := by
  unfold exportWord
  split
  · exact ⟨_, rfl⟩
  · exact ⟨_, rfl⟩

theorem upperFirst_eq_self (h : cs.head?.any Char.isLower = false) : upperFirst cs = cs := by
  cases cs with
  | nil => rfl
  | cons c rest =>
      have hc : ¬ c.isLower = true := by simpa using h
      rw [upperFirst, Char.toUpper_eq_of_not_isLower hc]

theorem capitalize_eq_self (h : cs.head?.any Char.isLower = false)
    (htail : cs.tail.any Char.isUpper = false) : capitalize cs = cs := by
  cases cs with
  | nil => rfl
  | cons c rest =>
      have hc : ¬ c.isLower = true := by simpa using h
      have hrest : ∀ d ∈ rest, d.toLower = d := by
        intro d hd
        exact Char.toLower_eq_of_not_isUpper (List.any_eq_false.1 htail d hd)
      rw [capitalize, Char.toUpper_eq_of_not_isLower hc, List.map_congr_left hrest, List.map_id']

def compact (cs : List Char) : List Char :=
  if isAllCaps cs then capitalize cs else cs

theorem exported?_eq_some_iff {name r : String} : exported? name = some r ↔
    words name.toList ≠ [] ∧ compact ((words name.toList).flatMap exportWord) = r.toList := by
  unfold exported?
  cases hwords : words name.toList with
  | nil => simp
  | cons w ws =>
      change some (String.ofList (compact ((w :: ws).flatMap exportWord))) = some r ↔ _
      rw [Option.some.injEq, ← String.toList_inj, String.toList_ofList]
      simp

/-- Letters and digits, the first of them no small letter. A capital stands after the first only if
there is a small letter. -/
structure IsSpelling (cs : List Char) : Prop where
  ne_nil : cs ≠ []
  alphanum : ∀ c ∈ cs, c.isAlphanum = true
  head : cs.head?.any Char.isLower = false
  mixed : cs.tail.any Char.isUpper = true → cs.any Char.isLower = true

theorem isSpelling_compact (hne : cs ≠ []) (h : ∀ c ∈ cs, c.isAlphanum = true)
    (hhead : cs.head?.any Char.isLower = false) : IsSpelling (compact cs) := by
  unfold compact
  split
  · have halphanum := isAlphanum_of_mem_capitalize h
    obtain ⟨c, rest, rfl⟩ := List.exists_cons_of_ne_nil hne
    exact ⟨by simp [capitalize], halphanum, by simp [capitalize], by simp [capitalize]⟩
  · rename_i hcaps
    refine ⟨hne, h, hhead, fun htail => ?_⟩
    have hupper : cs.any Char.isUpper = true := by
      obtain ⟨c, hc, hup⟩ := List.any_eq_true.1 htail
      exact List.any_eq_true.2 ⟨c, List.mem_of_mem_tail hc, hup⟩
    simpa [isAllCaps, hupper] using hcaps

end

theorem exists_words_cons {cs : List Char} (h : words cs ≠ []) :
    ∃ c w ws, words cs = (c :: w) :: ws := by
  obtain ⟨w, ws, hwords⟩ := List.exists_cons_of_ne_nil h
  have hfull : w ≠ [] := by
    have hw : w ∈ words cs := hwords ▸ List.mem_cons_self
    simpa using (List.mem_filter.1 hw).2
  obtain ⟨c, w, rfl⟩ := List.exists_cons_of_ne_nil hfull
  exact ⟨c, w, ws, hwords⟩

theorem isSpelling_of_exported? {name r : String} (h : exported? name = some r) :
    IsSpelling r.toList := by
  obtain ⟨hne, hr⟩ := exported?_eq_some_iff.1 h
  obtain ⟨c, w, ws, hwords⟩ := exists_words_cons hne
  obtain ⟨more, hmore⟩ := exportWord_cons c w
  have halphanum : ∀ d ∈ (words name.toList).flatMap exportWord, d.isAlphanum = true := by
    intro d hd
    obtain ⟨v, hv, hd⟩ := List.mem_flatMap.1 hd
    exact isAlphanum_of_mem_exportWord (isAlphanum_of_mem_words hv) d hd
  rw [← hr]
  refine isSpelling_compact ?_ halphanum ?_
  · simp [hwords, hmore]
  · simp [hwords, hmore]

theorem exists_spelling {name : String} {c : Char}
    (h : name.toList.find? Char.isAlphanum = some c) :
    ∃ r, exported? name = some r ∧ IsSpelling r.toList ∧ r.toList.head? = some c.toUpper := by
  obtain ⟨w, ws, hwords⟩ := words_of_find? h
  obtain ⟨more, hmore⟩ := exportWord_cons c w
  have hr : exported? name =
      some (String.ofList (compact ((words name.toList).flatMap exportWord))) :=
    exported?_eq_some_iff.2 ⟨by simp [hwords], by simp⟩
  refine ⟨_, hr, isSpelling_of_exported? hr, ?_⟩
  rw [String.toList_ofList, hwords, List.flatMap_cons, hmore, compact]
  split
  · simp [capitalize]
  · rfl

theorem exported?_eq_self_iff {s : String} : exported? s = some s ↔ IsSpelling s.toList := by
  refine ⟨isSpelling_of_exported?, fun h => exported?_eq_some_iff.2 ?_⟩
  rw [words_of_alphanum h.ne_nil h.alphanum, List.flatMap_singleton]
  refine ⟨by simp, ?_⟩
  by_cases hcaps : isAllCaps s.toList = true
  · -- without a small letter only the first can be a capital, and there is nothing to lower
    have htail : s.toList.tail.any Char.isUpper = false := by
      refine Bool.eq_false_iff.2 fun hupper => ?_
      have hlower := h.mixed hupper
      simp [isAllCaps, hlower] at hcaps
    have hself := capitalize_eq_self h.head htail
    rw [exportWord, if_pos hcaps, hself, compact, if_pos hcaps, hself]
  · rw [exportWord, if_neg hcaps, upperFirst_eq_self h.head, compact, if_neg hcaps]

theorem exported_idempotent {name r : String} (h : exported? name = some r) :
    IsSpelling r.toList ∧ exported? r = some r := by
  have hspelling := isSpelling_of_exported? h
  exact ⟨hspelling, exported?_eq_self_iff.2 hspelling⟩

theorem exported_idempotent_letters :
    exported? "é1-a_B" = some "1ab" ∧ IsSpelling "1ab".toList ∧ exported? "1ab" = some "1ab" := by
  have h : exported? "é1-a_B" = some "1ab" := by decide +kernel
  exact ⟨h, exported_idempotent h⟩

def IsExported (cs : List Char) : Prop :=
  ∃ c rest, cs = c :: rest ∧ c.isUpper = true ∧ ∀ d ∈ rest, d.isAlphanum = true

def startsWithLetter (name : String) : Bool :=
  (name.toList.find? Char.isAlphanum).any Char.isAlpha

theorem exists_exported {name : String} (h : startsWithLetter name = true) :
    ∃ s, exported? name = some s ∧ IsExported s.toList := by
  obtain ⟨c, hfind, hc⟩ : ∃ c, name.toList.find? Char.isAlphanum = some c ∧ c.isAlpha = true := by
    cases hfind : name.toList.find? Char.isAlphanum with
    | none => simp [startsWithLetter, hfind] at h
    | some c => exact ⟨c, rfl, by simpa [startsWithLetter, hfind] using h⟩
  obtain ⟨s, hs, hspelling, hhead⟩ := exists_spelling hfind
  obtain ⟨rest, hrest⟩ := List.head?_eq_some_iff.1 hhead
  have hupper : c.toUpper.isUpper = true := by simpa using hc
  have halphanum := hspelling.alphanum
  rw [hrest] at halphanum
  exact ⟨s, hs, c.toUpper, rest, hrest, hupper, (List.forall_mem_cons.1 halphanum).2⟩

theorem isName_of_isExported {s : String} (h : IsExported s.toList) : Token.isName s = true := by
  obtain ⟨c, rest, hs, hc, hrest⟩ := h
  have hstart : isNameStart c = true := by simp [isNameStart, Char.isAlpha, hc]
  refine Token.isName_iff.2 ⟨c, rest, hs, (startsWord_of_isNameStart hstart).1, fun d hd =>
    Piece.isWord_of_isAlphanum (hrest d hd), Bool.eq_false_iff.2 fun hkey => ?_⟩
  have hlower : ∀ k ∈ keywords, k.toList.head?.any Char.isUpper = false := by decide
  have hhead := hlower s (by simpa [isKeyword] using hkey)
  simp [hs, hc] at hhead

end Gosmith.Go
