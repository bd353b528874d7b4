import Gosmith.Text.Split
import Mathlib.Data.List.Basic

namespace Gosmith.Text

theorem splitWhen_eq_splitOnP {α : Type} (p : α → Bool) (xs : List α) :
    splitWhen p xs = xs.splitOnP p := by
  induction xs with
  | nil => rfl
  | cons x xs ih =>
      rw [splitWhen, List.splitOnP_cons_eq_if_modifyHead, ih]
      split
      · rfl
      · cases hparts : xs.splitOnP p with
        | nil => exact absurd hparts (List.splitOnP_ne_nil p xs)
        | cons part parts => rfl

theorem lines_eq_splitOn (text : String) :
    lines text = (text.toList.splitOn '\n').map String.ofList := by
  rw [lines, splitWhen_eq_splitOnP]
  rfl

theorem count_eq_count (c : Char) (cs : List Char) : count c cs = cs.count c :=
  List.count_eq_length_filter.symm

theorem length_lines (text : String) : (lines text).length = text.toList.count '\n' + 1 := by
  rw [lines_eq_splitOn, List.length_map, List.splitOn]
  induction text.toList with
  | nil => rfl
  | cons c cs ih =>
      rw [List.splitOnP_cons_eq_if_modifyHead]
      by_cases hc : c = '\n'
      · rw [if_pos (by simpa using hc), List.length_cons, ih, hc, List.count_cons_self]
      · rw [if_neg (by simpa using hc), List.length_modifyHead, ih, List.count_cons_of_ne hc]

theorem lines_intercalate {ls : List String} (hne : ls ≠ []) (h : ∀ l ∈ ls, '\n' ∉ l.toList) :
    lines ("\n".intercalate ls) = ls := by
  have hparts : ∀ cs ∈ ls.map String.toList, '\n' ∉ cs := by
    intro cs hcs
    obtain ⟨l, hl, rfl⟩ := List.mem_map.1 hcs
    exact h l hl
  have hsep : "\n".toList = ['\n'] := rfl
  rw [lines_eq_splitOn, String.toList_intercalate, hsep,
    List.splitOn_intercalate '\n' hparts (by simpa using hne), List.map_map]
  simp [Function.comp_def]

theorem of_mem_splitWhen {α : Type} {p : α → Bool} {xs part : List α} (h : part ∈ splitWhen p xs)
    {a : α} (ha : a ∈ part) : p a = false := by
  induction xs generalizing part with
  | nil =>
      rw [splitWhen, List.mem_singleton] at h
      simp [h] at ha
  | cons x xs ih =>
      rw [splitWhen] at h
      split at h
      · rcases List.mem_cons.1 h with rfl | h
        · simp at ha
        · exact ih h ha
      · rename_i hx
        cases hparts : splitWhen p xs with
        | nil =>
            rw [splitWhen_eq_splitOnP] at hparts
            exact absurd hparts (List.splitOnP_ne_nil _ _)
        | cons first rest =>
            rw [hparts] at h ih
            rcases List.mem_cons.1 h with rfl | h
            · rcases List.mem_cons.1 ha with rfl | ha
              · simpa using hx
              · exact ih List.mem_cons_self ha
            · exact ih (List.mem_cons_of_mem _ h) ha

theorem notMem_of_mem_splitWhen {sep : Char} {cs part : List Char}
    (h : part ∈ splitWhen (· == sep) cs) : sep ∉ part := by
  intro hsep
  simpa using of_mem_splitWhen h hsep

theorem notMem_of_mem_lines {text l : String} (h : l ∈ lines text) : '\n' ∉ l.toList := by
  obtain ⟨part, hpart, rfl⟩ := List.mem_map.1 h
  rw [String.toList_ofList]
  exact notMem_of_mem_splitWhen hpart

end Gosmith.Text
