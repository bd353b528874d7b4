import Gosmith.Go.Name
import Mathlib.Data.List.Nodup
import Mathlib.Data.List.Range
import Mathlib.Order.Bounds.Defs

namespace Gosmith.Go

theorem toList_numbered (base : String) (n : Nat) :
    (numbered base n).toList = base.toList ++ Nat.toDigits 10 n := by
  simp [numbered, Nat.toList_repr]

theorem numbered_injective (base : String) : Function.Injective (numbered base) := by
  intro m n h
  have hlists := congrArg String.toList h
  simp only [toList_numbered, List.append_cancel_left_eq] at hlists
  have hvalues := congrArg (fun digits => Nat.ofDigitChars 10 digits 0) hlists
  simpa using hvalues

theorem firstFree_eq (base : String) (used : List String) (tries start : Nat) :
    ∃ n, start ≤ n ∧ firstFree base used tries start = numbered base n ∧
      (∀ m, start ≤ m → m < n → numbered base m ∈ used) ∧
      (numbered base n ∈ used → n = start + tries) := by
  induction tries generalizing start with
  | zero => exact ⟨start, le_rfl, rfl, fun m h1 h2 => absurd h2 (by omega), fun _ => rfl⟩
  | succ tries ih =>
      simp only [firstFree, List.contains_iff_mem]
      split
      · rename_i hused
        obtain ⟨n, hle, heq, hbelow, hlast⟩ := ih (start + 1)
        refine ⟨n, by omega, heq, ?_, fun h => by have := hlast h; omega⟩
        intro m h1 h2
        rcases Nat.eq_or_lt_of_le h1 with rfl | h
        · exact hused
        · exact hbelow m h h2
      · rename_i hfree
        exact ⟨start, le_rfl, rfl, fun m h1 h2 => absurd h2 (by omega), fun h => absurd h hfree⟩

theorem exists_numbered_free (base : String) (used : List String) (start : Nat) :
    ∃ m, start ≤ m ∧ m ≤ start + used.length ∧ numbered base m ∉ used := by
  by_contra hall
  push Not at hall
  let candidates := (List.range (used.length + 1)).map fun i => numbered base (start + i)
  have hnodup : candidates.Nodup := by
    refine List.nodup_range.map ?_
    intro i j h
    have := numbered_injective base h
    omega
  have hsub : candidates ⊆ used := by
    intro name h
    obtain ⟨i, hi, rfl⟩ := List.mem_map.1 h
    have hlt := List.mem_range.1 hi
    exact hall (start + i) (by omega) (by omega)
  have hlen : used.length + 1 ≤ used.length := by
    simpa [candidates] using List.Nodup.length_le_of_subset hnodup hsub
  omega

theorem firstFree_not_mem (base : String) (used : List String) (start : Nat) :
    firstFree base used used.length start ∉ used := by
  obtain ⟨n, hle, heq, hbelow, hlast⟩ := firstFree_eq base used used.length start
  rw [heq]
  intro hmem
  obtain ⟨m, hm, hmle, hfree⟩ := exists_numbered_free base used start
  have hn := hlast hmem
  rcases Nat.lt_or_ge m n with h | h
  · exact hfree (hbelow m hm h)
  · have : m = n := by omega
    exact hfree (this ▸ hmem)

theorem uniqueName_not_mem (base : String) (used : List String) : uniqueName base used ∉ used := by
  unfold uniqueName
  split
  · exact firstFree_not_mem base used 2
  · rename_i h
    simp only [Bool.or_eq_true, List.contains_iff_mem, not_or] at h
    exact h.1

theorem uniqueName_eq (base : String) (used : List String) :
    (uniqueName base used = base ∧ isKeyword base = false) ∨
      ∃ n, 2 ≤ n ∧ uniqueName base used = numbered base n := by
  unfold uniqueName
  split
  · obtain ⟨n, hle, heq, -, -⟩ := firstFree_eq base used used.length 2
    exact .inr ⟨n, hle, heq⟩
  · rename_i h
    simp only [Bool.or_eq_true, not_or, Bool.not_eq_true] at h
    exact .inl ⟨rfl, h.2⟩

theorem keywords_no_digit {k : String} (hk : k ∈ keywords) {c : Char} (hc : c ∈ k.toList) :
    c.isDigit = false := by
  have hall : ∀ k ∈ keywords, (k.toList.all fun c => !c.isDigit) = true := by decide
  simpa using List.all_eq_true.1 (hall k hk) c hc

theorem isKeyword_numbered (base : String) (n : Nat) : isKeyword (numbered base n) = false := by
  rw [isKeyword, ← Bool.not_eq_true, List.contains_iff_mem]
  intro hmem
  obtain ⟨d, digits, hd⟩ := List.exists_cons_of_ne_nil (Nat.toDigits_ne_nil (n := n) (b := 10))
  have hdigit : d.isDigit = true :=
    Nat.isDigit_of_mem_toDigits (b := 10) (by decide) (by decide) (hd ▸ List.mem_cons_self)
  have hin : d ∈ (numbered base n).toList := by
    rw [toList_numbered, hd]
    simp
  simp [keywords_no_digit hmem hin] at hdigit

theorem isKeyword_uniqueName (base : String) (used : List String) :
    isKeyword (uniqueName base used) = false := by
  rcases uniqueName_eq base used with ⟨heq, hk⟩ | ⟨n, -, heq⟩
  · rw [heq, hk]
  · rw [heq, isKeyword_numbered]

inductive Seeks (base : String) (used : List String) : Nat → Nat → Prop
  | free {n : Nat} : numbered base n ∉ used → Seeks base used n n
  | taken {n m : Nat} : numbered base n ∈ used → Seeks base used (n + 1) m → Seeks base used n m

section

variable {base : String} {used : List String} {start n : Nat}

theorem isLeast_of_seeks (h : Seeks base used start n) :
    IsLeast {m | start ≤ m ∧ numbered base m ∉ used} n := by
  induction h with
  | free hfree => exact ⟨⟨le_rfl, hfree⟩, fun m hm => hm.1⟩
  | taken hused _ ih =>
      obtain ⟨⟨hle, hfree⟩, hleast⟩ := ih
      refine ⟨⟨by omega, hfree⟩, ?_⟩
      rintro k ⟨hk, hkfree⟩
      rcases Nat.eq_or_lt_of_le hk with rfl | hlt
      · exact absurd hused hkfree
      · exact hleast ⟨hlt, hkfree⟩

theorem seeks_of_isLeast (h : IsLeast {m | start ≤ m ∧ numbered base m ∉ used} n) :
    Seeks base used start n := by
  obtain ⟨⟨hle, hfree⟩, hleast⟩ := h
  induction hle using Nat.decreasingInduction with
  | self => exact .free hfree
  | of_succ k hk ih =>
      have hused : numbered base k ∈ used := by
        by_contra hkfree
        have := hleast ⟨le_rfl, hkfree⟩
        omega
      refine .taken hused (ih ?_)
      rintro m ⟨hm, hmfree⟩
      exact hleast ⟨by omega, hmfree⟩

end

theorem firstFree_seeks (base : String) (used : List String) (start : Nat) :
    ∃ n, Seeks base used start n ∧ firstFree base used used.length start = numbered base n := by
  obtain ⟨n, hle, heq, hbelow, -⟩ := firstFree_eq base used used.length start
  have hfree := firstFree_not_mem base used start
  rw [heq] at hfree
  refine ⟨n, seeks_of_isLeast ⟨⟨hle, hfree⟩, ?_⟩, heq⟩
  rintro m ⟨hm, hmfree⟩
  by_contra hlt
  exact hmfree (hbelow m hm (by omega))

theorem uniqueName_least (base : String) (used : List String) :
    uniqueName base used ∉ used ∧ isKeyword (uniqueName base used) = false ∧
    (base ∉ used ∧ isKeyword base = false → uniqueName base used = base) ∧
    (base ∈ used ∨ isKeyword base = true → ∃ n, Seeks base used 2 n ∧
      IsLeast {m | 2 ≤ m ∧ numbered base m ∉ used} n ∧ n ≤ used.length + 2 ∧
      uniqueName base used = numbered base n) := by
  refine ⟨uniqueName_not_mem base used, isKeyword_uniqueName base used, ?_, ?_⟩
  · rintro ⟨hfree, hkey⟩
    simp [uniqueName, hfree, hkey]
  · intro htaken
    obtain ⟨n, hseeks, heq⟩ := firstFree_seeks base used 2
    have hleast := isLeast_of_seeks hseeks
    obtain ⟨m, hm, hbound, hfree⟩ := exists_numbered_free base used 2
    have hnm : n ≤ m := hleast.2 ⟨hm, hfree⟩
    refine ⟨n, hseeks, hleast, by omega, ?_⟩
    rw [← heq, uniqueName, if_pos (by simpa using htaken)]

theorem uniqueName_least_keyword :
    isKeyword "map" = true ∧ "map" ∉ ["map2", "map4"] ∧
    ∃ n, Seeks "map" ["map2", "map4"] 2 n ∧
      IsLeast {m | 2 ≤ m ∧ numbered "map" m ∉ ["map2", "map4"]} n ∧
      n ≤ 4 ∧ uniqueName "map" ["map2", "map4"] = numbered "map" n ∧ numbered "map" n = "map3" := by
  have hkey : isKeyword "map" = true := by decide
  obtain ⟨n, hseeks, hleast, hbound, heq⟩ :=
    (uniqueName_least "map" ["map2", "map4"]).2.2.2 (.inr hkey)
  have hname : uniqueName "map" ["map2", "map4"] = "map3" := by decide +kernel
  exact ⟨hkey, by decide, n, hseeks, hleast, hbound, heq, heq ▸ hname⟩

end Gosmith.Go
