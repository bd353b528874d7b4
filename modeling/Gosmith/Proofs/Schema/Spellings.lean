import Gosmith.Proofs.Schema.ExportedName

namespace Gosmith.Go

open Gosmith.Text

structure IsPlain (w : List Char) : Prop where
  ne_nil : w ≠ []
  plain : ∀ c ∈ w, c.isLower = true ∨ c.isDigit = true

def IsWord (w : List Char) : Prop :=
  w ≠ [] ∧ ∀ c ∈ w, c.isAlphanum = true

def IsRun (cs : List Char) : Prop :=
  ∀ c ∈ cs, c.isAlphanum = false

inductive Separated : List (List Char) → List Char → Prop
  | last {left w right : List Char} (hl : IsRun left) (hr : IsRun right) :
      Separated [w] (left ++ w ++ right)
  | cons {left w rest : List Char} {c : Char} {ws : List (List Char)} (hl : IsRun left)
      (hc : c.isAlphanum = false) (h : Separated ws rest) :
      Separated (w :: ws) (left ++ w ++ c :: rest)

def camel : List (List Char) → List Char
  | [] => []
  | w :: ws => w ++ ws.flatMap upperFirst

def pascal (ws : List (List Char)) : List Char :=
  ws.flatMap upperFirst

inductive Writes (ws : List (List Char)) : List Char → Prop
  | snake {cs : List Char} (h : Separated ws cs) : Writes ws cs
  | capitals {cs : List Char} (h : Separated (ws.map (List.map Char.toUpper)) cs) : Writes ws cs
  | camel {cs : List Char} (h : Separated [camel ws] cs) : Writes ws cs
  | pascal {cs : List Char} (h : Separated [pascal ws] cs) : Writes ws cs

theorem words_append_cons {c : Char} (hc : c.isAlphanum = false) (xs ys : List Char) :
    words (xs ++ c :: ys) = words xs ++ words ys := by
  have hsep : (fun c : Char => !c.isAlphanum) c = true := by simp [hc]
  rw [words, splitWhen_eq_splitOnP, List.splitOnP_append_cons xs ys hsep, List.filter_append,
    ← splitWhen_eq_splitOnP, ← splitWhen_eq_splitOnP]
  rfl

section

variable {cs : List Char} {ws : List (List Char)}

theorem words_isRun_append {left : List Char} (h : IsRun left) : words (left ++ cs) = words cs := by
  induction left with
  | nil => rfl
  | cons c left ih =>
      obtain ⟨hc, hleft⟩ := List.forall_mem_cons.1 h
      have hskip := words_append_cons hc [] (left ++ cs)
      rwa [ih hleft] at hskip

theorem words_append_isRun {right : List Char} (h : IsRun right) :
    words (cs ++ right) = words cs := by
  cases right with
  | nil => rw [List.append_nil]
  | cons c right =>
      obtain ⟨hc, hright⟩ := List.forall_mem_cons.1 h
      have hnone : words (right ++ []) = [] := words_isRun_append hright
      rw [List.append_nil] at hnone
      rw [words_append_cons hc, hnone, List.append_nil]

theorem Separated.words_eq (h : Separated ws cs) (hws : ∀ w ∈ ws, IsWord w) : words cs = ws := by
  induction h with
  | last hl hr =>
      obtain ⟨hne, hw⟩ := hws _ List.mem_cons_self
      rw [words_append_isRun hr, words_isRun_append hl, words_of_alphanum hne hw]
  | cons hl hc h ih =>
      obtain ⟨⟨hne, hw⟩, hrest⟩ := List.forall_mem_cons.1 hws
      rw [words_append_cons hc, words_isRun_append hl, words_of_alphanum hne hw, ih hrest]
      rfl

theorem separated_single (w : List Char) : Separated [w] w := by
  have hnone : IsRun [] := by simp [IsRun]
  simpa using @Separated.last [] w [] hnone hnone

theorem separated_intercalate (hne : ws ≠ []) : Separated ws (['_'].intercalate ws) := by
  have hnone : IsRun [] := by simp [IsRun]
  induction ws with
  | nil => exact absurd rfl hne
  | cons w ws ih =>
      cases ws with
      | nil => simpa using separated_single w
      | cons v ws => simpa using @Separated.cons [] w _ '_' _ hnone (by decide) (ih (by simp))

theorem isAllCaps_toUpper (w : List Char) :
    isAllCaps (w.map Char.toUpper) = w.any Char.isAlpha := by
  simp [isAllCaps, Function.comp_def]

namespace IsPlain

variable {w : List Char} (h : IsPlain w)

include h

theorem isWord : IsWord w := by
  refine ⟨h.ne_nil, fun c hc => ?_⟩
  rcases h.plain c hc with hlower | hdigit
  · simp [Char.isAlphanum, Char.isAlpha, hlower]
  · simp [Char.isAlphanum, hdigit]

theorem isUpper_eq_false : ∀ c ∈ w, c.isUpper = false := by
  intro c hc
  rcases h.plain c hc with hlower | hdigit
  · exact Bool.eq_false_iff.2 (Char.not_isUpper_of_isLower hlower)
  · refine Bool.eq_false_iff.2 fun hupper => ?_
    have halpha : c.isAlpha = true := by simp [Char.isAlpha, hupper]
    simp [isDigit_of_isAlpha halpha] at hdigit

theorem map_toLower : w.map Char.toLower = w := by
  refine (List.map_congr_left fun c hc => ?_).trans w.map_id'
  exact Char.toLower_eq_of_not_isUpper (by simp [h.isUpper_eq_false c hc])

theorem exportWord_eq : exportWord w = upperFirst w := by
  have hupper : w.any Char.isUpper = false := List.any_eq_false.2 fun c hc => by
    simp [h.isUpper_eq_false c hc]
  rw [exportWord, if_neg (by simp [isAllCaps, hupper])]

theorem exportWord_toUpper : exportWord (w.map Char.toUpper) = upperFirst w := by
  obtain ⟨c, rest, rfl⟩ := List.exists_cons_of_ne_nil h.ne_nil
  rw [exportWord, isAllCaps_toUpper]
  split
  · have hrest : rest.map Char.toLower = rest := (List.cons.inj h.map_toLower).2
    simp [capitalize, upperFirst, Function.comp_def, hrest]
  · -- without a letter there is nothing that capitals change
    rename_i hletter
    have hrest : rest.map Char.toUpper = rest := by
      refine (List.map_congr_left fun d hd => ?_).trans rest.map_id'
      refine Char.toUpper_eq_of_not_isLower fun hlower => hletter ?_
      exact List.any_eq_true.2 ⟨d, List.mem_cons_of_mem _ hd, by simp [Char.isAlpha, hlower]⟩
    simp [upperFirst, hrest]

end IsPlain

theorem capitalize_capitalize (cs : List Char) : capitalize (capitalize cs) = capitalize cs := by
  cases cs with
  | nil => rfl
  | cons c rest => simp [capitalize]

theorem compact_capitalize (cs : List Char) : compact (capitalize cs) = capitalize cs := by
  rw [compact, capitalize_capitalize, ite_self]

theorem compact_exportWord (cs : List Char) :
    compact (exportWord cs) = compact (upperFirst cs) := by
  by_cases hcaps : isAllCaps cs = true
  · have hhead : cs.head?.any Char.isLower = false := by
      cases cs with
      | nil => rfl
      | cons c rest =>
          simp [isAllCaps] at hcaps
          simp [hcaps]
    rw [exportWord, if_pos hcaps, compact_capitalize, upperFirst_eq_self hhead, compact,
      if_pos hcaps]
  · rw [exportWord, if_neg hcaps]

theorem upperFirst_append {w : List Char} (hne : w ≠ []) (cs : List Char) :
    upperFirst (w ++ cs) = upperFirst w ++ cs := by
  obtain ⟨c, rest, rfl⟩ := List.exists_cons_of_ne_nil hne
  rfl

theorem upperFirst_camel (hws : ∀ w ∈ ws, IsPlain w) : upperFirst (camel ws) = pascal ws := by
  cases ws with
  | nil => rfl
  | cons w ws => exact upperFirst_append (hws w List.mem_cons_self).ne_nil _

theorem upperFirst_pascal (hws : ∀ w ∈ ws, IsPlain w) : upperFirst (pascal ws) = pascal ws := by
  cases ws with
  | nil => rfl
  | cons w ws =>
      obtain ⟨c, rest, rfl⟩ := List.exists_cons_of_ne_nil (hws w List.mem_cons_self).ne_nil
      simp [pascal, upperFirst]

theorem isWord_append_flatMap {w : List Char} (hw : IsWord w) (hws : ∀ w ∈ ws, IsPlain w) :
    IsWord (w ++ ws.flatMap upperFirst) := by
  refine ⟨by simp [hw.1], List.forall_mem_append.2 ⟨hw.2, fun c hc => ?_⟩⟩
  obtain ⟨v, hv, hc⟩ := List.mem_flatMap.1 hc
  exact isAlphanum_of_mem_upperFirst (hws v hv).isWord.2 c hc

theorem isWord_camel (hne : ws ≠ []) (hws : ∀ w ∈ ws, IsPlain w) : IsWord (camel ws) := by
  obtain ⟨w, ws, rfl⟩ := List.exists_cons_of_ne_nil hne
  obtain ⟨hw, hws⟩ := List.forall_mem_cons.1 hws
  exact isWord_append_flatMap hw.isWord hws

theorem isWord_pascal (hne : ws ≠ []) (hws : ∀ w ∈ ws, IsPlain w) : IsWord (pascal ws) := by
  rw [← upperFirst_camel hws]
  obtain ⟨hcamel, halphanum⟩ := isWord_camel hne hws
  refine ⟨?_, isAlphanum_of_mem_upperFirst halphanum⟩
  obtain ⟨c, rest, hcs⟩ := List.exists_cons_of_ne_nil hcamel
  simp [hcs, upperFirst]

theorem isWord_toUpper {w : List Char} (h : IsWord w) : IsWord (w.map Char.toUpper) := by
  refine ⟨by simpa using h.1, fun c hc => ?_⟩
  obtain ⟨d, hd, rfl⟩ := List.mem_map.1 hc
  exact isAlphanum_toUpper (h.2 d hd)

theorem exported?_of_writes {name : String} (hne : ws ≠ []) (hws : ∀ w ∈ ws, IsPlain w)
    (h : Writes ws name.toList) :
    exported? name = some (String.ofList (compact (pascal ws))) := by
  rw [exported?_eq_some_iff, String.toList_ofList]
  cases h with
  | snake h =>
      have hparts : ws.flatMap exportWord = pascal ws :=
        List.flatMap_congr fun w hw => (hws w hw).exportWord_eq
      rw [h.words_eq fun w hw => (hws w hw).isWord, hparts]
      exact ⟨hne, rfl⟩
  | capitals h =>
      have hupper : ∀ w ∈ ws.map (List.map Char.toUpper), IsWord w := by
        intro w hw
        obtain ⟨v, hv, rfl⟩ := List.mem_map.1 hw
        exact isWord_toUpper (hws v hv).isWord
      have hparts : (ws.map (List.map Char.toUpper)).flatMap exportWord = pascal ws := by
        rw [List.flatMap_map]
        exact List.flatMap_congr fun w hw => (hws w hw).exportWord_toUpper
      rw [h.words_eq hupper, hparts]
      exact ⟨by simpa using hne, rfl⟩
  | camel h =>
      rw [h.words_eq (by simpa using isWord_camel hne hws), List.flatMap_singleton,
        compact_exportWord, upperFirst_camel hws]
      exact ⟨by simp, rfl⟩
  | pascal h =>
      rw [h.words_eq (by simpa using isWord_pascal hne hws), List.flatMap_singleton,
        compact_exportWord, upperFirst_pascal hws]
      exact ⟨by simp, rfl⟩

theorem spellings_agree (hne : ws ≠ []) (hws : ∀ w ∈ ws, IsPlain w) :
    (∀ cs ∈ [['_'].intercalate ws, ['_'].intercalate (ws.map (List.map Char.toUpper)), camel ws,
        pascal ws],
      exported? (String.ofList cs) = some (String.ofList (compact (pascal ws)))) ∧
    ∀ name : String, Writes ws name.toList →
      exported? name = some (String.ofList (compact (pascal ws))) := by
  have hall : ∀ name : String, Writes ws name.toList →
      exported? name = some (String.ofList (compact (pascal ws))) :=
    fun name h => exported?_of_writes hne hws h
  refine ⟨?_, hall⟩
  simp only [List.forall_mem_cons]
  refine ⟨hall _ (.snake ?_), hall _ (.capitals ?_), hall _ (.camel ?_), hall _ (.pascal ?_),
    by simp⟩
  · rw [String.toList_ofList]
    exact separated_intercalate hne
  · rw [String.toList_ofList]
    exact separated_intercalate (by simpa using hne)
  · rw [String.toList_ofList]
    exact separated_single _
  · rw [String.toList_ofList]
    exact separated_single _

end

theorem spellings_agree_letters :
    (∀ w ∈ [['a'], ['1'], ['b']], IsPlain w) ∧ Writes [['a'], ['1'], ['b']] "é-a 1__b?".toList ∧
    ∀ name ∈ ["a_1_b", "A_1_B", "a1B", "A1B", "é-a 1__b?"], exported? name = some "A1b" := by
  have hws : ∀ w ∈ [['a'], ['1'], ['b']], IsPlain w := by
    simp only [List.forall_mem_cons]
    exact ⟨⟨by simp, by simp⟩, ⟨by simp, by simp⟩, ⟨by simp, by simp⟩, by simp⟩
  have hwrites : Writes [['a'], ['1'], ['b']] "é-a 1__b?".toList := by
    have hb : Separated [['b']] "_b?".toList :=
      @Separated.last ['_'] ['b'] ['?'] (by simp [IsRun]) (by simp [IsRun])
    have h1 : Separated [['1'], ['b']] "1__b?".toList :=
      @Separated.cons [] ['1'] _ '_' _ (by simp [IsRun]) (by decide) hb
    exact .snake (@Separated.cons ['é', '-'] ['a'] _ ' ' _ (by simp [IsRun]) (by decide) h1)
  obtain ⟨hfour, hall⟩ := spellings_agree (by simp) hws
  have hr : compact (pascal [['a'], ['1'], ['b']]) = ['A', '1', 'b'] := by decide +kernel
  rw [hr] at hfour hall
  simp only [List.forall_mem_cons] at hfour ⊢
  obtain ⟨hsnake, hcapitals, hcamel, hpascal, -⟩ := hfour
  exact ⟨by simpa using hws, hwrites, hsnake, hcapitals, hcamel, hpascal, hall _ hwrites, by simp⟩

end Gosmith.Go
