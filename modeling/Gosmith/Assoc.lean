namespace Gosmith.Assoc

variable {κ α : Type} [DecidableEq κ]

def set (key : κ) (value : α) : List (κ × α) → List (κ × α)
  | [] => [(key, value)]
  | (k, v) :: rest => if k = key then (k, value) :: rest else (k, v) :: set key value rest

def erase (key : κ) : List (κ × α) → List (κ × α)
  | [] => []
  | (k, v) :: rest => if k = key then rest else (k, v) :: erase key rest

def ofList (pairs : List (κ × α)) : List (κ × α) :=
  pairs.foldl (fun m (k, v) => set k v m) []

theorem mem_set {p : κ × α} {key : κ} {value : α} {l : List (κ × α)}
    (h : p ∈ set key value l) : p = (key, value) ∨ p ∈ l := by
  induction l with
  | nil => simpa [set] using h
  | cons q l ih =>
      simp only [set] at h
      split at h
      · rename_i hkey
        rcases List.mem_cons.1 h with rfl | h
        · exact .inl (by rw [hkey])
        · exact .inr (List.mem_cons_of_mem _ h)
      · rcases List.mem_cons.1 h with rfl | h
        · exact .inr List.mem_cons_self
        · exact (ih h).imp_right (List.mem_cons_of_mem _)

theorem lookup_set [BEq κ] [LawfulBEq κ] (k key : κ) (value : α) (l : List (κ × α)) :
    (set key value l).lookup k = if k = key then some value else l.lookup k := by
  induction l with
  | nil =>
      by_cases h : k = key
      · simp [set, h]
      · simp [set, List.lookup_cons, h, beq_eq_false_iff_ne.2 h]
  | cons q l ih =>
      obtain ⟨first, v⟩ := q
      simp only [set]
      split
      · rename_i hkey
        subst hkey
        by_cases h : k = first
        · simp [h]
        · simp [List.lookup_cons, h, beq_eq_false_iff_ne.2 h]
      · rename_i hkey
        by_cases h : k = first
        · simp [h, hkey]
        · simp [List.lookup_cons, beq_eq_false_iff_ne.2 h, ih]

theorem any_set (f : κ → Bool) (key : κ) (value : α) (l : List (κ × α)) :
    (set key value l).any (fun e => f e.1) = (l.any (fun e => f e.1) || f key) := by
  induction l with
  | nil => simp [set]
  | cons q l ih =>
      obtain ⟨k, v⟩ := q
      simp only [set]
      split
      · rename_i hkey
        simp [hkey, Bool.or_comm]
      · simp [ih, Bool.or_assoc]

end Gosmith.Assoc
