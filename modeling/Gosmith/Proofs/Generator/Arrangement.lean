import Gosmith.Proofs.Generator.Printing

namespace Gosmith.Generator

open Gosmith.Go

variable {ds ms pending rest : List Declaration} {d m : Declaration} {r : String}

def inKindOrder (ds : List Declaration) : List Declaration :=
  [Declaration.Kind.const, .var, .type, .func].flatMap fun k => ds.filter (·.kind == k)

theorem kindRank_trans (a b c : Declaration)
    (hab : decide (kindRank a.kind ≤ kindRank b.kind) = true)
    (hbc : decide (kindRank b.kind ≤ kindRank c.kind) = true) :
    decide (kindRank a.kind ≤ kindRank c.kind) = true := by
  simp only [decide_eq_true_eq] at hab hbc ⊢
  omega

theorem kindRank_total (a b : Declaration) :
    (decide (kindRank a.kind ≤ kindRank b.kind) ||
      decide (kindRank b.kind ≤ kindRank a.kind)) = true := by
  simp only [Bool.or_eq_true, decide_eq_true_eq]
  omega

theorem filter_sortByKind (ds : List Declaration) (k : Declaration.Kind) :
    (sortByKind ds).filter (·.kind == k) = ds.filter (·.kind == k) := by
  have hperm : (sortByKind ds).Perm ds := List.mergeSort_perm _ _
  have hsame : (ds.filter (·.kind == k)).Pairwise
      fun a b => decide (kindRank a.kind ≤ kindRank b.kind) = true := by
    refine List.pairwise_iff_forall_sublist.2 fun {a b} hab => ?_
    have ha : a ∈ ds.filter (·.kind == k) := hab.subset (by simp)
    have hb : b ∈ ds.filter (·.kind == k) := hab.subset (by simp)
    simp only [List.mem_filter, beq_iff_eq] at ha hb
    simp [ha.2, hb.2]
  have hsub : (ds.filter (·.kind == k)).Sublist (sortByKind ds) :=
    List.sublist_mergeSort kindRank_trans kindRank_total hsame List.filter_sublist
  -- a sublist with as many declarations of the kind as there are
  have hfilter := hsub.filter (·.kind == k)
  rw [List.filter_filter] at hfilter
  simp only [Bool.and_self] at hfilter
  exact (hfilter.eq_of_length (hperm.filter _).length_eq.symm).symm

theorem eq_inKindOrder (h : ds.Pairwise fun a b => kindRank a.kind ≤ kindRank b.kind) :
    ds = inKindOrder ds := by
  induction ds with
  | nil => rfl
  | cons d ds ih =>
      obtain ⟨hd, hds⟩ := List.pairwise_cons.1 h
      -- no declaration of an earlier kind comes after the first one
      have hnone (k : Declaration.Kind) (hk : kindRank k < kindRank d.kind) :
          ds.filter (·.kind == k) = [] := by
        refine List.filter_eq_nil_iff.2 fun a ha heq => ?_
        have hle := hd a ha
        rw [beq_iff_eq.1 heq] at hle
        omega
      have hrest := ih hds
      simp only [inKindOrder, List.flatMap_cons, List.flatMap_nil, List.append_nil] at hrest ⊢
      cases hkind : d.kind with
      | const => simpa [hkind] using hrest
      | var =>
          rw [hkind] at hnone
          simp only [hnone .const (by decide), List.nil_append] at hrest
          simpa [hkind, hnone .const (by decide)] using hrest
      | type =>
          rw [hkind] at hnone
          simp only [hnone .const (by decide), hnone .var (by decide), List.nil_append] at hrest
          simpa [hkind, hnone .const (by decide), hnone .var (by decide)] using hrest
      | func =>
          rw [hkind] at hnone
          simp only [hnone .const (by decide), hnone .var (by decide), hnone .type (by decide),
            List.nil_append] at hrest
          simpa [hkind, hnone .const (by decide), hnone .var (by decide), hnone .type (by decide)]
            using hrest

theorem sortByKind_eq (ds : List Declaration) : sortByKind ds = inKindOrder ds := by
  have hsorted : (sortByKind ds).Pairwise fun a b => kindRank a.kind ≤ kindRank b.kind := by
    simpa only [sortByKind, decide_eq_true_eq] using
      List.pairwise_mergeSort kindRank_trans kindRank_total ds
  rw [eq_inKindOrder hsorted]
  simp only [inKindOrder, filter_sortByKind]

theorem isMethodOf_iff {types : List String} :
    isMethodOf types d = true ↔ ∃ r ∈ types, d.receiver = some r := by
  cases hr : d.receiver with
  | none => simp [isMethodOf, hr]
  | some r => simp [isMethodOf, hr]

theorem isMethodOf_singleton : isMethodOf [r] d = true ↔ d.receiver = some r := by
  simp [isMethodOf_iff]

theorem isMethodOf_of_mem {types : List String} (hr : r ∈ types) (hm : isMethodOf [r] m = true) :
    isMethodOf types m = true :=
  isMethodOf_iff.2 ⟨r, hr, isMethodOf_singleton.1 hm⟩

theorem isMethodOf_of_notMem {types : List String} (hr : r ∉ types) (hm : isMethodOf [r] m = true) :
    isMethodOf types m = false := by
  simp [isMethodOf, isMethodOf_singleton.1 hm, hr]

theorem isMethodOf_nil (d : Declaration) : isMethodOf [] d = false := by
  cases hr : d.receiver with
  | none => simp [isMethodOf, hr]
  | some r => simp [isMethodOf, hr]

theorem isMethodOf_append (as bs : List String) :
    isMethodOf (as ++ bs) d = (isMethodOf as d || isMethodOf bs d) := by
  cases hr : d.receiver with
  | none => simp [isMethodOf, hr]
  | some r => simp [isMethodOf, hr]

theorem isMethodOf_cons (name : String) (names : List String) :
    isMethodOf (name :: names) d = (isMethodOf [name] d || isMethodOf names d) :=
  isMethodOf_append [name] names

theorem isMethodOf_other {name : String} (hne : r ≠ name) (h : isMethodOf [r] d = true) :
    isMethodOf [name] d = false :=
  isMethodOf_of_notMem (by simpa using hne) h

open placeMethods (take)

theorem take_cons (name : String) (names : List String) (ms : List Declaration) :
    take (name :: names) ms =
      (ms.filter (isMethodOf [name]) ++ (take names (ms.filter fun m => !isMethodOf [name] m)).1,
        (take names (ms.filter fun m => !isMethodOf [name] m)).2) := by
  simp [take, List.partition_eq_filter_filter, Function.comp_def]

theorem take_snd (names : List String) (ms : List Declaration) :
    (take names ms).2 = ms.filter fun m => !isMethodOf names m := by
  induction names generalizing ms with
  | nil => simp [take, isMethodOf_nil]
  | cons name names ih =>
      rw [take_cons, ih, List.filter_filter]
      refine List.filter_congr fun m _ => ?_
      rw [isMethodOf_cons name names, Bool.not_or, Bool.and_comm]

theorem mem_take {names : List String} (h : m ∈ (take names ms).1) :
    m ∈ ms ∧ isMethodOf names m = true := by
  induction names generalizing ms with
  | nil => simp [take] at h
  | cons name names ih =>
      rw [isMethodOf_cons]
      rw [take_cons, List.mem_append, List.mem_filter] at h
      rcases h with ⟨hm, hname⟩ | h
      · exact ⟨hm, by simp [hname]⟩
      · obtain ⟨hm, hnames⟩ := ih h
        exact ⟨List.mem_of_mem_filter hm, by simp [hnames]⟩

theorem filter_take (r : String) (names : List String) (ms : List Declaration) :
    (take names ms).1.filter (isMethodOf [r]) =
      if r ∈ names then ms.filter (isMethodOf [r]) else [] := by
  induction names generalizing ms with
  | nil => simp [take]
  | cons name names ih =>
      rw [take_cons, List.filter_append, ih]
      by_cases hr : r = name
      · subst hr
        simp [List.filter_filter]
      · have hmine : (ms.filter (isMethodOf [name])).filter (isMethodOf [r]) = [] := by
          simp only [List.filter_eq_nil_iff, List.mem_filter, and_imp]
          intro m _ hname hm
          simp [isMethodOf_other hr hm] at hname
        have hothers : (ms.filter fun m => !isMethodOf [name] m).filter (isMethodOf [r]) =
            ms.filter (isMethodOf [r]) := by
          rw [List.filter_filter]
          refine List.filter_congr fun m _ => ?_
          cases hm : isMethodOf [r] m with
          | false => rfl
          | true => simp [isMethodOf_other hr hm]
        simp [hmine, hothers, hr]

theorem placeMethods_type (h : d.kind = .type) :
    placeMethods pending (d :: rest) = d :: ((take d.names pending).1 ++
      placeMethods (pending.filter fun m => !isMethodOf d.names m) rest) := by
  rw [placeMethods, if_pos h, ← take_snd]
  rfl

theorem placeMethods_other (h : d.kind ≠ .type) :
    placeMethods pending (d :: rest) = d :: placeMethods pending rest := by
  rw [placeMethods, if_neg h]

theorem typeNames_type (h : d.kind = .type) : typeNames (d :: rest) = d.names ++ typeNames rest := by
  simp [typeNames, h]

theorem typeNames_other (h : d.kind ≠ .type) : typeNames (d :: rest) = typeNames rest := by
  simp [typeNames, h]

theorem placeMethods_perm (h : ∀ m ∈ pending, isMethodOf (typeNames rest) m = true) :
    (placeMethods pending rest).Perm (rest ++ pending) := by
  induction rest generalizing pending with
  | nil =>
      have hnone : pending = [] := by
        refine List.eq_nil_iff_forall_not_mem.2 fun m hm => ?_
        have hno : isMethodOf (typeNames []) m = false := isMethodOf_nil m
        simp [h m hm] at hno
      simp [placeMethods, hnone]
  | cons d rest ih =>
      by_cases hd : d.kind = .type
      · rw [typeNames_type hd] at h
        have hlater : ∀ m ∈ pending.filter fun m => !isMethodOf d.names m,
            isMethodOf (typeNames rest) m = true := by
          intro m hm
          obtain ⟨hm, hno⟩ := List.mem_filter.1 hm
          have hall := h m hm
          rw [isMethodOf_append, Bool.or_eq_true] at hall
          exact hall.resolve_left (by simpa using hno)
        have htaken := take_perm d.names pending
        rw [take_snd] at htaken
        rw [placeMethods_type hd, List.cons_append]
        refine .cons d (((ih hlater).append_left _).trans ?_)
        rw [← List.append_assoc]
        refine (List.perm_append_comm.append_right _).trans ?_
        rw [List.append_assoc]
        exact htaken.append_left rest
      · rw [typeNames_other hd] at h
        rw [placeMethods_other hd, List.cons_append]
        exact (ih h).cons d

theorem filter_placeMethods_rest {p : Declaration → Bool} (h : ∀ m ∈ pending, p m = false) :
    (placeMethods pending rest).filter p = rest.filter p := by
  induction rest generalizing pending with
  | nil => rfl
  | cons d rest ih =>
      by_cases hd : d.kind = .type
      · have hmine : (take d.names pending).1.filter p = [] := by
          refine List.filter_eq_nil_iff.2 fun m hm => ?_
          simp [h m (mem_take hm).1]
        have hlater : ∀ m ∈ pending.filter fun m => !isMethodOf d.names m, p m = false :=
          fun m hm => h m (List.mem_of_mem_filter hm)
        rw [placeMethods_type hd, List.filter_cons, List.filter_cons, List.filter_append, hmine,
          List.nil_append, ih hlater]
      · rw [placeMethods_other hd, List.filter_cons, List.filter_cons, ih h]

theorem filter_placeMethods_type (hr : r ∈ typeNames rest)
    (hrest : ∀ d ∈ rest, isMethodOf [r] d = false) :
    (placeMethods pending rest).filter (isMethodOf [r]) = pending.filter (isMethodOf [r]) := by
  induction rest generalizing pending with
  | nil => simp [typeNames] at hr
  | cons d rest ih =>
      obtain ⟨hno, hrest⟩ := List.forall_mem_cons.1 hrest
      by_cases hd : d.kind = .type
      · rw [typeNames_type hd, List.mem_append] at hr
        rw [placeMethods_type hd, List.filter_cons, hno, List.filter_append, filter_take]
        by_cases hmine : r ∈ d.names
        -- all methods of the type are placed here, so none is left
        · have hnone : ∀ m ∈ pending.filter fun m => !isMethodOf d.names m,
              isMethodOf [r] m = false := by
            intro m hm
            obtain ⟨-, hm⟩ := List.mem_filter.1 hm
            refine Bool.eq_false_iff.2 fun hyes => ?_
            simp [isMethodOf_of_mem hmine hyes] at hm
          have hlast : rest.filter (isMethodOf [r]) = [] :=
            List.filter_eq_nil_iff.2 fun a ha => by simp [hrest a ha]
          rw [filter_placeMethods_rest hnone, hlast]
          simp [hmine]
        · have hlater : (pending.filter fun m => !isMethodOf d.names m).filter (isMethodOf [r]) =
              pending.filter (isMethodOf [r]) := by
            rw [List.filter_filter]
            refine List.filter_congr fun m _ => ?_
            cases hm : isMethodOf [r] m with
            | false => rfl
            | true => simp [isMethodOf_of_notMem hmine hm]
          rw [ih (hr.resolve_left hmine) hrest, hlater]
          simp [hmine]
      · rw [typeNames_other hd] at hr
        rw [placeMethods_other hd, List.filter_cons, hno, ih hr hrest]
        rfl

def declares (r : String) (d : Declaration) : Bool :=
  d.kind == .type && d.names.contains r

theorem append_eq_append_cons {as bs before after : List Declaration}
    (h : as ++ bs = before ++ m :: after) :
    (∃ more, as = before ++ m :: more) ∨
      ∃ first, before = as ++ first ∧ bs = first ++ m :: after := by
  rcases List.append_eq_append_iff.1 h with ⟨first, hbefore, hbs⟩ | ⟨more, has, hmore⟩
  · exact .inr ⟨first, hbefore, hbs⟩
  · cases more with
    | nil => exact .inr ⟨[], by simpa using has.symm, by simpa using hmore.symm⟩
    | cons x more =>
        obtain ⟨rfl, -⟩ := List.cons.inj hmore
        exact .inl ⟨more, has⟩

theorem cons_eq_append_method {tail before after : List Declaration}
    (hd : isMethodOf [r] d = false) (hm : isMethodOf [r] m = true)
    (h : d :: tail = before ++ m :: after) :
    ∃ first, before = d :: first ∧ tail = first ++ m :: after := by
  cases before with
  | nil =>
      obtain ⟨rfl, -⟩ := List.cons.inj h
      simp [hd] at hm
  | cons b before =>
      obtain ⟨rfl, htail⟩ := List.cons.inj h
      exact ⟨before, rfl, htail⟩

theorem mem_names_of_mem_take {names : List String} (h : m ∈ (take names pending).1)
    (hm : isMethodOf [r] m = true) : r ∈ names := by
  obtain ⟨-, hnames⟩ := mem_take h
  obtain ⟨name, hmem, hr⟩ := isMethodOf_iff.1 hnames
  obtain rfl : r = name := by simpa [isMethodOf_singleton.1 hm] using hr
  exact hmem

theorem placeMethods_split {before after : List Declaration}
    (hpending : ∀ m ∈ pending, m.kind ≠ .type) (hrest : ∀ d ∈ rest, isMethodOf [r] d = false)
    (hm : isMethodOf [r] m = true) (h : placeMethods pending rest = before ++ m :: after) :
    ∃ pre t mid, before = pre ++ t :: mid ∧ rest.find? (declares r) = some t ∧
      pre.find? (declares r) = none ∧ ∀ x ∈ mid, isMethodOf t.names x = true := by
  induction rest generalizing pending before with
  | nil => simp [placeMethods] at h
  | cons d rest ih =>
      obtain ⟨hno, hrest⟩ := List.forall_mem_cons.1 hrest
      by_cases hd : d.kind = .type
      · rw [placeMethods_type hd] at h
        obtain ⟨behind, rfl, htail⟩ := cons_eq_append_method hno hm h
        rcases append_eq_append_cons htail with ⟨more, hmine⟩ | ⟨first, rfl, hlater⟩
        -- the method is placed behind this declaration, or behind a later one
        · have htaken (x : Declaration) (hx : x ∈ behind ++ [m]) : x ∈ (take d.names pending).1 := by
            rw [hmine]
            simpa [or_assoc] using Or.inl hx
          have hr : r ∈ d.names := mem_names_of_mem_take (htaken m (by simp)) hm
          have hyes : declares r d = true := by simp [declares, hd, hr]
          exact ⟨[], d, behind, rfl, by simp [hyes], rfl, fun x hx =>
            (mem_take (htaken x (List.mem_append_left _ hx))).2⟩
        · have hr : r ∉ d.names := by
            intro hr
            have hmem : m ∈ placeMethods (pending.filter fun m => !isMethodOf d.names m) rest := by
              rw [hlater]
              exact List.mem_append_right _ List.mem_cons_self
            have hleft : m ∈ pending.filter fun m => !isMethodOf d.names m := by
              rcases mem_of_mem_placeMethods hmem with hleft | hdecl
              · exact hleft
              · simp [hrest m hdecl] at hm
            simp [isMethodOf_of_mem hr hm] at hleft
          obtain ⟨pre, t, mid, rfl, ht, hpre, hmid⟩ :=
            ih (fun m hm => hpending m (List.mem_of_mem_filter hm)) hrest hlater
          have hnot : declares r d = false := by simp [declares, hr]
          have hmine : (take d.names pending).1.find? (declares r) = none := by
            refine List.find?_eq_none.2 fun x hx => ?_
            simp [declares, hpending x (mem_take hx).1]
          refine ⟨d :: ((take d.names pending).1 ++ pre), t, mid, by simp, by simp [hnot, ht], ?_,
            hmid⟩
          simp only [List.find?_cons, hnot, List.find?_append, hmine, hpre, Option.or_none]
      · rw [placeMethods_other hd] at h
        obtain ⟨behind, rfl, htail⟩ := cons_eq_append_method hno hm h
        obtain ⟨pre, t, mid, rfl, ht, hpre, hmid⟩ := ih hpending hrest htail
        have hnot : declares r d = false := by simp [declares, hd]
        exact ⟨d :: pre, t, mid, rfl, by simp [hnot, ht], by simp [hnot, hpre], hmid⟩

theorem take_congr {ms ns : List Declaration}
    (h : ∀ r, ms.filter (isMethodOf [r]) = ns.filter (isMethodOf [r])) (names : List String) :
    (take names ms).1 = (take names ns).1 := by
  induction names generalizing ms ns with
  | nil => rfl
  | cons name names ih =>
      have hothers : ∀ r, (ms.filter fun m => !isMethodOf [name] m).filter (isMethodOf [r]) =
          (ns.filter fun m => !isMethodOf [name] m).filter (isMethodOf [r]) := by
        intro r
        rw [List.filter_comm, h r, List.filter_comm]
      rw [take_cons, take_cons, h name, ih hothers]

theorem placeMethods_congr {ms ns : List Declaration}
    (h : ∀ r, ms.filter (isMethodOf [r]) = ns.filter (isMethodOf [r])) :
    placeMethods ms rest = placeMethods ns rest := by
  induction rest generalizing ms ns with
  | nil => rfl
  | cons d rest ih =>
      by_cases hd : d.kind = .type
      · rw [placeMethods_type hd, placeMethods_type hd, take_congr h]
        refine congrArg _ (congrArg _ (ih fun r => ?_))
        rw [List.filter_comm, h r, List.filter_comm]
      · rw [placeMethods_other hd, placeMethods_other hd, ih h]

theorem groupMethods_eq (ds : List Declaration) :
    groupMethods ds = placeMethods (ds.filter (isMethodOf (typeNames ds)))
      (ds.filter fun d => !isMethodOf (typeNames ds) d) := by
  simp [groupMethods, List.partition_eq_filter_filter, Function.comp_def]

def Receiving (ds : List Declaration) : Prop :=
  ∀ d ∈ ds, d.isMethod = true → d.kind = .func

theorem isMethod_of_isMethodOf {types : List String} (h : isMethodOf types d = true) :
    d.isMethod = true := by
  obtain ⟨r, -, hr⟩ := isMethodOf_iff.1 h
  simp [Declaration.isMethod, hr]

theorem Receiving.isMethodOf_type (h : Receiving ds) (hd : d ∈ ds) (hkind : d.kind = .type)
    (types : List String) : isMethodOf types d = false := by
  refine Bool.eq_false_iff.2 fun hyes => ?_
  simp [h d hd (isMethod_of_isMethodOf hyes)] at hkind

theorem Receiving.filter_filter (h : Receiving ds) {p : Declaration → Bool}
    (hp : ∀ d, p d = true → d.kind = .type) (types : List String) :
    (ds.filter fun d => !isMethodOf types d).filter p = ds.filter p := by
  rw [List.filter_filter]
  refine List.filter_congr fun d hd => ?_
  cases hyes : p d with
  | false => rfl
  | true => simp [h.isMethodOf_type hd (hp d hyes)]

theorem Receiving.typeNames_filter (h : Receiving ds) (types : List String) :
    typeNames (ds.filter fun d => !isMethodOf types d) = typeNames ds := by
  rw [typeNames, typeNames, h.filter_filter fun d hd => by simpa using hd]

theorem Receiving.find?_filter (h : Receiving ds) (types : List String) (r : String) :
    (ds.filter fun d => !isMethodOf types d).find? (declares r) = ds.find? (declares r) := by
  rw [← List.head?_filter, ← List.head?_filter, h.filter_filter fun d hd => by
    simp only [declares, Bool.and_eq_true, beq_iff_eq] at hd
    exact hd.1]

theorem Receiving.perm_groupMethods (h : Receiving ds) : (groupMethods ds).Perm ds := by
  have hpending : ∀ m ∈ ds.filter (isMethodOf (typeNames ds)),
      isMethodOf (typeNames (ds.filter fun d => !isMethodOf (typeNames ds) d)) m = true := by
    intro m hm
    rw [h.typeNames_filter]
    exact (List.mem_filter.1 hm).2
  rw [groupMethods_eq]
  exact (placeMethods_perm hpending).trans
    (List.perm_append_comm.trans (List.filter_append_perm _ ds))

theorem filter_groupMethods_others (ds : List Declaration) :
    (groupMethods ds).filter (fun d => !isMethodOf (typeNames ds) d) =
      ds.filter fun d => !isMethodOf (typeNames ds) d := by
  have hpending : ∀ m ∈ ds.filter (isMethodOf (typeNames ds)),
      (!isMethodOf (typeNames ds) m) = false := by
    intro m hm
    simp [(List.mem_filter.1 hm).2]
  rw [groupMethods_eq, filter_placeMethods_rest hpending, List.filter_filter]
  simp only [Bool.and_self]

theorem notMem_others {types : List String} (hr : r ∈ types) :
    ∀ d ∈ ds.filter (fun d => !isMethodOf types d), isMethodOf [r] d = false := by
  intro d hd
  refine Bool.eq_false_iff.2 fun hyes => ?_
  simp [isMethodOf_of_mem hr hyes] at hd

theorem Receiving.filter_groupMethods (h : Receiving ds) (r : String) :
    (groupMethods ds).filter (isMethodOf [r]) = ds.filter (isMethodOf [r]) := by
  rw [groupMethods_eq]
  by_cases hr : r ∈ typeNames ds
  · rw [filter_placeMethods_type (by rwa [h.typeNames_filter]) (notMem_others hr), List.filter_filter]
    refine List.filter_congr fun m _ => ?_
    cases hm : isMethodOf [r] m with
    | false => rfl
    | true => exact isMethodOf_of_mem hr hm
  · have hpending : ∀ m ∈ ds.filter (isMethodOf (typeNames ds)), isMethodOf [r] m = false := by
      intro m hm
      refine Bool.eq_false_iff.2 fun hyes => ?_
      simp [isMethodOf_of_notMem hr hyes] at hm
    rw [filter_placeMethods_rest hpending, List.filter_filter]
    refine List.filter_congr fun m _ => ?_
    cases hm : isMethodOf [r] m with
    | false => rfl
    | true => simp [isMethodOf_of_notMem hr hm]

theorem Receiving.groupMethods (h : Receiving ds) : Receiving (Generator.groupMethods ds) :=
  fun d hd => h d (h.perm_groupMethods.mem_iff.1 hd)

theorem Receiving.typeNames_groupMethods (h : Receiving ds) :
    typeNames (Generator.groupMethods ds) = typeNames ds := by
  rw [← h.groupMethods.typeNames_filter (typeNames ds), filter_groupMethods_others,
    h.typeNames_filter]

theorem Receiving.groupMethods_groupMethods (h : Receiving ds) :
    Generator.groupMethods (Generator.groupMethods ds) = Generator.groupMethods ds := by
  rw [groupMethods_eq (Generator.groupMethods ds), h.typeNames_groupMethods,
    filter_groupMethods_others, groupMethods_eq ds]
  refine placeMethods_congr fun r => ?_
  rw [← groupMethods_eq, List.filter_comm, h.filter_groupMethods, List.filter_comm]

structure Grouped (ds grouped : List Declaration) : Prop where
  others : grouped.filter (fun d => !isMethodOf (typeNames ds) d) =
    ds.filter fun d => !isMethodOf (typeNames ds) d
  methods (r : String) : grouped.filter (isMethodOf [r]) = ds.filter (isMethodOf [r])
  placed (before : List Declaration) (m : Declaration) (after : List Declaration) (r : String)
    (split : grouped = before ++ m :: after) (receiver : m.receiver = some r)
    (known : r ∈ typeNames ds) :
    ∃ pre t mid, before = pre ++ t :: mid ∧ ds.find? (declares r) = some t ∧
      pre.find? (declares r) = none ∧ ∀ x ∈ mid, isMethodOf t.names x = true

theorem Receiving.grouped (h : Receiving ds) : Grouped ds (Generator.groupMethods ds) where
  others := filter_groupMethods_others ds
  methods := h.filter_groupMethods
  placed := by
    intro before m after r hsplit hreceiver hknown
    have hpending : ∀ m ∈ ds.filter (isMethodOf (typeNames ds)), m.kind ≠ .type := by
      intro m hm hkind
      obtain ⟨hm, hyes⟩ := List.mem_filter.1 hm
      simp [h.isMethodOf_type hm hkind] at hyes
    rw [groupMethods_eq] at hsplit
    have hplaced := placeMethods_split hpending (notMem_others hknown)
      (isMethodOf_singleton.2 hreceiver) hsplit
    rwa [h.find?_filter] at hplaced

theorem perm_sortByKind (ds : List Declaration) : (sortByKind ds).Perm ds :=
  List.mergeSort_perm ds _

theorem Receiving.sortByKind (h : Receiving ds) : Receiving (Generator.sortByKind ds) :=
  fun d hd => h d ((perm_sortByKind ds).mem_iff.1 hd)

theorem Receiving.perm_arranged {g : Generator} (h : Receiving g.decls) :
    g.arranged.Perm g.decls := by
  unfold arranged
  split_ifs with hsort hgroup hgroup
  · exact h.sortByKind.perm_groupMethods.trans (perm_sortByKind g.decls)
  · exact perm_sortByKind g.decls
  · exact h.perm_groupMethods
  · exact .refl g.decls

theorem arranged_reorders (g : Generator) (h : Receiving g.decls) :
    g.arranged.Perm g.decls ∧
      (Policy.isOn g.policy.sortByKind = true → Policy.isOn g.policy.groupMethods = false →
        g.arranged = inKindOrder g.decls) ∧
      Grouped g.decls (groupMethods g.decls) ∧
      groupMethods (groupMethods g.decls) = groupMethods g.decls := by
  refine ⟨h.perm_arranged, fun hsort hgroup => ?_, h.grouped, h.groupMethods_groupMethods⟩
  rw [arranged, if_pos hsort, hgroup, ← sortByKind_eq]
  rfl

def scatteredMethods : List Declaration :=
  let decl (kind : Declaration.Kind) (names : List String) (receiver : Option String) :=
    { kind := kind, tokens := [], names := names, receiver := receiver }
  [decl .func ["early"] (some "B"), decl .type ["A", "B"] none, decl .func ["other"] (some "C"),
    decl .type ["A"] none, decl .func ["late"] (some "A"), decl .const ["k"] none]

theorem arranged_reorders_scattered :
    Receiving scatteredMethods ∧
      (groupMethods scatteredMethods).map (·.names) =
        [["A", "B"], ["late"], ["early"], ["other"], ["A"], ["k"]] ∧
      Grouped scatteredMethods (groupMethods scatteredMethods) ∧
      groupMethods (groupMethods scatteredMethods) = groupMethods scatteredMethods := by
  have h : Receiving scatteredMethods := by
    unfold Receiving
    decide
  exact ⟨h, by decide, (arranged_reorders { decls := scatteredMethods } h).2.2⟩

end Gosmith.Generator
