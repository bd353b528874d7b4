import Gosmith.Proofs.Layout.ImportBlock
import Gosmith.Proofs.Text.Lines
import Mathlib.Data.List.Chain

namespace Gosmith.Text

structure TidyLine (line : String) : Prop where
  newline : '\n' ∉ line.toList
  indent : ∀ c ∈ line.toList.takeWhile isBlank, c = '\t'
  ending : ∀ c ∈ line.toList.getLast?, isBlank c = false

theorem tidyLine_empty : TidyLine "" :=
  ⟨by simp, by simp, by simp⟩

structure Neat (ls : List String) : Prop where
  tidy : ∀ l ∈ ls, TidyLine l
  first : ∃ l, ls.head? = some l ∧ l ≠ ""
  last : ∃ l, ls.getLast? = some l ∧ l ≠ ""
  spread : ls.IsChain fun a b => a ≠ "" ∨ b ≠ ""

namespace Neat

variable {ls as bs : List String}

theorem ne_nil (h : Neat ls) : ls ≠ [] := by
  rintro rfl
  simpa using h.first

theorem single {line : String} (h : TidyLine line) (hne : line ≠ "") : Neat [line] :=
  ⟨by simpa using h, ⟨line, rfl, hne⟩, ⟨line, rfl, hne⟩, .singleton _⟩

theorem append (ha : Neat as) (hb : Neat bs) : Neat (as ++ bs) := by
  obtain ⟨a, hfirst, hane⟩ := ha.first
  obtain ⟨b, hlast, hbne⟩ := hb.last
  refine ⟨?_, ⟨a, by simp [hfirst], hane⟩, ⟨b, by simp [hlast], hbne⟩, ?_⟩
  · intro l hl
    exact (List.mem_append.1 hl).elim (ha.tidy l) (hb.tidy l)
  · obtain ⟨e, hend, hene⟩ := ha.last
    refine List.isChain_append.2 ⟨ha.spread, hb.spread, ?_⟩
    rw [hend]
    rintro x ⟨⟩ y -
    exact .inl hene

theorem append_blank (ha : Neat as) (hb : Neat bs) : Neat (as ++ "" :: bs) := by
  obtain ⟨a, hfirst, hane⟩ := ha.first
  obtain ⟨b, hlast, hbne⟩ := hb.last
  obtain ⟨s, hstart, hsne⟩ := hb.first
  refine ⟨?_, ⟨a, by simp [hfirst], hane⟩, ⟨b, by simp [List.getLast?_cons, hlast], hbne⟩, ?_⟩
  · intro l hl
    rcases List.mem_append.1 hl with hl | hl
    · exact ha.tidy l hl
    · rcases List.mem_cons.1 hl with rfl | hl
      · exact tidyLine_empty
      · exact hb.tidy l hl
  · obtain ⟨e, hend, hene⟩ := ha.last
    refine List.isChain_append.2 ⟨ha.spread, List.isChain_cons.2 ⟨?_, hb.spread⟩, ?_⟩
    · rw [hstart]
      rintro y ⟨⟩
      exact .inr hsne
    · rw [hend]
      rintro x ⟨⟩ y -
      exact .inl hene

end Neat

def IsNeat (text : String) : Prop :=
  ∃ ls, Neat ls ∧ text = "\n".intercalate ls

namespace IsNeat

variable {a b text : String}

theorem append (ha : IsNeat a) (hb : IsNeat b) : IsNeat (a ++ "\n" ++ b) := by
  obtain ⟨as, has, rfl⟩ := ha
  obtain ⟨bs, hbs, rfl⟩ := hb
  exact ⟨as ++ bs, has.append hbs, (String.intercalate_append_of_ne_nil has.ne_nil hbs.ne_nil).symm⟩

theorem append_blank (ha : IsNeat a) (hb : IsNeat b) : IsNeat (a ++ "\n\n" ++ b) := by
  obtain ⟨as, has, rfl⟩ := ha
  obtain ⟨bs, hbs, rfl⟩ := hb
  refine ⟨as ++ "" :: bs, has.append_blank hbs, ?_⟩
  rw [String.intercalate_append_of_ne_nil has.ne_nil (by simp),
    String.intercalate_cons_of_ne_nil hbs.ne_nil]
  simp [String.append_assoc, ← String.toList_inj]

theorem intercalate {texts : List String} (hne : texts ≠ []) (h : ∀ t ∈ texts, IsNeat t)
    (blank : Bool) : IsNeat ((if blank then "\n\n" else "\n").intercalate texts) := by
  induction texts with
  | nil => exact absurd rfl hne
  | cons t texts ih =>
      obtain ⟨ht, hrest⟩ := List.forall_mem_cons.1 h
      cases texts with
      | nil => simpa using ht
      | cons u texts =>
          rw [String.intercalate_cons_of_ne_nil (by simp)]
          have hmore := ih (by simp) hrest
          cases blank with
          | false => exact ht.append hmore
          | true => exact ht.append_blank hmore

theorem ne_empty (h : IsNeat text) : text ≠ "" := by
  obtain ⟨ls, hls, rfl⟩ := h
  obtain ⟨l, hfirst, hne⟩ := hls.first
  obtain ⟨rest, rfl⟩ := List.head?_eq_some_iff.1 hfirst
  intro hempty
  have htext := congrArg String.toList hempty
  rw [Go.Document.toList_intercalate_newline] at htext
  exact hne (by simpa using (List.append_eq_nil_iff.1 htext).1)

end IsNeat

/-- A text of tidy lines that ends in one newline and has no two empty lines after each other. -/
structure Canonical (text : String) : Prop where
  ending : ∃ body c, text.toList = body ++ [c, '\n'] ∧ c ≠ '\n'
  tidy : ∀ l ∈ lines text, TidyLine l
  spread : (lines text).IsChain fun a b => a ≠ "" ∨ b ≠ ""

theorem intercalate_concat_empty {ls : List String} (h : ls ≠ []) :
    "\n".intercalate ls ++ "\n" = "\n".intercalate (ls ++ [""]) := by
  rw [String.intercalate_append_of_ne_nil h (by simp), String.intercalate_singleton,
    String.append_empty]

theorem IsNeat.canonical {text : String} (h : IsNeat text) : Canonical (text ++ "\n") := by
  obtain ⟨ls, hls, rfl⟩ := h
  obtain ⟨l, hlast, hne⟩ := hls.last
  obtain ⟨before, rfl⟩ := List.getLast?_eq_some_iff.1 hlast
  have hline := hls.tidy l (by simp)
  have hlines : lines ("\n".intercalate (before ++ [l]) ++ "\n") = before ++ [l] ++ [""] := by
    rw [intercalate_concat_empty (by simp)]
    apply lines_intercalate (by simp)
    intro m hm
    rcases List.mem_append.1 hm with hm | hm
    · exact (hls.tidy m hm).newline
    · simp [List.mem_singleton.1 hm]
  refine ⟨?_, ?_, ?_⟩
  · obtain ⟨init, c, hc⟩ : ∃ init c, l.toList = init ++ [c] := by
      rcases List.eq_nil_or_concat l.toList with hnil | ⟨init, c, hc⟩
      · exact absurd (by simpa using hnil) hne
      · exact ⟨init, c, by simpa using hc⟩
    have hcn : c ≠ '\n' := by
      rintro rfl
      exact hline.newline (by simp [hc])
    cases before with
    | nil => exact ⟨init, c, by simp [hc], hcn⟩
    | cons b before =>
        refine ⟨("\n".intercalate (b :: before)).toList ++ '\n' :: init, c, ?_, hcn⟩
        rw [String.intercalate_append_of_ne_nil (by simp) (by simp)]
        simp [hc]
  · rw [hlines]
    intro m hm
    rcases List.mem_append.1 hm with hm | hm
    · exact hls.tidy m hm
    · rw [List.mem_singleton.1 hm]
      exact tidyLine_empty
  · rw [hlines]
    refine List.isChain_append.2 ⟨hls.spread, .singleton _, ?_⟩
    simp [hne]

end Gosmith.Text

namespace Gosmith.Go

open Gosmith.Text

namespace Piece

theorem runeBody_newline {cs body after : List Char} (h : runeBody cs = some (body, after)) :
    '\n' ∉ body := by
  fun_induction runeBody cs generalizing body after with
  | case1 => simp at h
  | case2 => simp at h
  | case3 => simp at h
  | case4 c rest hline ih =>
      simp only [Option.map_eq_some_iff, Prod.exists, Prod.mk.injEq] at h
      obtain ⟨b, a, hb, rfl, rfl⟩ := h
      simp [Ne.symm hline, ih hb]
  | case5 rest =>
      simp only [Option.some.injEq, Prod.mk.injEq] at h
      simp [← h.1]
  | case6 => simp at h
  | case7 c rest hlone hpair hquote hline ih =>
      simp only [Option.map_eq_some_iff, Prod.exists, Prod.mk.injEq] at h
      obtain ⟨b, a, hb, rfl, rfl⟩ := h
      simp [Ne.symm hline, ih hb]

theorem newline_notMem {cs : List Char} (h : ∀ c ∈ cs, isBlank c = false) : '\n' ∉ cs :=
  fun hmem => absurd (h '\n' hmem) (by decide)

theorem Lexeme.newline_notMem {p : Piece} (h : Lexeme p) (hkind : p.tokenKind ≠ .string) :
    '\n' ∉ p.text := by
  cases h with
  | raw => exact absurd rfl hkind
  | string => exact absurd rfl hkind
  | @char body hb =>
      unfold runeRest at hb
      split at hb
      · simp at hb
      · simpa using runeBody_newline hb
  | number ht =>
      exact Piece.newline_notMem (List.forall_mem_cons.2 ⟨ht.head_not_blank, ht.tail_not_blank⟩)
  | imaginary ht =>
      have hdigits := Piece.newline_notMem
        (List.forall_mem_cons.2 ⟨ht.head_not_blank, ht.tail_not_blank⟩)
      simpa using hdigits
  | word hc hcs =>
      refine Piece.newline_notMem (List.forall_mem_cons.2 ⟨?_, ?_⟩)
      · exact isBlank_of_isWord (isWord_of_startsWord hc)
      · exact fun d hd => isBlank_of_isWord (hcs d hd)
  | @op o ho =>
      have hops : ∀ o ∈ operators, '\n' ∉ o.toList := by decide
      exact hops o ho

end Piece

namespace Token

structure Flat (t : Token) : Prop where
  lexed : t.Lexed
  newline : '\n' ∉ t.text.toList

theorem Lexed.flat {t : Token} (h : t.Lexed) (hstring : t.kind = .string → '\n' ∉ t.text.toList) :
    t.Flat := by
  refine ⟨h, ?_⟩
  obtain ⟨p, hp, hkey⟩ := h
  by_cases hkind : t.kind = .string
  · exact hstring hkind
  · rw [toList_of_key hkey]
    refine hp.newline_notMem fun heq => hkind ?_
    rw [← heq]
    exact congrArg Prod.fst hkey

end Token

namespace Layout

open Piece (Solid)

theorem tidyLine_tabs {t : Token} (h : t.Flat) (depth : Nat) : TidyLine (tabs depth ++ t.text) := by
  obtain ⟨c, hlast, hc⟩ := h.lexed.solid
  obtain ⟨p, hp, hkey⟩ := h.lexed
  have hstop := hp.stops_isBlank []
  rw [List.append_nil, ← Token.toList_of_key hkey] at hstop
  have htabs : ∀ d ∈ List.replicate depth '\t', isBlank d = true := by
    intro d hd
    rw [List.eq_of_mem_replicate hd]
    decide
  refine ⟨?_, ?_, ?_⟩
  · simp [tabs, h.newline]
  · rw [String.toList_append, tabs, String.toList_ofList,
      Piece.takeWhile_append_stops htabs hstop]
    exact fun d hd => List.eq_of_mem_replicate hd
  · simp [hlast, hc]

theorem tidyLine_append {line more : String} (h : TidyLine line) (hsolid : Solid line.toList)
    (hmore : Solid more.toList) (hnewline : '\n' ∉ more.toList) : TidyLine (line ++ more) := by
  obtain ⟨c, hlast, hc⟩ := hmore
  obtain ⟨d, hd, hdark⟩ := hsolid
  -- the line has a character that is not blank, so its indentation ends within it
  have hstop : (line.toList.takeWhile isBlank).length ≠ line.toList.length := by
    intro hlength
    have hpre : line.toList.takeWhile isBlank <+: line.toList := List.takeWhile_prefix isBlank
    have hall := hpre.eq_of_length hlength
    have hmem : d ∈ line.toList.takeWhile isBlank := by
      rw [hall]
      exact List.mem_of_getLast? hd
    simp [List.mem_takeWhile_imp hmem] at hdark
  refine ⟨?_, ?_, ?_⟩
  · simpa using ⟨h.newline, hnewline⟩
  · rw [String.toList_append, List.takeWhile_append, if_neg hstop]
    exact h.indent
  · simp [hlast, hc]

theorem ne_empty_of_solid {line : String} (h : Solid line.toList) : line ≠ "" := by
  rintro rfl
  obtain ⟨c, hc, -⟩ := h
  simp at hc

theorem neat_breakLines {line : String} (hline : TidyLine line) (hsolid : Solid line.toList)
    {rest : List (Gap × Token)} (hrest : ∀ a ∈ rest, a.2.Flat) : Neat (breakLines line rest) := by
  induction rest generalizing line with
  | nil =>
      rw [breakLines, trimEnd_of_solid hsolid]
      exact .single hline (ne_empty_of_solid hsolid)
  | cons a rest ih =>
      obtain ⟨g, t⟩ := a
      obtain ⟨ht, hrest⟩ := List.forall_mem_cons.1 hrest
      have hgo {start : String} (hstart : TidyLine (start ++ t.text)) :
          Neat (breakLines (start ++ t.text) rest) :=
        ih hstart (by simpa using ht.lexed.solid.append start.toList) hrest
      cases g with
      | none => exact hgo (tidyLine_append hline hsolid ht.lexed.solid ht.newline)
      | space =>
          rw [breakLines]
          refine hgo ?_
          rw [String.append_assoc]
          refine tidyLine_append hline hsolid ?_ ?_
          · simpa using ht.lexed.solid.append [' ']
          · simpa using ht.newline
      | newline blank depth =>
          have hfirst := Neat.single hline (ne_empty_of_solid hsolid)
          have hlater := hgo (tidyLine_tabs ht depth)
          rw [breakLines, trimEnd_of_solid hsolid]
          cases blank with
          | false => exact hfirst.append hlater
          | true => exact hfirst.append_blank hlater

theorem isNeat_printed {t : Token} (ht : t.Flat) {rest : List (Gap × Token)}
    (hrest : ∀ a ∈ rest, a.2.Flat) {text : String}
    (h : text.toList = printed ((.none, t) :: rest)) : IsNeat text := by
  have htidy : TidyLine t.text := by simpa [tabs] using tidyLine_tabs ht 0
  refine ⟨_, neat_breakLines htidy ht.lexed.solid hrest, ?_⟩
  apply String.toList_inj.1
  rw [h, toList_breakLines ht.lexed.solid fun a ha => (hrest a ha).lexed]
  rfl

end Layout

end Gosmith.Go
