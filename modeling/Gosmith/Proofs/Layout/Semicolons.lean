import Mathlib.Data.List.Flatten
import Gosmith.Proofs.Grammar.Enclosure
import Gosmith.Proofs.Grammar.Likeness
import Gosmith.Proofs.Layout.Reading

namespace Gosmith.Go

open Gosmith.Text (braceClose)

namespace Layout

open Grammar (Enclosed Moves)

/-- Whether some semicolon is kept only because one that is dropped stands right after it. -/
def lapses : List Token → Bool
  | t :: u :: rest =>
      (t.kind == .semicolon && !isDropped t (some u) && isDropped u rest.head?) || lapses (u :: rest)
  | _ => false

theorem isDropped_of_kind {t : Token} (h : t.kind ≠ .semicolon) (following : Option Token) :
    isDropped t following = false := by
  simp [isDropped, h]

theorem dropSemicolons_of_isDropped {t : Token} {rest : List Token}
    (h : isDropped t rest.head? = true) : dropSemicolons (t :: rest) = dropSemicolons rest := by
  rw [dropSemicolons, if_pos h]

theorem dropSemicolons_of_kept {t : Token} {rest : List Token}
    (h : isDropped t rest.head? = false) : dropSemicolons (t :: rest) = t :: dropSemicolons rest := by
  rw [dropSemicolons, if_neg (by simp [h])]

theorem dropSemicolons_sublist (ts : List Token) : (dropSemicolons ts).Sublist ts := by
  induction ts with
  | nil => exact .slnil
  | cons t rest ih =>
      cases hd : isDropped t rest.head? with
      | true =>
          rw [dropSemicolons_of_isDropped hd]
          exact ih.cons t
      | false =>
          rw [dropSemicolons_of_kept hd]
          exact ih.cons_cons t

theorem isDropped_written {t : Token} (hk : t.kind = .semicolon) (ht : t.isAuto = false)
    (following : Option Token) : isDropped t following =
      following.all fun u => decide (0 < u.newlinesBefore) || u.text == braceClose || u.text == ")" := by
  cases following with
  | none => simp [isDropped, hk]
  | some u => simp [isDropped, hk, ht]

theorem isDropped_before {t u : Token} {rest : List Token} (ht : t.kind = .semicolon)
    (htext : t.isAuto = false) (hu : u.isAuto = false) (hd : isDropped u rest.head? = true)
    (hrest : Token.Unbroken false rest) : isDropped t (dropSemicolons rest).head? = true := by
  induction rest generalizing u with
  | nil => simp [dropSemicolons, isDropped, ht]
  | cons v rest ih =>
      obtain ⟨-, hauto, hrest⟩ := hrest
      cases hv : isDropped v rest.head? with
      | false =>
          rw [dropSemicolons_of_kept hv]
          rw [isDropped_written (kind_of_isDropped hd) hu] at hd
          rwa [isDropped_written ht htext]
      | true =>
          have hkind := kind_of_isDropped hv
          rw [dropSemicolons_of_isDropped hv]
          rw [Token.endsStatement_of_semicolon hkind] at hrest
          exact ih (by simpa using hauto) hv hrest

theorem isAuto_of_kept {t : Token} {following : Option Token} (hk : t.kind = .semicolon)
    (h : isDropped t following = false) : t.isAuto = false := by
  cases hauto : t.isAuto with
  | false => rfl
  | true => simp [isDropped, hk, hauto] at h

theorem lapses_of_dropped {t : Token} {rest : List Token} (h : isDropped t rest.head? = true) :
    lapses (t :: rest) = lapses rest := by
  cases rest with
  | nil => rfl
  | cons u rest =>
      have hd : isDropped t (some u) = true := h
      simp [lapses, hd]

theorem lapses_of_kind {t : Token} (h : t.kind ≠ .semicolon) (rest : List Token) :
    lapses (t :: rest) = lapses rest := by
  cases rest with
  | nil => rfl
  | cons u rest => simp [lapses, h]

theorem dropSemicolons_cons_ne (t : Token) (ts : List Token) : dropSemicolons ts ≠ t :: ts := by
  intro heq
  have hlength := (dropSemicolons_sublist ts).length_le
  simp only [heq, List.length_cons] at hlength
  omega

theorem dropSemicolons_again {breaks : Bool} {ts : List Token} (h : Token.Unbroken breaks ts) :
    dropSemicolons (dropSemicolons ts) = dropSemicolons ts ↔ lapses ts = false := by
  induction ts generalizing breaks with
  | nil => simp [dropSemicolons, lapses]
  | cons t rest ih =>
      obtain ⟨-, -, hrest⟩ := h
      cases hd : isDropped t rest.head? with
      | true => rw [dropSemicolons_of_isDropped hd, lapses_of_dropped hd, ih hrest]
      | false =>
          rw [dropSemicolons_of_kept hd]
          by_cases hk : t.kind = .semicolon
          · cases rest with
            | nil => simp [isDropped, hk] at hd
            | cons u rest =>
                have hkept : isDropped t (some u) = false := hd
                cases hu : isDropped u rest.head? with
                | false =>
                    have hagain : isDropped t (dropSemicolons (u :: rest)).head? = false := by
                      rwa [dropSemicolons_of_kept hu]
                    rw [dropSemicolons_of_kept hagain, List.cons.injEq, ih hrest]
                    simp [lapses, hu]
                | true =>
                    obtain ⟨-, hauto, hafter⟩ := hrest
                    rw [Token.endsStatement_of_semicolon hk] at hauto
                    rw [Token.endsStatement_of_semicolon (kind_of_isDropped hu)] at hafter
                    have hlost := isDropped_before hk (isAuto_of_kept hk hd) (by simpa using hauto) hu
                      hafter
                    rw [← dropSemicolons_of_isDropped hu] at hlost
                    rw [dropSemicolons_of_isDropped hlost]
                    simp [lapses, hk, hkept, hu, dropSemicolons_cons_ne]
          · rw [dropSemicolons_of_kept (isDropped_of_kind hk _), lapses_of_kind hk, List.cons.injEq,
              ih hrest]
            simp

theorem bare_dropSemicolons (ts : List Token) :
    Grammar.bare (dropSemicolons ts) = Grammar.bare ts := by
  induction ts with
  | nil => rfl
  | cons t rest ih =>
      cases hd : isDropped t rest.head? with
      | true => rw [dropSemicolons_of_isDropped hd, ih, Grammar.bare_semicolon (kind_of_isDropped hd)]
      | false =>
          rw [dropSemicolons_of_kept hd]
          by_cases hk : t.kind = .semicolon
          · rw [Grammar.bare_semicolon hk, Grammar.bare_semicolon hk, ih]
          · rw [Grammar.bare_cons hk, Grammar.bare_cons hk, ih]

theorem enclosed_dropSemicolons {stack : List String} {breaks : Bool} {ts : List Token}
    (h : Enclosed stack breaks ts) : Enclosed stack breaks (dropSemicolons ts) := by
  induction h with
  | nil => exact .nil
  | @cons stack stack' breaks t rest hm hfree h ih =>
      cases hd : isDropped t rest.head? with
      | true =>
          have hk := kind_of_isDropped hd
          obtain rfl := hm.of_semicolon hk
          rw [dropSemicolons_of_isDropped hd]
          exact ih.inside (fun hnil => (hfree hnil).1 hk) breaks
      | false =>
          rw [dropSemicolons_of_kept hd]
          exact .cons hm hfree ih

def KeepsLines (placed : List (Gap × Token)) : Prop :=
  ∀ a ∈ placed, a.1.newlines = min 2 a.2.newlinesBefore

theorem alike_cons {t u : Token} {ts us : List Token} (hkey : u.key = t.key)
    (h : Grammar.Alike ts us) : Grammar.Alike (t :: ts) (u :: us) := by
  have hkind : u.kind = t.kind := congrArg Prod.fst hkey
  by_cases hk : t.kind = .semicolon
  · rwa [Grammar.Alike, Grammar.bare_semicolon hk, Grammar.bare_semicolon (hkind.trans hk)]
  · rw [Grammar.Alike, Grammar.bare_cons hk, Grammar.bare_cons (hkind ▸ hk), List.map_cons,
      List.map_cons, hkey, h]

theorem Read.alike {breaks : Bool} {placed : List (Gap × Token)} {us : List Token}
    (h : Read breaks placed us) : Grammar.Alike (placed.map Prod.snd) us := by
  induction h with
  | nil => rfl
  | token ha _ _ ih => exact alike_cons ha.key ih
  | lineEnd he _ ha _ _ ih =>
      rw [Grammar.Alike, Grammar.bare_semicolon (Token.kind_of_isAuto he)]
      exact alike_cons ha.key ih

theorem Read.enclosed {breaks : Bool} {placed : List (Gap × Token)} {us : List Token}
    (h : Read breaks placed us) (hlines : KeepsLines placed) {stack : List String}
    (he : Enclosed stack breaks (placed.map Prod.snd)) : Enclosed stack breaks us := by
  induction h generalizing stack with
  | nil => exact he
  | @token breaks a u placed us ha hline h ih =>
      obtain ⟨hlines, hrest⟩ := List.forall_mem_cons.1 hlines
      rw [List.map_cons] at he
      cases he with
      | cons hm hfree he =>
          rw [← Token.endsStatement_of_key ha.key] at he
          refine .cons (hm.congr ha.key.symm) (fun hnil => ⟨?_, fun hb => ?_⟩) (ih hrest he)
          · rw [ha.kind]
            exact (hfree hnil).1
          · rw [ha.newlines, hlines, (hfree hnil).2 hb]
            rfl
  | @lineEnd a e u placed us hauto hn ha hline h ih =>
      obtain ⟨hlines, hrest⟩ := List.forall_mem_cons.1 hlines
      have hk := Token.kind_of_isAuto hauto
      rw [List.map_cons] at he
      cases he with
      | cons hm hfree he =>
          have hinside : stack ≠ [] := by
            intro hnil
            have hzero := (hfree hnil).2 rfl
            omega
          have hplain : Moves stack e stack :=
            .plain (by simp [Token.isOpener, hk]) (by simp [Token.isCloser, hk]) (by simp [hk])
          rw [← Token.endsStatement_of_key ha.key] at he
          exact .cons hplain (fun hnil => absurd hnil hinside)
            (.cons (hm.congr ha.key.symm) (fun hnil => absurd hnil hinside) (ih hrest he))

theorem Read.head {placed : List (Gap × Token)} {us : List Token} (h : Read false placed us) :
    (placed = [] ∧ us = []) ∨ ∃ a u, placed.head? = some a ∧ us.head? = some u ∧ Reread a u := by
  cases h with
  | nil => exact .inl ⟨rfl, rfl⟩
  | token ha _ _ => exact .inr ⟨_, _, rfl, rfl, ha⟩

theorem isDropped_reread {a : Gap × Token} {u : Token} {placed : List (Gap × Token)}
    {us : List Token} (ha : Reread a u) (hauto : a.2.isAuto = false) (hlines : KeepsLines placed)
    (h : Read u.endsStatement placed us) :
    isDropped u us.head? = isDropped a.2 (placed.map Prod.snd).head? := by
  by_cases hk : a.2.kind = .semicolon
  · have hu : u.kind = .semicolon := ha.kind.trans hk
    rw [Token.endsStatement_of_semicolon hu] at h
    have huauto : u.isAuto = false := by rwa [Token.isAuto, ha.kind, ha.text]
    rw [isDropped_written hk hauto, isDropped_written hu huauto]
    rcases h.head with ⟨rfl, rfl⟩ | ⟨b, v, hb, hv, hbv⟩
    · rfl
    · have hline : 0 < v.newlinesBefore ↔ 0 < b.2.newlinesBefore := by
        rw [hbv.newlines, hlines b (List.mem_of_head? hb)]
        omega
      simp [hb, hv, hline, hbv.text]
  · rw [isDropped_of_kind hk, isDropped_of_kind (ha.kind ▸ hk)]

def Carries (placed : List (Gap × Token)) (us : List Token) : Prop :=
  ∃ kept, kept.Sublist placed ∧ kept.map Prod.snd = dropSemicolons (placed.map Prod.snd) ∧
    List.Forall₂ Reread kept (dropSemicolons us)

theorem Carries.cons {a : Gap × Token} {u : Token} {placed : List (Gap × Token)} {us : List Token}
    (h : Carries placed us) (ha : Reread a u)
    (hd : isDropped u us.head? = isDropped a.2 (placed.map Prod.snd).head?) :
    Carries (a :: placed) (u :: us) := by
  obtain ⟨kept, hsub, htokens, hkept⟩ := h
  cases hda : isDropped a.2 (placed.map Prod.snd).head? with
  | true =>
      refine ⟨kept, hsub.cons a, ?_, ?_⟩
      · rw [htokens, List.map_cons, dropSemicolons_of_isDropped hda]
      · rwa [dropSemicolons_of_isDropped (hd.trans hda)]
  | false =>
      refine ⟨a :: kept, hsub.cons_cons a, ?_, ?_⟩
      · rw [List.map_cons, htokens, List.map_cons, dropSemicolons_of_kept hda]
      · rw [dropSemicolons_of_kept (hd.trans hda)]
        exact .cons ha hkept

theorem Read.carries {breaks : Bool} {placed : List (Gap × Token)} {us : List Token}
    (h : Read breaks placed us) (hauto : ∀ a ∈ placed, a.2.isAuto = false)
    (hlines : KeepsLines placed) : Carries placed us := by
  induction h with
  | nil => exact ⟨[], .slnil, rfl, .nil⟩
  | token ha _ h ih =>
      obtain ⟨hautoa, hauto⟩ := List.forall_mem_cons.1 hauto
      obtain ⟨-, hlines⟩ := List.forall_mem_cons.1 hlines
      exact (ih hauto hlines).cons ha (isDropped_reread ha hautoa hlines h)
  | @lineEnd a e u placed us he _ ha _ h ih =>
      obtain ⟨hautoa, hauto⟩ := List.forall_mem_cons.1 hauto
      obtain ⟨-, hlines⟩ := List.forall_mem_cons.1 hlines
      have hrest := (ih hauto hlines).cons ha (isDropped_reread ha hautoa hlines h)
      have hgone : isDropped e (List.head? (u :: us)) = true := by
        simp [isDropped, Token.kind_of_isAuto he, he]
      rwa [Carries, dropSemicolons_of_isDropped hgone]

def semicolons (ts : List Token) : Nat :=
  (ts.flatMap fun t => t.text.toList).count ';'

theorem semicolons_cons (t : Token) (ts : List Token) :
    semicolons (t :: ts) = t.text.toList.count ';' + semicolons ts := by
  simp [semicolons]

theorem semicolons_of_keys {ts us : List Token} (h : ts.map Token.key = us.map Token.key) :
    semicolons ts = semicolons us := by
  have htexts := congrArg (List.flatMap fun k : Token.Kind × String => k.2.toList) h
  rw [List.flatMap_map, List.flatMap_map] at htexts
  exact congrArg (List.count ';') htexts

theorem count_printed (placed : List (Gap × Token)) :
    (printed placed).count ';' = semicolons (placed.map Prod.snd) := by
  have hgap (g : Gap) : g.chars.count ';' = 0 := by
    cases g with
    | none => rfl
    | space => rfl
    | newline blank depth => cases blank <;> simp [Gap.chars, List.count_replicate]
  induction placed with
  | nil => rfl
  | cons a placed ih =>
      obtain ⟨g, t⟩ := a
      simp [printed, semicolons_cons, hgap, ih]

theorem text_of_semicolon {t : Token} (h : t.Lexed) (hk : t.kind = .semicolon) : t.text = ";" := by
  obtain ⟨p, -, hkey⟩ := h
  have hkind : p.tokenKind = .semicolon := (congrArg Prod.fst hkey).symm.trans hk
  rw [← String.toList_inj, Token.toList_of_key hkey, Piece.text_of_semicolon hkind]
  rfl

theorem semicolons_dropSemicolons_le (ts : List Token) : semicolons (dropSemicolons ts) ≤ semicolons ts :=
  ((dropSemicolons_sublist ts).flatMap _).count_le ';'

theorem semicolons_dropSemicolons_lt {ts : List Token} (hts : ∀ t ∈ ts, t.Lexed)
    (hne : dropSemicolons ts ≠ ts) : semicolons (dropSemicolons ts) < semicolons ts := by
  induction ts with
  | nil => exact absurd rfl hne
  | cons t rest ih =>
      obtain ⟨ht, hrest⟩ := List.forall_mem_cons.1 hts
      cases hd : isDropped t rest.head? with
      | true =>
          have hle := semicolons_dropSemicolons_le rest
          have htext := text_of_semicolon ht (kind_of_isDropped hd)
          have hone : ";".toList.count ';' = 1 := by decide
          rw [dropSemicolons_of_isDropped hd, semicolons_cons, htext]
          omega
      | false =>
          rw [dropSemicolons_of_kept hd] at hne ⊢
          have hlt := ih hrest fun heq => hne (by rw [heq])
          rw [semicolons_cons, semicolons_cons]
          omega

end Layout

end Gosmith.Go
