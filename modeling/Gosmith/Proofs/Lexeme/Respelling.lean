import Gosmith.Proofs.Lexeme.Fusion
import Gosmith.Proofs.Lexeme.Shape
import Gosmith.Proofs.Lexeme.Token

namespace Gosmith.Go.Token

open Gosmith.Text

/-- Tokens with a semicolon for a line end only after a token that can end a statement, and with one
if that token is the last. The flag tells whether such a token stands just before them. -/
inductive Punctuated : Bool → List Token → Prop
  | nil : Punctuated false []
  | lexeme {breaks : Bool} {t : Token} {ts : List Token} (ht : t.Lexed)
      (h : Punctuated t.endsStatement ts) : Punctuated breaks (t :: ts)
  | lineEnd {t : Token} {ts : List Token} (ht : t.isAuto = true) (h : Punctuated false ts) :
      Punctuated true (t :: ts)

namespace Pending

theorem punctuated_lineEnd (s : Pending) {ts : List Token} (h : Punctuated false ts) :
    Punctuated s.breaks (s.lineEnd ++ ts) := by
  cases hb : s.breaks with
  | false => simpa [lineEnd, hb] using h
  | true =>
      simp only [lineEnd, hb, if_true, List.singleton_append]
      exact .lineEnd (by simp [isAuto]) h

theorem punctuated_run (s : Pending) {ps : List Piece}
    (hps : ∀ p ∈ ps, p.kind.isGap = false → Piece.Lexeme p) :
    Punctuated s.breaks ((s.run ps).1 ++ (s.run ps).2.lineEnd) := by
  induction ps generalizing s with
  | nil => simpa [run] using s.punctuated_lineEnd .nil
  | cons p ps ih =>
      obtain ⟨hp, hps⟩ := List.forall_mem_cons.1 hps
      have hrest := ih (s.step p).2 hps
      rw [run_cons, List.append_assoc]
      cases hgap : p.kind.isGap with
      | false =>
          rw [step_lexeme hgap] at hrest ⊢
          exact .lexeme ⟨p, hp hgap, s.key_token p⟩ hrest
      | true =>
          by_cases hline : p.text.count '\n' = 0
          · rw [step_plain hgap hline] at hrest ⊢
            exact hrest
          · rw [step_line hgap hline] at hrest ⊢
            exact s.punctuated_lineEnd hrest

end Pending

theorem endsStatement_of_key {t u : Token} (h : t.key = u.key) :
    t.endsStatement = u.endsStatement := by
  simp only [key, Prod.mk.injEq] at h
  rw [endsStatement, endsStatement, h.1, h.2]

/-- A text that reads as given tokens, whatever stands before it. The flag tells whether that would
make a line end a semicolon. -/
def ReadsAs (breaks : Bool) (cs : List Char) (ts : List Token) : Prop :=
  (Piece.split cs).2 = none ∧ ∀ s : Pending, s.breaks = breaks →
    ((s.run (Piece.split cs).1).1 ++ (s.run (Piece.split cs).1).2.lineEnd).map key = ts.map key

theorem readsAs_nil : ReadsAs false [] [] := by
  refine ⟨by simp [Piece.split], fun s hs => ?_⟩
  simp [Piece.split, Pending.run, Pending.lineEnd, hs]

theorem ReadsAs.space {breaks : Bool} {cs : List Char} {ts : List Token} (h : ReadsAs breaks cs ts)
    (hstop : Piece.Stops Piece.isBlankChar cs) : ReadsAs breaks (' ' :: cs) ts := by
  have hempty : ∀ d ∈ ([] : List Char), Piece.isBlankChar d = true := by simp
  have htake := Piece.takeWhile_append_stops hempty hstop
  have hdrop := Piece.dropWhile_append_stops hempty hstop
  have hnext : Piece.next ' ' cs = .ok (⟨.blank, [' ']⟩, cs) := by
    simp_all [Piece.next, Piece.isBlankChar]
  refine ⟨by rw [Piece.split_cons hnext, h.1], fun s hs => ?_⟩
  rw [Piece.split_cons hnext, Pending.run_cons, Pending.step_plain rfl (by decide)]
  exact h.2 _ hs

theorem ReadsAs.newline {t : Token} (ht : t.isAuto = true) {cs : List Char} {ts : List Token}
    (h : ReadsAs false cs ts) : ReadsAs true ('\n' :: cs) (t :: ts) := by
  have hnext : Piece.next '\n' cs = .ok (⟨.newline, ['\n']⟩, cs) := by
    simp [Piece.next, Piece.isBlankChar]
  have hkey : t.key = (.semicolon, autoText) := by
    simpa [isAuto, key] using ht
  refine ⟨by rw [Piece.split_cons hnext, h.1], fun s hs => ?_⟩
  rw [Piece.split_cons hnext, Pending.run_cons, Pending.step_line rfl (by decide),
    List.append_assoc, List.map_append, h.2 _ rfl, List.map_cons, hkey]
  simp [Pending.lineEnd, hs, key]

theorem ReadsAs.token {t : Token} (ht : t.Lexed) {breaks : Bool} {cs : List Char}
    {ts : List Token} (h : ReadsAs t.endsStatement cs ts) (hcs : Piece.Spaced cs) :
    ReadsAs breaks (t.text.toList ++ cs) (t :: ts) := by
  obtain ⟨p, hp, hkey⟩ := ht
  have hsplit := Piece.split_lexeme hp (Piece.clear_spaced p hcs)
  rw [ReadsAs, toList_of_key hkey, hsplit]
  refine ⟨h.1, fun s _ => ?_⟩
  have hends : (s.token p).endsStatement = t.endsStatement :=
    endsStatement_of_key (by rw [s.key_token p, hkey])
  rw [Pending.run_cons, Pending.step_lexeme hp.isGap, List.append_assoc, List.map_append,
    h.2 _ hends, List.map_cons, List.map_cons, hkey]
  rfl

def spread (ts : List Token) : List Char :=
  ts.flatMap fun t => ' ' :: t.text.toList

theorem spaced_spread (ts : List Token) : Piece.Spaced (spread ts) := by
  cases ts with
  | nil => simp [Piece.Spaced, spread]
  | cons t ts => simp [Piece.Spaced, spread]

theorem text_of_isAuto {t : Token} (h : t.isAuto = true) : t.text = autoText := by
  simp only [isAuto, Bool.and_eq_true, beq_iff_eq] at h
  exact h.2

theorem readsAs_spread {breaks : Bool} {ts : List Token} (h : Punctuated breaks ts) :
    ReadsAs breaks (spread ts) ts := by
  induction h with
  | nil => exact readsAs_nil
  | @lexeme breaks t ts ht h ih =>
      have hread : ReadsAs breaks (t.text.toList ++ spread ts) (t :: ts) :=
        ih.token ht (spaced_spread ts)
      obtain ⟨p, hp, hkey⟩ := ht
      refine hread.space ?_
      rw [toList_of_key hkey]
      exact hp.stops_blank _
  | @lineEnd t ts ht h ih =>
      have htext : t.text.toList = ['\n'] := by
        rw [text_of_isAuto ht]
        rfl
      have hread := (ReadsAs.newline ht ih).space (Piece.stops_cons.2 (by decide))
      simpa [spread, htext] using hread

theorem toList_intercalate_space (t : Token) (ts : List Token) :
    (" ".intercalate ((t :: ts).map Token.text)).toList = t.text.toList ++ spread ts := by
  induction ts generalizing t with
  | nil => simp [spread]
  | cons u ts ih =>
      rw [List.map_cons, List.map_cons, String.intercalate_cons_cons, ← List.map_cons,
        String.toList_append, String.toList_append, ih u]
      simp [spread]

theorem readsAs_intercalate {ts : List Token} (h : Punctuated false ts) :
    ReadsAs false (" ".intercalate (ts.map Token.text)).toList ts := by
  cases h with
  | nil => exact readsAs_nil
  | @lexeme _ t ts ht h =>
      rw [toList_intercalate_space]
      exact (readsAs_spread h).token ht (spaced_spread ts)

theorem map_key_finish (s : Pending) (ts : List Token) :
    (ts ++ s.finish).map key = (ts ++ s.lineEnd).map key ++ [(.eof, "")] := by
  simp [Pending.finish, key]

theorem filter_finish (s : Pending) (ps : List Piece) :
    (((s.run ps).1 ++ (s.run ps).2.finish).filter fun t => t.kind != .eof) =
      (s.run ps).1 ++ (s.run ps).2.lineEnd := by
  have hrun : ∀ t ∈ (s.run ps).1, (t.kind != .eof) = true := by
    intro t ht
    simpa using Pending.kind_of_mem_run ht
  have hline : ∀ t ∈ (s.run ps).2.lineEnd, (t.kind != .eof) = true := by
    intro t ht
    simpa using Pending.kind_of_mem_lineEnd ht
  rw [Pending.finish, List.filter_append, List.filter_append, List.filter_eq_self.2 hrun,
    List.filter_eq_self.2 hline]
  simp

theorem ofSource_respelled {source : String} {ts : List Token} (h : ofSource source = .ok ts) :
    ∃ us, ofSource (" ".intercalate ((ts.filter fun t => t.kind != .eof).map Token.text)) = .ok us ∧
      us.map key = ts.map key := by
  obtain ⟨-, rfl⟩ := ofSource_eq_ok.1 h
  have hlex : ∀ p ∈ (Piece.split source.toList).1, p.kind.isGap = false → Piece.Lexeme p :=
    fun p => Piece.lexeme_of_mem_split
  obtain ⟨hnone, hkeys⟩ := readsAs_intercalate (Pending.punctuated_run {} hlex)
  rw [filter_finish]
  refine ⟨_, ofSource_eq_ok.2 ⟨hnone, rfl⟩, ?_⟩
  rw [map_key_finish, map_key_finish, hkeys {} rfl]

def respelledSource : String :=
  "0b/0x.p1+.5i..7x_++\n\"\\\n\"/*\n*/" ++ backquoted "\n//" ++ "; return"

def respelledKeys : List (Kind × String) :=
  [(.int, "0"), (.ident, "b"), (.op, "/"), (.float, "0x.p1"), (.op, "+"), (.imag, ".5i"),
    (.op, "."), (.float, ".7"), (.ident, "x_"), (.op, "++"), (.semicolon, "\n"),
    (.string, "\"\\\n\""), (.semicolon, "\n"), (.string, backquoted "\n//"), (.semicolon, ";"),
    (.keyword, "return"), (.semicolon, "\n"), (.eof, "")]

theorem ofSource_respelled_numbers : ∃ ts us, ofSource respelledSource = .ok ts ∧
    ofSource (" ".intercalate ((ts.filter fun t => t.kind != .eof).map Token.text)) = .ok us ∧
    us.map key = ts.map key ∧ ts.map key = respelledKeys := by
  have hview : (ofSource respelledSource).toOption.map (List.map key) = some respelledKeys := by
    decide +kernel
  cases hts : ofSource respelledSource with
  | error e => simp [hts, Except.toOption] at hview
  | ok ts =>
      obtain ⟨us, hus, hkeys⟩ := ofSource_respelled hts
      exact ⟨ts, us, rfl, hus, hkeys, by simpa [hts, Except.toOption] using hview⟩

end Gosmith.Go.Token
