import Gosmith.Proofs.Lexeme.Number
import Gosmith.Proofs.Schema.ExportedName
import Gosmith.Schema.TypeSpec
import Gosmith.Value.Basic

namespace Gosmith.Go

open Piece (Stops stops_nil stops_cons takeWhile_append_stops dropWhile_append_stops)

inductive TypeExpr where
  | name (word : List Char) (alphanum : word.all Char.isAlphanum = true)
  | unit
  | slice (elem : TypeExpr)
  | map (key value : TypeExpr)

namespace TypeExpr

def text : TypeExpr → List Char
  | name word _ => word
  | unit => ['s', 't', 'r', 'u', 'c', 't'] ++ ['{', '}']
  | slice elem => '[' :: ']' :: elem.text
  | map key value => ['m', 'a', 'p'] ++ '[' :: (key.text ++ ']' :: value.text)

def Ends (cs : List Char) : Prop :=
  Stops (· != ']') cs

variable {w v x y : List Char}

theorem ends_nil : Ends [] :=
  stops_nil _

theorem ends_cons (cs : List Char) : Ends (']' :: cs) :=
  stops_cons.2 rfl

theorem Ends.stops (h : Ends x) : Stops Char.isAlphanum x := by
  refine h.mono fun c hc => bne_iff_ne.2 ?_
  rintro rfl
  simp at hc

theorem word_append_inj (hw : w.all Char.isAlphanum = true) (hv : v.all Char.isAlphanum = true)
    (hx : Stops Char.isAlphanum x) (hy : Stops Char.isAlphanum y) (h : w ++ x = v ++ y) :
    w = v ∧ x = y := by
  rw [List.all_eq_true] at hw hv
  constructor
  · rw [← takeWhile_append_stops hw hx, h, takeWhile_append_stops hv hy]
  · rw [← dropWhile_append_stops hw hx, h, dropWhile_append_stops hv hy]

theorem word_append_ne (hw : w.all Char.isAlphanum = true) (hx : Ends x)
    (hv : v.all Char.isAlphanum = true) {c : Char} (hc : c ∈ ['[', '{']) :
    w ++ x ≠ v ++ c :: y := by
  intro h
  have hstop : c.isAlphanum = false ∧ c ≠ ']' := by
    simp only [List.mem_cons, List.not_mem_nil, or_false] at hc
    rcases hc with rfl | rfl
    · decide
    · decide
  -- both words end at the bracket, which is then the first character that follows the first word
  obtain ⟨-, rfl⟩ := word_append_inj hw hv hx.stops (stops_cons.2 hstop.1) h
  exact hstop.2 (by simpa using stops_cons.1 hx)

theorem eq_name_of_text (hw : w.all Char.isAlphanum = true) (hx : Ends x) (hy : Ends y)
    {e : TypeExpr} (h : w ++ x = e.text ++ y) : e = name w hw ∧ x = y := by
  cases e with
  | name v hv =>
      obtain ⟨rfl, rfl⟩ := word_append_inj hw hv hx.stops hy.stops h
      exact ⟨rfl, rfl⟩
  | unit =>
      rw [text, List.append_assoc] at h
      exact absurd h (word_append_ne hw hx (by decide) (by simp))
  | slice elem =>
      have hslice : w ++ x = [] ++ '[' :: (']' :: elem.text ++ y) := h
      exact absurd hslice (word_append_ne hw hx rfl (by simp))
  | map key value =>
      rw [text, List.append_assoc] at h
      exact absurd h (word_append_ne hw hx (by decide) (by simp))

theorem text_append_inj {e f : TypeExpr} (hx : Ends x) (hy : Ends y)
    (h : e.text ++ x = f.text ++ y) : e = f ∧ x = y := by
  induction e generalizing f x y with
  | name w hw =>
      obtain ⟨rfl, rfl⟩ := eq_name_of_text hw hx hy h
      exact ⟨rfl, rfl⟩
  | unit =>
      cases f with
      | name v hv => exact absurd (eq_name_of_text hv hy hx h.symm).1 (by simp)
      | unit => exact ⟨rfl, List.append_cancel_left h⟩
      | slice f => simp [text] at h
      | map k v => simp [text] at h
  | slice e ih =>
      cases f with
      | name v hv => exact absurd (eq_name_of_text hv hy hx h.symm).1 (by simp)
      | unit => simp [text] at h
      | slice f =>
          simp only [text, List.cons_append, List.cons.injEq, true_and] at h
          obtain ⟨rfl, rfl⟩ := ih hx hy h
          exact ⟨rfl, rfl⟩
      | map k v => simp [text] at h
  | map k v ihk ihv =>
      cases f with
      | name v hv => exact absurd (eq_name_of_text hv hy hx h.symm).1 (by simp)
      | unit => simp [text] at h
      | slice f => simp [text] at h
      | map k' v' =>
          -- the bracket behind the key ends its text, so the keys are read first
          simp only [text, List.append_assoc, List.cons_append, List.append_cancel_left_eq,
            List.cons.injEq, true_and] at h
          obtain ⟨rfl, hvalue⟩ := ihk (ends_cons _) (ends_cons _) h
          obtain ⟨rfl, rfl⟩ := ihv hx hy (List.cons.inj hvalue).2
          exact ⟨rfl, rfl⟩

theorem text_inj {e f : TypeExpr} (h : e.text = f.text) : e = f :=
  (text_append_inj ends_nil ends_nil (by rw [h])).1

def isNilable : TypeExpr → Bool
  | name _ _ => false
  | unit => false
  | slice _ => true
  | map _ _ => true

def StartsNilable (cs : List Char) : Prop :=
  "[]".toList <+: cs ∨ "map[".toList <+: cs

instance decidableStartsNilable (cs : List Char) : Decidable (StartsNilable cs) :=
  inferInstanceAs (Decidable (_ ∨ _))

theorem startsNilable_text (e : TypeExpr) : StartsNilable e.text ↔ e.isNilable = true := by
  cases e with
  | name w hw =>
      have hbracket : '[' ∉ w := by
        intro hmem
        simpa using List.all_eq_true.1 hw _ hmem
      have hstart : ¬ StartsNilable w := by
        rintro (h | h)
        · exact hbracket (h.subset (by simp))
        · exact hbracket (h.subset (by simp))
      simpa [isNilable, text] using hstart
  | unit => simp [StartsNilable, isNilable, text]
  | slice elem => simp [StartsNilable, isNilable, text]
  | map key value => simp [StartsNilable, isNilable, text]

end TypeExpr

end Gosmith.Go

namespace Gosmith

open Gosmith.Go
open Gosmith.Text (braced)

namespace Primitive

theorem all_goName {p : Primitive} (h : p ≠ .binary) :
    p.goName.toList.all Char.isAlphanum = true := by
  revert h
  cases p <;> decide +kernel

theorem head_goName {p : Primitive} (h : p ≠ .binary) :
    p.goName.toList.head?.any Char.isLower = true := by
  revert h
  cases p <;> decide +kernel

def SameType (p q : Primitive) : Prop :=
  p = q ∨ p ∈ [byte, i8] ∧ q ∈ [byte, i8]

instance decidableSameType (p q : Primitive) : Decidable (SameType p q) :=
  inferInstanceAs (Decidable (_ ∨ _))

theorem goName_eq_iff (p q : Primitive) : p.goName = q.goName ↔ SameType p q := by
  cases p <;> cases q <;> decide +kernel

end Primitive

namespace TypeSpec

variable {ρ : Type} {s t : TypeSpec ρ} {e : TypeExpr}

inductive IsConvertible : TypeSpec ρ → Prop
  | primitive (p : Primitive) : IsConvertible (.primitive p)
  | list {value : TypeSpec ρ} (h : IsConvertible value) : IsConvertible (.list value)
  | set {value : TypeSpec ρ} (h : IsConvertible value) : IsConvertible (.set value)
  | map {key value : TypeSpec ρ} (hk : IsConvertible key) (hv : IsConvertible value) :
      IsConvertible (.map key value)
  | declared {s : TypeSpec ρ} {name : String} (hname : s.declaredName? = some name)
      (h : name.toList.any Char.isAlphanum = true) : IsConvertible s

/-- The same containers, around primitives of the same type and declared types whose names have the
same exported spelling. -/
inductive Alike : TypeSpec ρ → TypeSpec ρ → Prop
  | primitive {p q : Primitive} (h : p.SameType q) : Alike (.primitive p) (.primitive q)
  | list {value value' : TypeSpec ρ} (h : Alike value value') : Alike (.list value) (.list value')
  | set {value value' : TypeSpec ρ} (h : Alike value value') : Alike (.set value) (.set value')
  | map {key key' value value' : TypeSpec ρ} (hk : Alike key key') (hv : Alike value value') :
      Alike (.map key value) (.map key' value')
  | declared {s t : TypeSpec ρ} {name name' r : String} (hs : s.declaredName? = some name)
      (ht : t.declaredName? = some name') (h : exported? name = some r)
      (h' : exported? name' = some r) : Alike s t

inductive Denotes : TypeSpec ρ → TypeExpr → Prop
  | primitive {p : Primitive} {w : List Char} {hw : w.all Char.isAlphanum = true}
      (hp : p ≠ .binary) (htext : p.goName.toList = w) : Denotes (.primitive p) (.name w hw)
  | binary (hw : "byte".toList.all Char.isAlphanum = true) :
      Denotes (.primitive .binary) (.slice (.name "byte".toList hw))
  | list {value : TypeSpec ρ} {e : TypeExpr} (h : Denotes value e) :
      Denotes (.list value) (.slice e)
  | set {value : TypeSpec ρ} {e : TypeExpr} (h : Denotes value e) :
      Denotes (.set value) (.map e .unit)
  | map {key value : TypeSpec ρ} {e f : TypeExpr} (hk : Denotes key e) (hv : Denotes value f) :
      Denotes (.map key value) (.map e f)
  | declared {s : TypeSpec ρ} {name : String} {w : List Char} {hw : w.all Char.isAlphanum = true}
      (hname : s.declaredName? = some name) (h : exported? name = some (String.ofList w)) :
      Denotes s (.name w hw)

theorem goText_of_declared [HasKind ρ] {name : String} (h : s.declaredName? = some name) :
    s.goText = exportedName name := by
  cases s <;> simp_all [declaredName?, goText]

theorem exists_denotes [HasKind ρ] (h : s.IsConvertible) :
    ∃ e, s.Denotes e ∧ s.goText = .ok (String.ofList e.text) := by
  induction h with
  | primitive p =>
      by_cases hp : p = .binary
      · subst hp
        exact ⟨_, .binary (by decide +kernel), rfl⟩
      · exact ⟨.name _ (Primitive.all_goName hp), .primitive hp rfl, by simp [goText, TypeExpr.text]⟩
  | list h ih =>
      obtain ⟨e, he, htext⟩ := ih
      refine ⟨.slice e, .list he, ?_⟩
      simp only [goText, htext, Except.ok.injEq, ← String.toList_inj]
      simp [TypeExpr.text]
  | set h ih =>
      obtain ⟨e, he, htext⟩ := ih
      refine ⟨.map e .unit, .set he, ?_⟩
      simp only [goText, htext, Except.ok.injEq, ← String.toList_inj]
      simp [TypeExpr.text, emptyStruct, braced]
  | map hk hv ihk ihv =>
      obtain ⟨e, he, hkey⟩ := ihk
      obtain ⟨f, hf, hvalue⟩ := ihv
      refine ⟨.map e f, .map he hf, ?_⟩
      simp only [goText, hkey, hvalue, Except.ok.injEq, ← String.toList_inj]
      simp [TypeExpr.text]
  | declared hname h =>
      obtain ⟨c, hc⟩ := Option.isSome_iff_exists.1 (List.find?_isSome.2 (List.any_eq_true.1 h))
      obtain ⟨r, hr, hspelling, -⟩ := exists_spelling hc
      refine ⟨.name r.toList (List.all_eq_true.2 hspelling.alphanum),
        .declared hname (by simpa using hr), ?_⟩
      rw [goText_of_declared hname, exportedName, hr]
      simp [TypeExpr.text]

theorem exported?_ne_of_head {w : List Char} (hw : w.head?.any Char.isLower = true)
    (name : String) : exported? name ≠ some (String.ofList w) := by
  intro h
  have hhead := (isSpelling_of_exported? h).head
  rw [String.toList_ofList, hw] at hhead
  cases hhead

theorem not_denotes_byte {hw : "byte".toList.all Char.isAlphanum = true} :
    ¬ s.Denotes (.name "byte".toList hw) := by
  intro h
  cases h with
  | primitive hp htext =>
      have hnone : ∀ p : Primitive, p.goName ≠ "byte" := by
        intro p
        cases p <;> decide +kernel
      exact hnone _ (String.toList_inj.1 htext)
  | declared hname h => exact exported?_ne_of_head (by decide +kernel) _ h

theorem Denotes.alike (hs : s.Denotes e) (ht : t.Denotes e) : Alike s t := by
  induction hs generalizing t with
  | primitive hp htext =>
      cases ht with
      | primitive hq htext' =>
          exact .primitive ((Primitive.goName_eq_iff _ _).1
            (String.toList_inj.1 (htext.trans htext'.symm)))
      | declared hname h =>
          exact absurd h (exported?_ne_of_head (htext ▸ Primitive.head_goName hp) _)
  | binary hw =>
      -- no other description has the element type of byte strings
      cases ht with
      | binary _ => exact .primitive (.inl rfl)
      | list h => exact absurd h not_denotes_byte
  | list h ih =>
      cases ht with
      | binary hw => exact absurd h not_denotes_byte
      | list h' => exact .list (ih h')
  | set h ih =>
      cases ht with
      | set h' => exact .set (ih h')
      | map _ hunit => cases hunit
  | map hk hv ihk ihv =>
      cases ht with
      | set _ => cases hv
      | map hk' hv' => exact .map (ihk hk') (ihv hv')
  | declared hname h =>
      cases ht with
      | primitive hp htext =>
          exact absurd h (exported?_ne_of_head (htext ▸ Primitive.head_goName hp) _)
      | declared hname' h' => exact .declared hname hname' h h'

theorem Alike.goText_eq [HasKind ρ] (h : Alike s t) : s.goText = t.goText := by
  induction h with
  | primitive h => rw [goText, goText, (Primitive.goName_eq_iff _ _).2 h]
  | list h ih => rw [goText, goText, ih]
  | set h ih => rw [goText, goText, ih]
  | map hk hv ihk ihv => rw [goText, goText, ihk, ihv]
  | declared hs ht h h' =>
      rw [goText_of_declared hs, goText_of_declared ht, exportedName, exportedName, h, h']

theorem reference_required [HasKind ρ] (s : TypeSpec ρ) : s.reference .required = s.goText := by
  rw [reference]
  cases s.goText with
  | error e => rfl
  | ok text => simp

theorem reference_read_uniquely [HasKind ρ] (hs : s.IsConvertible) (ht : t.IsConvertible) :
    ∃ a b, s.reference .required = .ok a ∧ t.reference .required = .ok b ∧
      (a = b ↔ Alike s t) := by
  obtain ⟨e, he, hse⟩ := exists_denotes hs
  obtain ⟨f, hf, htf⟩ := exists_denotes ht
  refine ⟨_, _, (reference_required s).trans hse, (reference_required t).trans htf, ?_, ?_⟩
  · intro hsame
    obtain rfl := TypeExpr.text_inj (String.ofList_injective hsame)
    exact he.alike hf
  · intro halike
    have htext := halike.goText_eq
    rw [hse, htf] at htext
    exact Except.ok.inj htext

def codes : TypeSpec Value :=
  .map (.list (.primitive .byte)) (.set (.user "http_code"))

def codesAgain : TypeSpec Value :=
  .map (.list (.primitive .i8)) (.set (.enum "HTTP-CODE" [("ok", 200)]))

theorem reference_read_uniquely_codes :
    codes.IsConvertible ∧ codesAgain.IsConvertible ∧
      codes.reference .required = .ok ("map[[]int8]map[HttpCode]struct" ++ braced "") ∧
      codesAgain.reference .required = codes.reference .required ∧ Alike codes codesAgain := by
  have hs : codes.IsConvertible :=
    .map (.list (.primitive _)) (.set (.declared rfl (by decide +kernel)))
  have ht : codesAgain.IsConvertible :=
    .map (.list (.primitive _)) (.set (.declared rfl (by decide +kernel)))
  have htext : codes.reference .required = .ok ("map[[]int8]map[HttpCode]struct" ++ braced "") := by
    decide +kernel
  have hsame : codesAgain.reference .required = codes.reference .required := by decide +kernel
  obtain ⟨a, b, ha, hb, hiff⟩ := reference_read_uniquely hs ht
  rw [hsame, ha, Except.ok.injEq] at hb
  exact ⟨hs, ht, htext, hsame, hiff.1 hb⟩

def resolved : TypeSpec ρ → TypeSpec ρ
  | typedef _ target => target.resolved
  | s => s

theorem isNilable_resolved (s : TypeSpec ρ) : s.resolved.isNilable = s.isNilable := by
  fun_induction resolved s with
  | case1 name target ih => rw [ih, isNilable]
  | case2 s hs => rfl

theorem resolved_ne_typedef (s : TypeSpec ρ) (name : String) (target : TypeSpec ρ) :
    s.resolved ≠ .typedef name target := by
  fun_induction resolved s with
  | case1 _ _ ih => exact ih
  | case2 s hs => exact hs name target

theorem Denotes.isNilable_eq (h : s.Denotes e) (hs : ∀ name target, s ≠ .typedef name target) :
    s.isNilable = e.isNilable := by
  cases h with
  | primitive hp htext => simpa [isNilable, TypeExpr.isNilable] using hp
  | binary hw => rfl
  | list h => rfl
  | set h => rfl
  | map hk hv => rfl
  | declared hname h =>
      cases s <;> simp_all [declaredName?, isNilable, TypeExpr.isNilable]

theorem reference_optional_pointer [HasKind ρ] (hs : s.IsConvertible)
    (hend : s.resolved.IsConvertible) :
    ∃ plain text, s.reference .required = .ok plain ∧ s.resolved.reference .required = .ok text ∧
      (¬ TypeExpr.StartsNilable text.toList → s.reference .optional = .ok ("*" ++ plain)) ∧
      (TypeExpr.StartsNilable text.toList → s.reference .optional = .ok plain) := by
  obtain ⟨e, -, hplain⟩ := exists_denotes hs
  obtain ⟨f, hf, htext⟩ := exists_denotes hend
  have hnilable : TypeExpr.StartsNilable f.text ↔ s.isNilable = true := by
    rw [TypeExpr.startsNilable_text, ← hf.isNilable_eq (resolved_ne_typedef s), isNilable_resolved]
  refine ⟨_, _, (reference_required s).trans hplain, (reference_required _).trans htext, ?_, ?_⟩
  · intro hstart
    rw [String.toList_ofList, hnilable] at hstart
    simp [reference, hplain, hstart]
  · intro hstart
    rw [String.toList_ofList, hnilable] at hstart
    simp [reference, hplain, hstart]

def blob : TypeSpec Value :=
  TypeSpec.typedef "blob" (.primitive .binary)

def blobName : TypeSpec Value :=
  TypeSpec.typedef "raw_blob" blob

def ownerName : TypeSpec Value :=
  TypeSpec.typedef "owner" (.struct "map_user" [])

theorem reference_optional_pointer_names :
    (blobName.IsConvertible ∧ blobName.resolved.IsConvertible ∧
      blobName.reference .optional = .ok "RawBlob") ∧
    ownerName.IsConvertible ∧ ownerName.resolved.IsConvertible ∧
      ownerName.reference .optional = .ok "*Owner" := by
  have hblob : blobName.IsConvertible := .declared rfl (by decide +kernel)
  have hbytes : blobName.resolved.IsConvertible := .primitive .binary
  have howner : ownerName.IsConvertible := .declared rfl (by decide +kernel)
  have huser : ownerName.resolved.IsConvertible := .declared rfl (by decide +kernel)
  refine ⟨⟨hblob, hbytes, ?_⟩, howner, huser, ?_⟩
  · obtain ⟨plain, text, hplain, htext, -, hnilable⟩ := reference_optional_pointer hblob hbytes
    obtain rfl : "RawBlob" = plain := Except.ok.inj (Eq.trans (by decide +kernel) hplain)
    obtain rfl : "[]byte" = text := Except.ok.inj (Eq.trans (by decide +kernel) htext)
    exact hnilable (.inl (by decide))
  · obtain ⟨plain, text, hplain, htext, hpointer, -⟩ := reference_optional_pointer howner huser
    obtain rfl : "Owner" = plain := Except.ok.inj (Eq.trans (by decide +kernel) hplain)
    obtain rfl : "MapUser" = text := Except.ok.inj (Eq.trans (by decide +kernel) htext)
    exact hpointer (by decide)

end TypeSpec

end Gosmith
