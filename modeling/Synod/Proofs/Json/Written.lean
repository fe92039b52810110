import Mathlib.Data.List.Forall2
import Synod.Json.Layout
import Synod.Proofs.Json.Strings

/-!
Layouts as they are written: an object of four members without a blank, in which only control
characters, quotes and backslashes are escaped.
-/
namespace Synod.Json

variable {α : Type} {c : Char} {cs : List Char} {css : List (List Char)} {xs : List α}
  {form : α → Bytes → Prop} {x : α} {bs : Bytes}

/-- The bytes of characters. -/
def utf8 (cs : List Char) : Bytes := cs.flatMap String.utf8EncodeChar

theorem encode_ofList (cs : List Char) : Text.encode (String.ofList cs) = utf8 cs := by
  rw [Text.encode, String.toList_ofList, utf8]

@[simp] theorem utf8_nil : utf8 [] = [] := rfl

@[simp] theorem utf8_append (cs ds : List Char) : utf8 (cs ++ ds) = utf8 cs ++ utf8 ds :=
  List.flatMap_append

theorem utf8_cons (c : Char) (cs : List Char) :
    utf8 (c :: cs) = String.utf8EncodeChar c ++ utf8 cs := rfl

theorem utf8_ascii (h : c.toNat < 0x80) (cs : List Char) : utf8 (c :: cs) = code c :: utf8 cs := by
  rw [utf8_cons, encodeChar_ascii h]
  rfl

theorem utf8_of_ascii (h : ∀ c ∈ cs, c.toNat < 0x80) : utf8 cs = cs.map code := by
  induction cs with
  | nil => rfl
  | cons c cs ih =>
    rw [utf8_ascii (h c List.mem_cons_self), ih fun d hd => h d (List.mem_cons_of_mem c hd)]
    rfl

section Strings

theorem hexDigit_code (n : Nat) : HexDigit (n % 16) (code (Bytes.hexDigit n)) ∧
    (Bytes.hexDigit n).toNat < 0x80 := by
  have hall : ∀ k < 16,
      (Nat.toDigits 16 k).headD '0' = k.digitChar ∧ k.digitChar.toNat < 0x80 := by decide
  have hn : n % 16 < 16 := Nat.mod_lt n (by decide)
  obtain ⟨hd, hlt⟩ := hall (n % 16) hn
  rw [Bytes.hexDigit, hd]
  exact ⟨⟨hn, .inl rfl⟩, hlt⟩

/-- A control character, spelled by its number. -/
theorem spelled_control (h : c.toNat < 0x20) : Spelled c
    (utf8 ['\\', 'u', '0', '0', Bytes.hexDigit (c.toNat / 16), Bytes.hexDigit c.toNat]) := by
  obtain ⟨hhigh, hhigh'⟩ := hexDigit_code (c.toNat / 16)
  obtain ⟨hlow, hlow'⟩ := hexDigit_code c.toNat
  have hzero : HexDigit 0 (code '0') := ⟨by decide, .inl rfl⟩
  have hhex := Hex.mk hzero hzero hhigh hlow
  have hn : 0 * 4096 + 0 * 256 + c.toNat / 16 % 16 * 16 + c.toNat % 16 = c.toNat := by omega
  rw [hn] at hhex
  rw [utf8_of_ascii (by simp [hhigh', hlow'])]
  exact .hex hhex

theorem spelled_writtenChar (c : Char) : Spelled c (utf8 (writtenChar c)) := by
  have hslash (e : Char) (h : (e, c) ∈ shortEscapes) : Spelled c (utf8 ['\\', e]) := by
    have hall : ∀ p ∈ shortEscapes, p.1.toNat < 0x80 := by decide
    rw [utf8_ascii (by decide), utf8_ascii (hall _ h)]
    exact .short h
  unfold writtenChar
  split
  · rename_i hc
    rcases hc with rfl | rfl <;> exact hslash _ (by simp [shortEscapes])
  rename_i hplain
  split
  · exact hslash _ (by simp_all [shortEscapes])
  split
  · exact hslash _ (by simp_all [shortEscapes])
  split
  · exact hslash _ (by simp_all [shortEscapes])
  split
  · exact hslash _ (by simp_all [shortEscapes])
  split
  · exact hslash _ (by simp_all [shortEscapes])
  split
  · rename_i hcontrol
    exact spelled_control hcontrol
  · rename_i hhigh
    rw [not_or] at hplain
    rw [utf8_cons, utf8_nil, List.append_nil]
    exact .plain (Nat.le_of_not_lt hhigh) hplain.1 hplain.2

theorem content_written (cs : List Char) : Content cs (utf8 (cs.flatMap writtenChar)) := by
  induction cs with
  | nil => exact .nil
  | cons c cs ih =>
    rw [List.flatMap_cons, utf8_append]
    exact .cons (spelled_writtenChar c) ih

theorem quoted_writtenText (s : String) : Quoted s (utf8 (writtenText s)) := by
  rw [writtenText, List.cons_append, utf8_ascii (by decide), utf8_append]
  exact .mk (content_written s.toList)

end Strings

section Lists

theorem spaced_self (h : form x bs) : Spaced form x bs := by
  have hs : Spaced form x ([] ++ bs ++ []) := .mk gap_nil h gap_nil
  rwa [List.nil_append, List.append_nil] at hs

theorem commas_intercalate (h : List.Forall₂ (fun x cs => form x (utf8 cs)) xs css) (hx : xs ≠ []) :
    Commas (Spaced form) xs (utf8 (List.intercalate [','] css)) := by
  induction h with
  | nil => exact absurd rfl hx
  | cons hform hrest ih =>
    cases hrest with
    | nil =>
      rw [List.intercalate_singleton]
      exact .one (spaced_self hform)
    | cons hform' hrest' =>
      rw [List.intercalate_cons_cons, utf8_append, utf8_append, List.append_assoc]
      exact .more (spaced_self hform) (ih (List.cons_ne_nil _ _))

/-- Forms that are written with commas between them and brackets around all of them. -/
theorem bracketed_intercalate {first last : Char} (hf : first.toNat < 0x80) (hl : last.toNat < 0x80)
    (h : List.Forall₂ (fun x cs => form x (utf8 cs)) xs css) :
    Bracketed form first last xs (utf8 (first :: List.intercalate [','] css ++ [last])) := by
  rw [List.cons_append, utf8_ascii hf, utf8_append, utf8_ascii hl, utf8_nil]
  cases h with
  | nil => exact .empty gap_nil
  | cons hform hrest => exact .full (commas_intercalate (.cons hform hrest) (List.cons_ne_nil _ _))

theorem textList_writtenList (items : List String) : TextList items (utf8 (writtenList items)) := by
  apply bracketed_intercalate (by decide) (by decide)
  rw [List.forall₂_map_right_iff, List.forall₂_same]
  exact fun s _ => quoted_writtenText s

end Lists

section Layouts

/-- The members of a layout as they are written. -/
def writtenEntries (l : Layout) : List Entry :=
  [⟨"epoch", utf8 (Nat.toDigits 10 l.epoch.toNat)⟩,
    ⟨"layout_servers", utf8 (writtenList l.layoutServers)⟩,
    ⟨"sequencers", utf8 (writtenList l.sequencers)⟩,
    ⟨"log_servers", utf8 (writtenList l.logServers)⟩]

theorem entryForm_writtenMember (name : String) (value : List Char) :
    EntryForm ⟨name, utf8 value⟩ (utf8 (writtenMember name value)) := by
  rw [writtenMember, utf8_append, utf8_ascii (by decide)]
  have h : EntryForm ⟨name, utf8 value⟩
      (utf8 (writtenText name) ++ [] ++ code ':' :: [] ++ utf8 value) :=
    .mk (quoted_writtenText name) gap_nil gap_nil
  simpa using h

theorem document_write (l : Layout) : Document (writtenEntries l) (Text.encode (write l)) := by
  rw [write, encode_ofList]
  apply spaced_self
  apply bracketed_intercalate (by decide) (by decide)
  have hmember := entryForm_writtenMember
  exact .cons (hmember _ _) (.cons (hmember _ _) (.cons (hmember _ _) (.cons (hmember _ _) .nil)))

theorem utf8_toDigits (n : Nat) : utf8 (Nat.toDigits 10 n) = (Nat.toDigits 10 n).map code := by
  apply utf8_of_ascii
  intro c hc
  have hd := Nat.isDigit_of_mem_toDigits (by decide) (by decide) hc
  simp only [Char.isDigit, Bool.and_eq_true, decide_eq_true_eq] at hd
  exact Nat.lt_of_le_of_lt (UInt32.le_iff_toNat_le.mp hd.2) (by decide)

theorem describes_writtenEntries (l : Layout) : Describes (writtenEntries l) l where
  epoch := by simp [valuesOf, writtenEntries, utf8_toDigits]
  layoutServers := .inl ⟨_, by simp [valuesOf, writtenEntries], textList_writtenList _⟩
  sequencers := .inl ⟨_, by simp [valuesOf, writtenEntries], textList_writtenList _⟩
  logServers := .inl ⟨_, by simp [valuesOf, writtenEntries], textList_writtenList _⟩
  others := by
    intro e he hk
    simp only [writtenEntries, List.mem_cons, List.not_mem_nil, or_false] at he
    rcases he with rfl | rfl | rfl | rfl <;> simp [fieldKeys] at hk

end Layouts

end Synod.Json
