import Mathlib.Data.Nat.Digits.Defs
import Synod.Text.Blank
import Synod.Text.Decimal

/-!
The words of a typed line, and the numbers that its words spell. A line is cut at every blank, and a
number is an optional plus sign and one or more decimal digits.
-/
namespace Synod.Text

/-- Blank characters only, or nothing. -/
def Gap (cs : List Char) : Prop := ∀ c ∈ cs, isBlank c = true

/-- One or more characters of which none is blank. -/
def IsWord (cs : List Char) : Prop := cs ≠ [] ∧ ∀ c ∈ cs, isBlank c = false

/-- The maximal runs of characters that are not blank, in order: a run comes after a gap, and ends
where the text does or a blank stands. -/
inductive Runs : List Char → List (List Char) → Prop where
  | none {gap : List Char} (hg : Gap gap) : Runs gap []
  | run {gap word rest : List Char} {words : List (List Char)} (hg : Gap gap) (hw : IsWord word)
      (hr : ∀ c ∈ rest.head?, isBlank c = true) (h : Runs rest words) :
      Runs (gap ++ word ++ rest) (word :: words)

/-- Decimal digits, leading zeros among them, that spell a number. -/
structure Digits (cs : List Char) (n : Nat) : Prop where
  nonempty : cs ≠ []
  digits : ∀ c ∈ cs, '0' ≤ c ∧ c ≤ '9'
  value : Nat.ofDigits 10 (cs.map fun c => c.toNat - '0'.toNat).reverse = n

/-- How a number may be typed. -/
def Numeral (cs : List Char) (n : Nat) : Prop := Digits cs n ∨ ∃ ds, cs = '+' :: ds ∧ Digits ds n

variable {cs word acc gap rest : List Char} {ws : List (List Char)} {n bound : Nat} {c : Char}

theorem gap_nil : Gap [] := by
  intro c hc
  cases hc

theorem gap_cons (hc : isBlank c = true) (hg : Gap gap) : Gap (c :: gap) := by
  intro d hd
  rcases List.mem_cons.mp hd with rfl | hd
  · exact hc
  · exact hg d hd

theorem go_gap (hg : Gap gap) (rest : List Char) :
    words.go (gap ++ rest) [] = words.go rest [] := by
  induction gap with
  | nil => rfl
  | cons c gap ih =>
    have hc : isBlank c = true := hg c List.mem_cons_self
    simp only [List.cons_append, words.go, hc, if_true]
    exact ih fun d hd => hg d (List.mem_cons_of_mem c hd)

theorem go_word (hw : ∀ c ∈ word, isBlank c = false) (rest acc : List Char) :
    words.go (word ++ rest) acc = words.go rest (word.reverse ++ acc) := by
  induction word generalizing acc with
  | nil => rfl
  | cons c word ih =>
    have hc : isBlank c = false := hw c List.mem_cons_self
    have hrest := ih (fun d hd => hw d (List.mem_cons_of_mem c hd)) (c :: acc)
    simp only [List.cons_append, words.go, hc, hrest, List.reverse_cons, List.append_assoc,
      List.nil_append, Bool.false_eq_true, if_false]

/-- Where a word ends, it is told and nothing of it is kept. -/
theorem go_end (hne : acc ≠ []) (hr : ∀ c ∈ rest.head?, isBlank c = true) :
    words.go rest acc = acc.reverse :: words.go rest [] := by
  obtain ⟨a, acc, rfl⟩ := List.exists_cons_of_ne_nil hne
  cases rest with
  | nil => simp [words.go]
  | cons c rest =>
    have hc : isBlank c = true := hr c rfl
    simp [words.go, hc]

theorem words_of_runs (h : Runs cs ws) : words cs = ws := by
  induction h with
  | none hg =>
    have h := go_gap hg []
    rw [List.append_nil] at h
    rw [words, h, words.go]
  | @run gap word rest ws hg hw hr _ ih =>
    have hne : word.reverse ≠ [] := by simpa using hw.1
    rw [words, List.append_assoc, go_gap hg, go_word hw.2, List.append_nil, go_end hne hr,
      List.reverse_reverse]
    exact congrArg (word :: ·) ih

/-- A character that is not blank makes the run after it longer, or is a run by itself. -/
theorem runs_cons (hc : isBlank c = false) (h : Runs cs ws) : ∃ ws', Runs (c :: cs) ws' := by
  by_cases hcs : ∀ d ∈ cs.head?, isBlank d = true
  · have hw : IsWord [c] := ⟨List.cons_ne_nil c [], by simpa using hc⟩
    exact ⟨[c] :: ws, .run gap_nil hw hcs h⟩
  obtain ⟨d, tail, rfl⟩ : ∃ d tail, cs = d :: tail := by
    cases cs with
    | nil => simp at hcs
    | cons d tail => exact ⟨d, tail, rfl⟩
  have hd : isBlank d = false := by simpa using hcs
  -- The text begins with a run, so that no gap comes before the first.
  generalize htext : d :: tail = text at h
  cases h with
  | none hg =>
    subst htext
    simp [hg d List.mem_cons_self] at hd
  | @run gap word rest ws hg hw hr h =>
    cases gap with
    | nil =>
      have hcw : IsWord (c :: word) := by
        refine ⟨List.cons_ne_nil c word, fun x hx => ?_⟩
        rcases List.mem_cons.mp hx with rfl | hx
        · exact hc
        · exact hw.2 x hx
      exact ⟨(c :: word) :: ws, .run gap_nil hcw hr h⟩
    | cons b gap =>
      obtain rfl : d = b := by
        rw [List.cons_append, List.cons_append] at htext
        exact (List.cons.inj htext).1
      simp [hg d List.mem_cons_self] at hd

theorem exists_runs (cs : List Char) : ∃ ws, Runs cs ws := by
  induction cs with
  | nil => exact ⟨[], .none gap_nil⟩
  | cons c cs ih =>
    obtain ⟨ws, h⟩ := ih
    cases hc : isBlank c with
    | false => exact runs_cons hc h
    | true =>
      refine ⟨ws, ?_⟩
      cases h with
      | none hg => exact .none (gap_cons hc hg)
      | run hg hw hr h => exact .run (gap_cons hc hg) hw hr h

/-- The words of a text are its maximal runs of characters that are not blank. -/
theorem words_eq_iff : words cs = ws ↔ Runs cs ws := by
  constructor
  · intro h
    obtain ⟨ws', h'⟩ := exists_runs cs
    obtain rfl := (words_of_runs h').symm.trans h
    exact h'
  · exact words_of_runs

theorem digitsValue_eq (cs : List Char) :
    digitsValue 0 cs = Nat.ofDigits 10 (cs.map fun c => c.toNat - '0'.toNat).reverse := by
  simp [digitsValue, digitValue, Nat.ofDigits_eq_foldr, List.foldr_reverse, List.foldl_map,
    Nat.add_comm]

theorem isAsciiDigit_iff : isAsciiDigit c = true ↔ '0' ≤ c ∧ c ≤ '9' := by
  simp [isAsciiDigit]

/-- A number after its sign, if it is below a bound. -/
def unsigned? (bound : Nat) (ds : List Char) : Option Nat :=
  if ds ≠ [] ∧ ds.all isAsciiDigit then
    let n := digitsValue 0 ds
    if n < bound then some n else none
  else none

theorem decimal?_plus (bound : Nat) (ds : List Char) :
    decimal? bound ('+' :: ds) = unsigned? bound ds := rfl

theorem decimal?_of_ne_plus (h : ∀ ds, cs ≠ '+' :: ds) :
    decimal? bound cs = unsigned? bound cs := by
  rw [decimal?, unsigned?]
  exact h

theorem unsigned?_eq_some_iff : unsigned? bound cs = some n ↔ Digits cs n ∧ n < bound := by
  unfold unsigned?
  rw [digitsValue_eq]
  constructor
  · intro h
    split at h
    · rename_i hds
      dsimp only at h
      split at h
      · rename_i hlt
        obtain rfl := Option.some.inj h
        have hd := List.all_eq_true.mp hds.2
        exact ⟨⟨hds.1, fun c hc => isAsciiDigit_iff.mp (hd c hc), rfl⟩, hlt⟩
      · cases h
    · cases h
  · rintro ⟨⟨hne, hd, rfl⟩, hlt⟩
    have hall : cs.all isAsciiDigit :=
      List.all_eq_true.mpr fun c hc => isAsciiDigit_iff.mpr (hd c hc)
    rw [if_pos ⟨hne, hall⟩]
    exact if_pos hlt

/-- A plus sign is no digit. -/
theorem not_digits_plus {ds : List Char} : ¬ Digits ('+' :: ds) n := by
  intro h
  have hd := h.digits '+' List.mem_cons_self
  exact absurd hd (by decide)

/-- Exactly the typed numbers below the bound are read, each as its value. -/
theorem decimal?_eq_some_iff : decimal? bound cs = some n ↔ Numeral cs n ∧ n < bound := by
  by_cases hp : ∃ ds, cs = '+' :: ds
  · obtain ⟨ds, rfl⟩ := hp
    rw [decimal?_plus, unsigned?_eq_some_iff]
    constructor
    · rintro ⟨h, hlt⟩
      exact ⟨Or.inr ⟨ds, rfl, h⟩, hlt⟩
    · rintro ⟨h | ⟨ds', hds, h⟩, hlt⟩
      · exact absurd h not_digits_plus
      · obtain rfl := (List.cons.inj hds).2
        exact ⟨h, hlt⟩
  · rw [decimal?_of_ne_plus fun ds h => hp ⟨ds, h⟩, unsigned?_eq_some_iff]
    constructor
    · rintro ⟨h, hlt⟩
      exact ⟨Or.inl h, hlt⟩
    · rintro ⟨h | ⟨ds, hds, _⟩, hlt⟩
      · exact ⟨h, hlt⟩
      · exact absurd ⟨ds, hds⟩ hp

theorem word16?_eq_some_iff {p : UInt16} : word16? cs = some p ↔ Numeral cs p.toNat := by
  rw [word16?, Option.map_eq_some_iff]
  constructor
  · rintro ⟨n, h, rfl⟩
    obtain ⟨hn, hlt⟩ := decimal?_eq_some_iff.mp h
    rwa [UInt16.toNat_ofNat_of_lt' hlt]
  · intro h
    exact ⟨p.toNat, decimal?_eq_some_iff.mpr ⟨h, p.toNat_lt⟩, UInt16.ofNat_toNat⟩

theorem word64?_eq_some_iff {p : UInt64} : word64? cs = some p ↔ Numeral cs p.toNat := by
  rw [word64?, Option.map_eq_some_iff]
  constructor
  · rintro ⟨n, h, rfl⟩
    obtain ⟨hn, hlt⟩ := decimal?_eq_some_iff.mp h
    rwa [UInt64.toNat_ofNat_of_lt' hlt]
  · intro h
    exact ⟨p.toNat, decimal?_eq_some_iff.mpr ⟨h, p.toNat_lt⟩, UInt64.ofNat_toNat⟩

end Synod.Text
