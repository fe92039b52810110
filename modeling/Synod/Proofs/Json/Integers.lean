import Synod.Json.Number
import Synod.Proofs.Json.Skipping

/-!
Natural numbers in JSON. A machine word is read off its decimal digits, and off nothing but the
digits of a number that has no point and no exponent.
-/
namespace Synod.Json

variable {b : UInt8} {bs ds rest : Bytes} {n : UInt64} {k m count bound : Nat} {negative : Bool}

section Digits

theorem isDigit_digitChar (h : k < 10) :
    isDigit (code k.digitChar) = true ∧ digit (code k.digitChar) = k := by
  have hall : ∀ k < 10, isDigit (code k.digitChar) = true ∧ digit (code k.digitChar) = k := by
    decide
  exact hall k h

/-- The digits of a number are those of its tenth and one more. -/
theorem toDigits_snoc (h : 10 ≤ k) :
    Nat.toDigits 10 k = Nat.toDigits 10 (k / 10) ++ [(k % 10).digitChar] := by
  have hd : k % 10 < 10 := Nat.mod_lt k (by decide)
  have happ := Nat.toDigits_append_toDigits (b := 10) (n := k / 10) (d := k % 10) (by decide)
    (by omega) hd
  rw [Nat.toDigits_of_lt_base hd, Nat.div_add_mod] at happ
  exact happ.symm

/-- What holds of numbers of one digit, and of a number if it holds of its tenth, holds of all. -/
theorem digits_induction {p : Nat → Prop} (one : ∀ k < 10, p k)
    (snoc : ∀ k, 10 ≤ k → p (k / 10) → p k) (k : Nat) : p k := by
  induction k using Nat.strongRecOn with
  | ind k ih =>
    by_cases h : k < 10
    · exact one k h
    · exact snoc k (by omega) (ih (k / 10) (by omega))

theorem all_toDigits (k : Nat) : ∀ b ∈ (Nat.toDigits 10 k).map code, isDigit b = true := by
  induction k using digits_induction with
  | one k h =>
    intro b hb
    rw [Nat.toDigits_of_lt_base h] at hb
    obtain rfl := List.mem_singleton.mp hb
    exact (isDigit_digitChar h).1
  | snoc k h ih =>
    intro b hb
    rw [toDigits_snoc h, List.map_append] at hb
    rcases List.mem_append.mp hb with hb | hb
    · exact ih b hb
    · obtain rfl := List.mem_singleton.mp hb
      exact (isDigit_digitChar (Nat.mod_lt k (by decide))).1

/-- Only zero is written with a zero at the front. -/
theorem head_toDigits (k : Nat) :
    k ≠ 0 → ((Nat.toDigits 10 k).map code).head? ≠ some (code '0') := by
  induction k using digits_induction with
  | one k h =>
    have hall : ∀ k < 10, k ≠ 0 → some (code k.digitChar) ≠ some (code '0') := by decide
    rw [Nat.toDigits_of_lt_base h]
    exact hall k h
  | snoc k h ih =>
    intro _
    have hne : (Nat.toDigits 10 (k / 10)).map code ≠ [] :=
      fun h => Nat.toDigits_ne_nil (List.map_eq_nil_iff.mp h)
    obtain ⟨d, ds, hd⟩ := List.exists_cons_of_ne_nil hne
    rw [toDigits_snoc h, List.map_append, hd]
    rw [hd] at ih
    exact ih (by omega)

theorem whole_toDigits (k : Nat) : Whole ((Nat.toDigits 10 k).map code) := by
  by_cases h : k = 0
  · subst h
    exact Or.inl rfl
  · have hne : (Nat.toDigits 10 k).map code ≠ [] :=
      fun h => Nat.toDigits_ne_nil (List.map_eq_nil_iff.mp h)
    have hall (b : UInt8) (hb : b ∈ (Nat.toDigits 10 k).map code) : code '0' ≤ b ∧ b ≤ code '9' :=
      isDigit_iff.mp (all_toDigits k b hb)
    exact Or.inr ⟨⟨hne, hall⟩, head_toDigits k h⟩

theorem digitsBelow_cons (hb : isDigit b = true) (h : k * 10 + digit b < bound) (rest : Bytes) :
    digitsBelow bound k count (b :: rest)
      = digitsBelow bound (k * 10 + digit b) (count + 1) rest := by
  rw [digitsBelow, if_pos ⟨hb, h⟩]

/-- The digits of a number below the bound are read as that number, whatever follows. -/
theorem digitsBelow_toDigits (k : Nat) : k < bound → ∀ rest, ∃ count,
    digitsBelow bound 0 0 ((Nat.toDigits 10 k).map code ++ rest)
      = digitsBelow bound k count rest := by
  induction k using digits_induction with
  | one k h =>
    intro hlt rest
    obtain ⟨hd, hv⟩ := isDigit_digitChar h
    refine ⟨1, ?_⟩
    rw [Nat.toDigits_of_lt_base h, List.map_singleton, List.singleton_append,
      digitsBelow_cons hd (by omega), hv, Nat.zero_mul, Nat.zero_add]
  | snoc k h ih =>
    intro hlt rest
    obtain ⟨hd, hv⟩ := isDigit_digitChar (Nat.mod_lt k (by decide : 0 < 10))
    obtain ⟨count, hc⟩ := ih (by omega) (code (k % 10).digitChar :: rest)
    have hk : k / 10 * 10 + k % 10 = k := Nat.div_add_mod' k 10
    refine ⟨count + 1, ?_⟩
    rw [toDigits_snoc h, List.map_append, List.append_assoc, List.map_singleton,
      List.singleton_append, hc, digitsBelow_cons hd (by omega), hv, hk]

theorem digitsBelow_stop (h : startsWithDigit rest = false) :
    digitsBelow bound k count rest = (k, count, rest) := by
  cases rest with
  | nil => rfl
  | cons b rest =>
    have hb : isDigit b = false := h
    simp [digitsBelow, hb]

/-- What is taken off a text are digits. -/
theorem digitsBelow_spec (bound k count : Nat) (bs : Bytes) :
    ∃ ds, (∀ b ∈ ds, isDigit b = true) ∧ bs = ds ++ (digitsBelow bound k count bs).2.2 := by
  induction bs generalizing k count with
  | nil => exact ⟨[], by simp, rfl⟩
  | cons b bs ih =>
    rw [digitsBelow]
    split
    · rename_i h
      obtain ⟨ds, hd, hbs⟩ := ih (k * 10 + digit b) (count + 1)
      refine ⟨b :: ds, ?_, congrArg (b :: ·) hbs⟩
      intro d hm
      rcases List.mem_cons.mp hm with rfl | hm
      · exact h.1
      · exact hd d hm
    · exact ⟨[], by simp, rfl⟩

end Digits

section Reading

/-- A reading that gives no natural number. -/
def Inexact (result : Except Error (Number × Bytes)) : Prop :=
  ∀ n rest, result ≠ .ok (.natural n, rest)

theorem inexact_error (e : Error) : Inexact (.error e) := by
  intro n rest h
  cases h

/-- What a reading that succeeds has read first. -/
theorem bind_eq_ok {α β : Type} {first : Except Error α} {next : α → Except Error β} {y : β}
    (h : first >>= next = .ok y) : ∃ x, first = .ok x ∧ next x = .ok y := by
  cases first with
  | error e => cases h
  | ok x => exact ⟨x, rfl, h⟩

theorem inexact_double (negative : Bool) (significand : Nat) (exponent : Int) (bs : Bytes) :
    Inexact (do return (← doubleOf negative significand exponent, bs)) := by
  intro n rest h
  obtain ⟨x, hx, h⟩ := bind_eq_ok h
  obtain ⟨f, -, hf⟩ := bind_eq_ok hx
  obtain rfl := Except.ok.inj hf
  cases h

theorem inexact_exponentPart (negative : Bool) (significand : Nat) (start : Int) (bs : Bytes) :
    Inexact (exponentPart negative significand start bs) := by
  unfold exponentPart
  split
  split
  · exact inexact_error _
  split
  · exact inexact_error _
  split
  split
  · split
    · exact inexact_error _
    · intro n rest h
      cases h
  · exact inexact_double _ _ _ _

theorem inexact_afterDigits (negative : Bool) (significand : Nat) (exponent : Int) (bs : Bytes) :
    Inexact (afterDigits negative significand exponent bs) := by
  unfold afterDigits
  split
  · exact inexact_exponentPart _ _ _ _
  · exact inexact_double _ _ _ _

theorem inexact_fractionPart (negative : Bool) (significand : Nat) (exponent : Int) (bs : Bytes) :
    Inexact (fractionPart negative significand exponent bs) := by
  unfold fractionPart
  dsimp only
  split
  · exact inexact_afterDigits _ _ _ _
  split
  · split <;> exact inexact_error _
  · exact inexact_afterDigits _ _ _ _

theorem eq_of_whole {tooLong : Bool} {dropped : Nat} {r : Bytes}
    (h : unsignedNumber.whole negative tooLong m dropped bs = .ok (.natural n, r)) :
    negative = false ∧ tooLong = false ∧ r = bs := by
  unfold unsignedNumber.whole at h
  split at h
  · exact absurd h (inexact_double _ _ _ _ n r)
  rename_i hlong
  split at h
  · rename_i hneg
    obtain ⟨-, rfl⟩ := Prod.mk.inj (Except.ok.inj h)
    exact ⟨by simpa using hneg, by simpa using hlong, rfl⟩
  split at h
  · cases h
  · exact absurd h (inexact_double _ _ _ _ n r)

theorem ends_iff : Ends rest ↔ startsWithDigit rest = false ∧ (∀ r, rest ≠ code '.' :: r) ∧
    startsWithExponent rest = false := by
  cases rest with
  | nil => simp [ends_nil, startsWithDigit, startsWithExponent]
  | cons b rest => simp [Ends, startsWithDigit, startsWithExponent, Skip.isExponentLetter]

theorem dropWhile_of_not_digit (h : startsWithDigit bs = false) : bs.dropWhile isDigit = bs := by
  cases bs with
  | nil => rfl
  | cons b bs => exact List.dropWhile_cons_of_neg (by simpa [startsWithDigit] using h)

/-- The digits of a machine word are followed by nothing that could belong to a number. -/
theorem ends_of_unsignedNumber (h : unsignedNumber negative bs = .ok (.natural n, rest)) :
    negative = false ∧ (digitsBelow wordBound 0 0 bs).2.2 = rest ∧ Ends rest := by
  unfold unsignedNumber at h
  split at h
  · cases h
  split at h
  · cases h
  split at h
  · cases h
  split at h
  rename_i m count left hfound
  rw [hfound]
  dsimp only at h ⊢
  split at h
  · rename_i c tail hleft
    split at h
    · exact absurd h (inexact_fractionPart _ _ _ _ n rest)
    rename_i hpoint
    split at h
    · exact absurd h (inexact_afterDigits _ _ _ _ n rest)
    rename_i hexp
    obtain ⟨hneg, hlong, rfl⟩ := eq_of_whole h
    rw [dropWhile_of_not_digit hlong] at hexp hleft ⊢
    refine ⟨hneg, rfl, ends_iff.mpr ⟨hlong, ?_, by simpa using hexp⟩⟩
    intro r hr
    rw [hleft] at hr
    exact hpoint (List.cons.inj hr).1
  · rename_i hleft
    obtain ⟨hneg, hlong, rfl⟩ := eq_of_whole h
    rw [dropWhile_of_not_digit hlong] at hleft ⊢
    subst hleft
    exact ⟨hneg, rfl, ends_nil⟩

/-- A machine word is read off the digits of a number and ends with them. -/
theorem whole_of_unsignedNumber (h : unsignedNumber negative bs = .ok (.natural n, rest)) :
    ∃ ds, bs = ds ++ rest ∧ Whole ds := by
  obtain ⟨-, hrest, hends⟩ := ends_of_unsignedNumber h
  obtain ⟨ds, hds, hbs⟩ := digitsBelow_spec wordBound 0 0 bs
  rw [hrest] at hbs
  unfold unsignedNumber at h
  split at h
  · cases h
  rename_i b r
  split at h
  · cases h
  rename_i hb
  split at h
  · cases h
  rename_i hzero
  refine ⟨ds, hbs, ?_⟩
  cases ds with
  | nil =>
    rw [List.nil_append] at hbs
    subst hbs
    have hd : isDigit b = false := (ends_iff.mp hends).1
    simp [hd] at hb
  | cons d ds =>
    obtain ⟨rfl, rfl⟩ := List.cons.inj hbs
    by_cases hz : b = code '0'
    · left
      cases ds with
      | nil => rw [hz]
      | cons d ds =>
        have hd : isDigit d = true := hds d (by simp)
        exact absurd ⟨hz, hd⟩ hzero
    · right
      refine ⟨⟨List.cons_ne_nil b ds, fun d hd => isDigit_iff.mp (hds d hd)⟩, ?_⟩
      exact fun h => hz (Option.some.inj h)

/-- Where a machine word is read, a number that ends there is passed over. -/
theorem run_of_number (h : number bs = .ok (.natural n, rest)) :
    Skip.run .value [] bs = .ok rest := by
  unfold number at h
  split at h
  · split at h
    · obtain ⟨hneg, -⟩ := ends_of_unsignedNumber h
      cases hneg
    · obtain ⟨-, -, hends⟩ := ends_of_unsignedNumber h
      obtain ⟨ds, hbs, hw⟩ := whole_of_unsignedNumber h
      rw [hbs]
      exact Skip.run_whole hw (Or.inl rfl) (Or.inl rfl) (Or.inl rfl) hends
  · cases h

theorem unsignedNumber_of_digits (hw : Whole ds) (hr : Ends rest)
    (hbelow : digitsBelow wordBound 0 0 (ds ++ rest) = (m, count, rest)) :
    unsignedNumber false (ds ++ rest) = .ok (.natural (UInt64.ofNat m), rest) := by
  obtain ⟨hdigit, hpoint, hexp⟩ := ends_iff.mp hr
  obtain ⟨b, tail, rfl, hb⟩ := Skip.lead_of_whole hw
  have hzero : ¬ (b = code '0' ∧ startsWithDigit (tail ++ rest) = true) := by
    rintro ⟨hz, hstart⟩
    rcases hw with hw | ⟨-, hlead⟩
    · obtain rfl := (List.cons.inj hw).2
      rw [List.nil_append, hdigit] at hstart
      cases hstart
    · exact hlead (congrArg some hz)
  rw [List.cons_append] at hbelow ⊢
  unfold unsignedNumber
  simp only [hb, hzero, hbelow, hdigit, dropWhile_of_not_digit hdigit, Bool.not_true,
    Bool.false_eq_true, if_false]
  split
  · rename_i c r
    rw [if_neg fun hc => hpoint r (by rw [hc]), if_neg (by simp [hexp])]
    rfl
  · rfl

/-- A machine word is read off its decimal digits. -/
theorem number_of_toDigits (n : UInt64) (hr : Ends rest) :
    number ((Nat.toDigits 10 n.toNat).map code ++ rest) = .ok (.natural n, rest) := by
  obtain ⟨count, hbelow⟩ := digitsBelow_toDigits n.toNat n.toNat_lt rest
  rw [digitsBelow_stop (ends_iff.mp hr).1] at hbelow
  have hw := whole_toDigits n.toNat
  have hread := unsignedNumber_of_digits hw hr hbelow
  obtain ⟨b, tail, hds, hb⟩ := Skip.lead_of_whole hw
  rw [UInt64.ofNat_toNat] at hread
  rw [hds] at hread ⊢
  rw [List.cons_append] at hread ⊢
  rw [number, if_neg (Skip.ne_of_isDigit hb rfl)]
  exact hread

end Reading

end Synod.Json
