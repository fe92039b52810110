import Synod.Rank

/-! The order of ranks is linear, and an absent rank is below every rank. -/
namespace Synod.Rank

variable {a b : Rank} {o : Option Rank}

instance : Std.IsLinearOrder Rank where
  le_refl a := le_iff_key.mpr (Nat.le_refl _)
  le_trans a b c hab hbc :=
    le_iff_key.mpr (Nat.le_trans (le_iff_key.mp hab) (le_iff_key.mp hbc))
  le_antisymm a b hab hba :=
    key_inj.mp (Nat.le_antisymm (le_iff_key.mp hab) (le_iff_key.mp hba))
  le_total a b := by
    rw [le_iff_key, le_iff_key]
    exact Nat.le_total _ _

instance : Std.LawfulOrderLT Rank where
  lt_iff a b := by
    rw [lt_iff_key, le_iff_key, le_iff_key]
    omega

instance : Std.LawfulOrderMax Rank where
  max_eq_or a b := by
    change (if a ≤ b then b else a) = a ∨ (if a ≤ b then b else a) = b
    split
    · exact Or.inr rfl
    · exact Or.inl rfl
  max_le_iff a b c := by
    change (if a ≤ b then b else a) ≤ c ↔ _
    split
    · rename_i hab
      exact ⟨fun h => ⟨Std.le_trans hab h, h⟩, And.right⟩
    · rename_i hab
      have hba := Std.le_of_not_ge hab
      exact ⟨fun h => ⟨h, Std.le_trans hba h⟩, And.left⟩

/-- A rank is above an optional one if it is above the rank that may be there. -/
theorem not_some_le_iff : ¬ some a ≤ o ↔ ∀ p ∈ o, p < a := by
  cases o with
  | none => simp
  | some b => simp [Std.not_le]

end Synod.Rank
