import Synod.Proofs.Round

/-!
The highest of several ranks, told apart from the order in which they come. The greater of two
optional ranks is the highest of what both are the highest of.
-/
namespace Synod

section Greater

variable {a b : Option Rank} {r : Rank}

theorem max_eq_or (a b : Option Rank) : max a b = a ∨ max a b = b := by
  cases a with
  | none => exact Or.inr Option.max_none_left
  | some x =>
    cases b with
    | none => exact Or.inl Option.max_none_right
    | some y =>
      change some (max x y) = some x ∨ some (max x y) = some y
      rw [Option.some.injEq, Option.some.injEq]
      exact Std.max_eq_or

theorem exists_left_le_max (a b : Option Rank) : ∀ x ∈ a, ∃ z ∈ max a b, x ≤ z := by
  rintro x rfl
  cases b with
  | none => exact ⟨x, Option.max_none_right, Std.le_refl x⟩
  | some y => exact ⟨max x y, rfl, Std.left_le_max⟩

theorem exists_right_le_max (a b : Option Rank) : ∀ y ∈ b, ∃ z ∈ max a b, y ≤ z := by
  rintro y rfl
  cases a with
  | none => exact ⟨y, Option.max_none_left, Std.le_refl y⟩
  | some x => exact ⟨max x y, rfl, Std.right_le_max⟩

end Greater

namespace IsTop

variable {xs ys : List Rank} {a b : Option Rank} {r : Rank}

theorem toList (a : Option Rank) : IsTop id a.toList a := by
  refine ⟨fun x hx => Option.mem_toList.mpr hx, fun x hx => ?_⟩
  exact ⟨x, Option.mem_toList.mp hx, Std.le_refl x⟩

theorem append (ha : IsTop id xs a) (hb : IsTop id ys b) : IsTop id (xs ++ ys) (max a b) := by
  constructor
  · intro x hx
    rcases max_eq_or a b with h | h
    · rw [h] at hx
      exact List.mem_append_left ys (ha.1 x hx)
    · rw [h] at hx
      exact List.mem_append_right xs (hb.1 x hx)
  · intro x hx
    rcases List.mem_append.mp hx with hx | hx
    · obtain ⟨y, hy, hxy⟩ := ha.2 x hx
      obtain ⟨z, hz, hyz⟩ := exists_left_le_max a b y hy
      exact ⟨z, hz, Std.le_trans hxy hyz⟩
    · obtain ⟨y, hy, hxy⟩ := hb.2 x hx
      obtain ⟨z, hz, hyz⟩ := exists_right_le_max a b y hy
      exact ⟨z, hz, Std.le_trans hxy hyz⟩

/-- A rank that is not above the highest one does not change it. -/
theorem snoc_of_le (ha : IsTop id xs a) (h : ∃ x ∈ a, r ≤ x) : IsTop id (xs ++ [r]) a := by
  refine ⟨fun x hx => List.mem_append_left [r] (ha.1 x hx), fun x hx => ?_⟩
  rcases List.mem_append.mp hx with hx | hx
  · exact ha.2 x hx
  · obtain rfl := List.mem_singleton.mp hx
    exact h

/-- Of a list the front of which is told by its highest rank alone. -/
theorem of_toList_append (ha : IsTop id xs a) (hb : IsTop id (a.toList ++ ys) b) :
    IsTop id (xs ++ ys) b := by
  constructor
  · intro x hx
    rcases List.mem_append.mp (hb.1 x hx) with hx | hx
    · exact List.mem_append_left ys (ha.1 x (Option.mem_toList.mp hx))
    · exact List.mem_append_right xs hx
  · intro x hx
    rcases List.mem_append.mp hx with hx | hx
    · obtain ⟨y, hy, hxy⟩ := ha.2 x hx
      obtain ⟨z, hz, hyz⟩ := hb.2 y (List.mem_append_left ys (Option.mem_toList.mpr hy))
      exact ⟨z, hz, Std.le_trans hxy hyz⟩
    · exact hb.2 x (List.mem_append_right _ hx)

/-- A rank beats the highest of several if it beats all of them. -/
theorem lt_iff (ha : IsTop id xs a) : (∀ x ∈ a, x < r) ↔ ∀ x ∈ xs, x < r := by
  constructor
  · intro h x hx
    obtain ⟨y, hy, hxy⟩ := ha.2 x hx
    exact Std.lt_of_le_of_lt hxy (h y hy)
  · intro h x hx
    exact h x (ha.1 x hx)

theorem mem_of_mem_iff (ha : IsTop id xs a) (hb : IsTop id ys b) (h : ∀ x, x ∈ xs ↔ x ∈ ys) :
    ∀ x ∈ a, x ∈ b := by
  intro x hx
  obtain ⟨y, hy, hxy⟩ := hb.2 x ((h x).mp (ha.1 x hx))
  obtain ⟨z, hz, hyz⟩ := ha.2 y ((h y).mpr (hb.1 y hy))
  obtain rfl := Option.some.inj (hx.symm.trans hz)
  obtain rfl := Std.le_antisymm hxy hyz
  exact hy

/-- Neither order nor repetitions matter. -/
theorem eq_of_mem_iff (ha : IsTop id xs a) (hb : IsTop id ys b) (h : ∀ x, x ∈ xs ↔ x ∈ ys) :
    a = b := by
  apply Option.ext
  intro x
  constructor
  · exact mem_of_mem_iff ha hb h x
  · exact mem_of_mem_iff hb ha (fun y => (h y).symm) x

end IsTop
end Synod
