import Mathlib.Logic.Basic

/-!
# Checked integers

An operation on machine integers is defined only where its exact result lies
between the bounds of the type. `checked` is the result, or nothing;
`checked_bind_eq_some` is the rule for what comes after it.
-/

namespace RoqHtx

/-- Whether an integer lies between the bounds of a type. -/
def Fits (lo hi x : Int) : Prop := lo ≤ x ∧ x ≤ hi

instance (lo hi x : Int) : Decidable (Fits lo hi x) := inferInstanceAs (Decidable (_ ∧ _))

def checked (lo hi x : Int) : Option Int := if Fits lo hi x then some x else none

theorem checked_of_fits {lo hi x : Int} (h : Fits lo hi x) : checked lo hi x = some x := if_pos h

theorem checked_eq_some_iff {lo hi x y : Int} : checked lo hi x = some y ↔ Fits lo hi x ∧ x = y := by
  rw [checked, Option.ite_none_right_eq_some, Option.some.injEq]

/-- What comes after an operation is reached exactly if its result fits. -/
theorem checked_bind_eq_some {α : Type} {lo hi x : Int} {f : Int → Option α} {a : α} :
    (checked lo hi x).bind f = some a ↔ Fits lo hi x ∧ f x = some a := by
  rw [Option.bind_eq_some_iff]
  constructor
  · rintro ⟨y, hy, ha⟩
    obtain ⟨hfits, rfl⟩ := checked_eq_some_iff.mp hy
    exact ⟨hfits, ha⟩
  · rintro ⟨hfits, ha⟩
    exact ⟨x, checked_of_fits hfits, ha⟩

end RoqHtx
