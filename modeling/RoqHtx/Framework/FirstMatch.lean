import Mathlib.Data.List.Perm.Basic

/-!
# The first deciding element of a list

A scan that stops at the first element that decides something
(`List.findSome?`) depends on the order of the list. `findSome?_perm_iff` says
when it does not: exactly when all deciding elements have the same effect.
-/

namespace RoqHtx

variable {α β γ : Type} {f : α → Option β}

/-- Any element can be brought to the front. -/
theorem exists_perm_cons {x : α} {l : List α} (hx : x ∈ l) : ∃ l', (x :: l').Perm l := by
  obtain ⟨l₁, l₂, rfl⟩ := List.append_of_mem hx
  exact ⟨l₁ ++ l₂, List.perm_middle.symm⟩

/-- A list and its permutations decide or fail to decide together. -/
theorem findSome?_isSome_of_perm {l l' : List α} (h : l'.Perm l) :
    (l'.findSome? f).isSome = (l.findSome? f).isSome := by
  rw [Bool.eq_iff_iff, List.findSome?_isSome_iff, List.findSome?_isSome_iff]
  exact ⟨fun ⟨x, hx, hf⟩ => ⟨x, h.mem_iff.mp hx, hf⟩, fun ⟨x, hx, hf⟩ => ⟨x, h.mem_iff.mpr hx, hf⟩⟩

/-- The effect of a scan is the same for every order of the list exactly when
all deciding elements have the same effect. -/
theorem findSome?_perm_iff (effect : Option β → γ) (l : List α) :
    (∀ l' : List α, l'.Perm l → effect (l'.findSome? f) = effect (l.findSome? f)) ↔
      ∀ x ∈ l, ∀ y ∈ l, (f x).isSome → (f y).isSome → effect (f x) = effect (f y) := by
  constructor
  · intro h x hx y hy hfx hfy
    have front : ∀ z ∈ l, (f z).isSome → effect (f z) = effect (l.findSome? f) := by
      intro z hz hfz
      obtain ⟨l', hp⟩ := exists_perm_cons hz
      obtain ⟨b, hb⟩ := Option.isSome_iff_exists.mp hfz
      rw [← h _ hp, List.findSome?_cons, hb]
    rw [front x hx hfx, front y hy hfy]
  · intro h l' hp
    have hs := findSome?_isSome_of_perm (f := f) hp
    cases hl : l.findSome? f with
    | none =>
      rw [hl, Option.isSome_none, Option.isSome_eq_false_iff, Option.isNone_iff_eq_none] at hs
      rw [hs]
    | some b =>
      rw [hl, Option.isSome_some] at hs
      obtain ⟨b', hl'⟩ := Option.isSome_iff_exists.mp hs
      obtain ⟨x, hx, hfx⟩ := List.exists_of_findSome?_eq_some hl
      obtain ⟨y, hy, hfy⟩ := List.exists_of_findSome?_eq_some hl'
      rw [hl', ← hfx, ← hfy]
      exact h y (hp.mem_iff.mp hy) x hx (by simp [hfy]) (by simp [hfx])

end RoqHtx
