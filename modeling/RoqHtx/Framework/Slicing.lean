import Mathlib.Data.List.Nodup
import Mathlib.Data.List.Enum

/-!
# A list in slices

A list to which elements are only ever added at the end, cut into slices by the
positions of its elements. `Slicing.members` are the members of one slice from
some position on, so that what is added to a slice is what it has from the old
length on (`members_append`). Slices of a list without duplicates share nothing
(`not_mem_members`).
-/

namespace RoqHtx

/-- The slice of a position, and the number of slices for a number of
elements. -/
structure Slicing where
  slice : Nat → Nat
  size : Nat → Nat
  slice_lt : ∀ position count, position < count → slice position < size count

namespace Slicing

variable {α : Type} (s : Slicing)

/-- The members of a slice at the positions from `start` on. -/
def members (index start : Nat) (l : List α) : List α :=
  (l.zipIdx.filter fun (_, position) =>
    s.slice position == index && decide (start ≤ position)).map Prod.fst

variable {s} {l : List α} {index start : Nat} {x : α}

theorem mem_members : x ∈ s.members index start l ↔
    ∃ position, l[position]? = some x ∧ s.slice position = index ∧ start ≤ position := by
  simp [members, List.mk_mem_zipIdx_iff_getElem?]

theorem members_sublist : (s.members index start l).Sublist l := by
  have h : (s.members index start l).Sublist (l.zipIdx.map Prod.fst) :=
    (List.filter_sublist).map Prod.fst
  rwa [List.zipIdx_map_fst] at h

theorem members_nodup (h : l.Nodup) : (s.members index start l).Nodup := h.sublist members_sublist

/-- What is added to a list is added to its slices. -/
theorem members_append (l new : List α) :
    s.members index 0 (l ++ new) = s.members index 0 l ++ s.members index l.length (l ++ new) := by
  have old : (l.zipIdx.filter fun (_, position) =>
      s.slice position == index && decide (l.length ≤ position)) = [] := by
    refine List.filter_eq_nil_iff.mpr fun ⟨x, position⟩ hx => ?_
    have hlt := List.snd_lt_of_mem_zipIdx hx
    simp only [Bool.and_eq_true, decide_eq_true_eq, not_and]
    omega
  have added : ∀ p ∈ new.zipIdx (0 + l.length), (s.slice p.2 == index && decide (0 ≤ p.2)) =
      (s.slice p.2 == index && decide (l.length ≤ p.2)) := fun ⟨x, position⟩ hx => by
    have hle := List.le_snd_of_mem_zipIdx hx
    have hlength : l.length ≤ position := by omega
    simp [hlength]
  unfold members
  rw [List.zipIdx_append, List.filter_append, List.filter_append, old, List.nil_append,
    List.map_append]
  exact congrArg _ (congrArg _ (List.filter_congr added))

/-- Slices of a list without duplicates share nothing. -/
theorem not_mem_members (hnodup : l.Nodup) {other : Nat} (hne : index ≠ other)
    (h : x ∈ s.members index 0 l) : x ∉ s.members other 0 l := by
  intro hother
  obtain ⟨p, hp, rfl, -⟩ := mem_members.mp h
  obtain ⟨q, hq, rfl, -⟩ := mem_members.mp hother
  have hlt : p < l.length := (List.getElem?_eq_some_iff.mp hp).1
  have same : p = q := (List.getElem?_inj hlt hnodup).mp (hp.trans hq.symm)
  exact hne (congrArg s.slice same)

/-- Every element is in one of the slices. -/
theorem exists_mem_members (h : x ∈ l) : ∃ index < s.size l.length, x ∈ s.members index 0 l := by
  obtain ⟨p, hp⟩ := List.getElem?_of_mem h
  have hlt : p < l.length := (List.getElem?_eq_some_iff.mp hp).1
  exact ⟨s.slice p, s.slice_lt p l.length hlt, mem_members.mpr ⟨p, hp, rfl, Nat.zero_le p⟩⟩

end Slicing

end RoqHtx
