import Mathlib.Data.List.Nodup
import Mathlib.Logic.Function.Iterate

/-!
# Counters

A counter steps from one value to the next and hands out each value that it comes to
(`Counts`). Until it comes to a bound, its ranks follow one another
(`Counts.map_rank`): what it hands out is all different (`Counts.nodup`), and lies
between where it started and how far it has come (`Counts.rank_mem`). What several
counters hand out together is all different if what each of them hands out is, and no
two hand out the same (`nodup_of_owners`).
-/

namespace RoqHtx

variable {α β γ : Type}

/-- A counter has come from `start` to a value, and has handed out those of a list,
newest first. -/
inductive Counts (next : α → α) (start : α) : α → List α → Prop
  | start : Counts next start start []
  | next {x : α} {l : List α} (h : Counts next start x l) : Counts next start (next x) (next x :: l)

/-- A step is a step up by one, below the bound. -/
def Climbs (next : α → α) (rank : α → Nat) (bound : Nat) : Prop :=
  ∀ x, rank x + 1 < bound → rank (next x) = rank x + 1

namespace Counts

variable {next : α → α} {start x : α} {l : List α} {rank : α → Nat} {bound : Nat}

/-- How far a counter has come, as long as its ranks stay below the bound. -/
theorem rank_eq (h : Counts next start x l) (hnext : Climbs next rank bound)
    (hl : rank start + l.length < bound) : rank x = rank start + l.length := by
  induction h with
  | start => rfl
  | next h ih =>
    rw [List.length_cons] at hl ⊢
    have before := ih (by omega)
    rw [hnext _ (by omega), before, Nat.add_assoc]

/-- One run of a counter after another. -/
theorem append {y : α} {l' : List α} (h : Counts next start x l) (h' : Counts next x y l') :
    Counts next start y (l' ++ l) := by
  induction h' with
  | start => exact h
  | next _ ih => exact ih.next

/-- The ranks follow one another. -/
theorem map_rank (h : Counts next start x l) (hnext : Climbs next rank bound)
    (hl : rank start + l.length < bound) :
    l.reverse.map rank = List.range' (rank start + 1) l.length := by
  induction h with
  | start => rfl
  | next h ih =>
    have newest := (h.next).rank_eq hnext hl
    rw [List.length_cons] at hl newest ⊢
    rw [List.reverse_cons, List.map_append, ih (by omega), List.range'_1_concat, List.map_singleton,
      newest, Nat.add_assoc, Nat.add_comm 1]

theorem rank_mem (h : Counts next start x l) (hnext : Climbs next rank bound)
    (hl : rank start + l.length < bound) :
    ∀ y ∈ l, rank start < rank y ∧ rank y ≤ rank start + l.length := by
  intro y hy
  have hrank : rank y ∈ l.reverse.map rank := List.mem_map_of_mem (List.mem_reverse.mpr hy)
  rw [h.map_rank hnext hl, List.mem_range'_1] at hrank
  omega

theorem nodup (h : Counts next start x l) (hnext : Climbs next rank bound)
    (hl : rank start + l.length < bound) : l.Nodup := by
  have hranks : (l.reverse.map rank).Nodup := h.map_rank hnext hl ▸ List.nodup_range'
  exact List.nodup_reverse.mp (List.Nodup.of_map rank hranks)

end Counts

/-- What belongs to several owners is all different if what belongs to each of them
is, and nothing belongs to two. -/
theorem nodup_of_owners [DecidableEq γ] (owner : α → γ) {value : α → β} : ∀ {l : List α},
    (∀ k, ((l.filter fun x => owner x = k).map value).Nodup) →
    (∀ x ∈ l, ∀ y ∈ l, value x = value y → owner x = owner y) → (l.map value).Nodup
  | [], _, _ => List.nodup_nil
  | x :: l, heach, hone => by
    have own := heach (owner x)
    rw [List.filter_cons_of_pos (by simp), List.map_cons, List.nodup_cons] at own
    refine List.nodup_cons.mpr ⟨fun hmem => ?_, nodup_of_owners owner (fun k => ?_) fun y hy z hz =>
      hone y (List.mem_cons_of_mem x hy) z (List.mem_cons_of_mem x hz)⟩
    · obtain ⟨y, hy, hvalue⟩ := List.mem_map.mp hmem
      have same := hone y (List.mem_cons_of_mem x hy) x List.mem_cons_self hvalue
      exact own.1 (List.mem_map.mpr ⟨y, List.mem_filter.mpr ⟨hy, by simpa using same⟩, hvalue⟩)
    · exact ((List.sublist_cons_self x l).filter _).map value |>.nodup (heach k)

end RoqHtx
