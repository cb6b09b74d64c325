import Mathlib.Data.List.Count
import Mathlib.Order.Basic
import Mathlib.Order.Lattice

/-!
# Standard competition ranking

A key's rank among keys is one more than the number of those that are less. Equal keys share a
rank, and the shared ranks are consumed: in a sorted list the rank of a key is the position of the
first key equal to it.
-/

namespace Splitforge.Library

variable {Key : Type} [LinearOrder Key] {keys keys' : List Key} {key key' : Key}

/-- The rank of a key among keys. -/
def rank (keys : List Key) (key : Key) : Nat :=
  keys.countP (fun other => other < key) + 1

/-- The order of the keys does not matter. -/
theorem rank_eq_of_perm (h : keys.Perm keys') : rank keys key = rank keys' key := by
  rw [rank, rank, h.countP_eq]

/-- A key that is less has a better rank. -/
theorem rank_lt_rank (hmem : key ∈ keys) (h : key < key') : rank keys key < rank keys key' := by
  obtain ⟨front, back, rfl⟩ := List.append_of_mem hmem
  have hmono (keys : List Key) :
      keys.countP (fun other => other < key) ≤ keys.countP (fun other => other < key') :=
    List.countP_mono_left fun other _ hlt => by
      rw [decide_eq_true_eq] at hlt ⊢
      exact hlt.trans h
  have hfront := hmono front
  have hback := hmono back
  simp only [rank, List.countP_append, List.countP_cons, lt_irrefl, decide_false, h, decide_true]
  simp only [Bool.false_eq_true, if_false, if_true]
  omega

/-- Ranks are in the order of their keys. -/
theorem rank_lt_rank_iff (hmem : key ∈ keys) (hmem' : key' ∈ keys) :
    rank keys key < rank keys key' ↔ key < key' := by
  refine ⟨fun hlt => ?_, rank_lt_rank hmem⟩
  by_contra hnot
  rcases (not_lt.mp hnot).lt_or_eq with h | h
  · exact absurd hlt (rank_lt_rank hmem' h).not_gt
  · rw [h] at hlt
    exact lt_irrefl _ hlt

/-- Keys that differ have different ranks. -/
theorem rank_eq_rank_iff (hmem : key ∈ keys) (hmem' : key' ∈ keys) :
    rank keys key = rank keys key' ↔ key = key' := by
  refine ⟨fun heq => ?_, fun heq => by rw [heq]⟩
  rcases lt_trichotomy key key' with h | h | h
  · exact absurd heq (rank_lt_rank hmem h).ne
  · exact h
  · exact absurd heq (rank_lt_rank hmem' h).ne'

/-- A rank among keys is at most their number. -/
theorem rank_le_length (hmem : key ∈ keys) : rank keys key ≤ keys.length := by
  have hlt : keys.countP (fun other => other < key) < keys.length := by
    refine Nat.lt_of_le_of_ne List.countP_le_length fun heq => ?_
    have hself := List.countP_eq_length.mp heq key hmem
    rw [decide_eq_true_eq] at hself
    exact lt_irrefl key hself
  unfold rank
  omega

/-- Behind keys that are less and before keys that are not, a key ranks next. -/
theorem rank_append {front back : List Key} (hfront : ∀ other ∈ front, other < key)
    (hback : ∀ other ∈ back, key ≤ other) : rank (front ++ back) key = front.length + 1 := by
  have hcountFront : front.countP (fun other => other < key) = front.length :=
    List.countP_eq_length.mpr fun other hother => decide_eq_true (hfront other hother)
  have hcountBack : back.countP (fun other => other < key) = 0 :=
    List.countP_eq_zero.mpr fun other hother => by
      rw [decide_eq_true_eq]
      exact not_lt.mpr (hback other hother)
  rw [rank, List.countP_append, hcountFront, hcountBack, Nat.add_zero]

end Splitforge.Library
