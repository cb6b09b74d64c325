import Splitforge.Engine.Derive
import Mathlib.Data.List.SplitBy

/-!
# Bursts

The bursts of a list of reads are its maximal runs of reads that follow the one before them
within the window. Together they are the list, and none is empty, so some read of every burst
that clears its floor can be credited.
-/

namespace Splitforge.Engine

open Splitforge.Domain Splitforge.Library

/-- Whether a read comes no later than a window after the one before it. -/
def follows (window : Duration) (first second : StoredRawRead) : Bool :=
  decide (second.read.authoritativeTimestamp - first.read.authoritativeTimestamp ≤ window)

/-- A read continues the burst of the read before it, or starts a new one. -/
theorem next_after (window : Duration) (bursts : List (List StoredRawRead))
    (front : List StoredRawRead) (last stored : StoredRawRead) :
    BurstScan.next window
        ⟨bursts, front ++ [last], some last.read.authoritativeTimestamp⟩ stored =
      if follows window last stored then
        ⟨bursts, front ++ [last] ++ [stored], some stored.read.authoritativeTimestamp⟩
      else
        ⟨bursts ++ [front ++ [last]], [stored], some stored.read.authoritativeTimestamp⟩ := by
  unfold BurstScan.next follows
  by_cases hgap : window <
      stored.read.authoritativeTimestamp - last.read.authoritativeTimestamp
  · simp [hgap, not_le.mpr hgap]
  · simp [hgap, not_lt.mp hgap]

/-- The loop of `split_into_bursts` cuts where the next read does not follow. -/
theorem scan_eq_loop (window : Duration) (reads : List StoredRawRead) (last : StoredRawRead)
    (front : List StoredRawRead) (bursts : List (List StoredRawRead)) :
    let scan := reads.foldl (BurstScan.next window)
      ⟨bursts, front ++ [last], some last.read.authoritativeTimestamp⟩
    scan.current ≠ [] ∧ scan.bursts ++ [scan.current] =
      List.splitBy.loop (follows window) reads last front.reverse bursts.reverse := by
  induction reads generalizing last front bursts with
  | nil => simp [List.splitBy.loop]
  | cons stored reads ih =>
      rw [List.foldl_cons, next_after, List.splitBy.loop]
      cases follows window last stored with
      | true =>
          have hrest := ih stored (front ++ [last]) bursts
          rw [List.reverse_append] at hrest
          exact hrest
      | false =>
          have hrest := ih stored [] (bursts ++ [front ++ [last]])
          rw [List.reverse_append] at hrest
          simpa using hrest

/-- `split_into_bursts` splits the reads wherever one does not follow the one before it. -/
theorem split_into_bursts_eq (reads : List StoredRawRead) (window : Duration) :
    splitIntoBursts reads window = reads.splitBy (follows window) := by
  cases reads with
  | nil => rfl
  | cons first reads =>
      obtain ⟨hcurrent, hbursts⟩ := scan_eq_loop window reads first [] []
      show (if _ then _ else _) = List.splitBy.loop (follows window) reads first [] []
      exact (if_neg hcurrent).trans hbursts

/-- The bursts together are the reads. -/
theorem flatten_split_into_bursts (reads : List StoredRawRead) (window : Duration) :
    (splitIntoBursts reads window).flatten = reads := by
  rw [split_into_bursts_eq, List.flatten_splitBy]

/-- The read a burst is credited with is one of its reads. -/
theorem mem_of_select {burst : List StoredRawRead} {rule : SelectionRule}
    {chosen : StoredRawRead} (h : select burst rule = some chosen) : chosen ∈ burst := by
  cases rule with
  | first => exact List.mem_of_head? h
  | firstAboveRssi floorDbm => exact List.mem_of_find?_eq_some h
  | peakRssi =>
      obtain ⟨⟨stored, index⟩, hmax, rfl⟩ := Option.map_eq_some_iff.mp h
      exact List.fst_mem_of_mem_zipIdx (mem_of_max_by_key hmax)

end Splitforge.Engine
