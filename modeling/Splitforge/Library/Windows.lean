import Mathlib.Data.List.Chain
import Mathlib.Order.Lattice

/-!
# Windows of time

Half-open windows over a linear order, the end of which may be absent. The type puts no order on
the two ends, so a window may be vacant: it ends at or before its start and covers nothing. Two
windows that cover a common instant overlap, but a vacant window may overlap one around it too, so
the two notions agree only where nothing is vacant.
-/

namespace Splitforge.Library

/-- A window: the start is inclusive and the end, when there is one, exclusive. -/
structure Window (Time : Type) where
  start : Time
  finish : Option Time

namespace Window

variable {Time : Type} [LinearOrder Time]

/-- Whether an instant is inside. -/
def covers (window : Window Time) (instant : Time) : Bool :=
  decide (window.start ≤ instant) && window.finish.all fun finish => instant < finish

/-- Whether each of two windows starts before the other ends. -/
def overlaps (window other : Window Time) : Bool :=
  (other.finish.all fun finish => window.start < finish) &&
    window.finish.all fun finish => other.start < finish

/-- Whether a window ends at or before its start. -/
def vacant (window : Window Time) : Bool :=
  window.finish.any fun finish => finish ≤ window.start

/-- Two windows share an instant when both cover it. -/
def Shares (window other : Window Time) : Prop :=
  ∃ instant, window.covers instant = true ∧ other.covers instant = true

variable {window other : Window Time} {instant : Time}

theorem covers_iff :
    window.covers instant = true ↔
      window.start ≤ instant ∧ ∀ finish ∈ window.finish, instant < finish := by
  simp [covers, Option.all_eq_true]

theorem overlaps_iff :
    window.overlaps other = true ↔
      (∀ finish ∈ other.finish, window.start < finish) ∧
        ∀ finish ∈ window.finish, other.start < finish := by
  simp [overlaps, Option.all_eq_true]

/-- A window that is not vacant starts before it ends. -/
theorem vacant_eq_false_iff :
    window.vacant = false ↔ ∀ finish ∈ window.finish, window.start < finish := by
  simp [vacant, Option.any_eq_false]

/-- A window that is not vacant covers its own start. -/
theorem covers_start (hvacant : window.vacant = false) : window.covers window.start = true :=
  covers_iff.mpr ⟨le_rfl, vacant_eq_false_iff.mp hvacant⟩

/-- A window that covers an instant is not vacant. -/
theorem vacant_eq_false_of_covers (hcovers : window.covers instant = true) :
    window.vacant = false := by
  obtain ⟨hstart, hfinish⟩ := covers_iff.mp hcovers
  exact vacant_eq_false_iff.mpr fun finish hmem => hstart.trans_lt (hfinish finish hmem)

/-- Windows that cover a common instant overlap. -/
theorem Shares.overlaps (h : window.Shares other) : window.overlaps other = true := by
  obtain ⟨instant, hwindow, hother⟩ := h
  obtain ⟨hstart, hfinish⟩ := covers_iff.mp hwindow
  obtain ⟨hstart', hfinish'⟩ := covers_iff.mp hother
  exact overlaps_iff.mpr ⟨fun finish hmem => hstart.trans_lt (hfinish' finish hmem),
    fun finish hmem => hstart'.trans_lt (hfinish finish hmem)⟩

/-- Between two windows that share an instant, in the order of their starts, a window right after
the first either overlaps it or is vacant. -/
theorem overlaps_or_vacant_of_shares {between : Window Time} (hle : window.start ≤ between.start)
    (hle' : between.start ≤ other.start) (hshares : window.Shares other) :
    window.overlaps between = true ∨ between.vacant = true := by
  cases hvacant : between.vacant with
  | true => exact Or.inr rfl
  | false =>
      refine Or.inl (overlaps_iff.mpr ⟨fun finish hmem => ?_, fun finish hmem => ?_⟩)
      · exact hle.trans_lt (vacant_eq_false_iff.mp hvacant finish hmem)
      · exact hle'.trans_lt ((overlaps_iff.mp hshares.overlaps).2 finish hmem)

/-- Among windows in the order of their starts of which no two neighbours overlap, two that share
an instant have a vacant one between them: the one right after the first. -/
theorem exists_vacant_between {Item : Type} (window : Item → Window Time) {items : List Item}
    (hsorted : items.Pairwise fun first second => (window first).start ≤ (window second).start)
    (hapart : items.IsChain fun first second => (window first).overlaps (window second) = false)
    {first second : Item} (hsub : [first, second].Sublist items)
    (hshares : (window first).Shares (window second)) :
    ∃ between, [first, between, second].Sublist items ∧ (window between).vacant = true := by
  induction items with
  | nil => cases hsub
  | cons item items ih =>
      obtain ⟨hfront, hrest⟩ := List.pairwise_cons.mp hsorted
      cases hsub with
      | cons _ hsub =>
          obtain ⟨between, hbetween, hvacant⟩ := ih hrest hapart.tail hsub
          exact ⟨between, hbetween.cons item, hvacant⟩
      | cons_cons _ hsub =>
          have hmem := List.singleton_sublist.mp hsub
          obtain ⟨next, rest, rfl⟩ := List.exists_cons_of_ne_nil (List.ne_nil_of_mem hmem)
          have hnext := (List.isChain_cons_cons.mp hapart).1
          rcases List.mem_cons.mp hmem with rfl | hafter
          · -- neighbours that share an instant overlap
            rw [hshares.overlaps] at hnext
            cases hnext
          · have hle := hfront next List.mem_cons_self
            have hle' := (List.pairwise_cons.mp hrest).1 second hafter
            refine ⟨next, ((List.singleton_sublist.mpr hafter).cons_cons next).cons_cons _, ?_⟩
            refine (overlaps_or_vacant_of_shares hle hle' hshares).resolve_left fun hoverlaps => ?_
            rw [hoverlaps] at hnext
            cases hnext

end Window

end Splitforge.Library
