import Splitforge.Domain.Race
import Splitforge.Library.Windows

/-!
# Who wears a chip

A registry is built when no two neighbours overlap among a chip's assignments, taken in the order
their windows start. Neighbours are enough where every window covers something. An assignment that
ends at or before its start covers nothing, and one that stands right after another keeps that
other from being compared with the next.
-/

namespace Splitforge.Domain

open Std (ExtTreeMap)
open Splitforge.Library

/-- The time an assignment is for. -/
def ChipAssignment.window (assignment : ChipAssignment) : Window OffsetDateTime where
  start := assignment.validFrom
  finish := assignment.validUntil

variable {assignments given : List ChipAssignment} {assignment other : ChipAssignment}
variable {chip : ChipId} {at' : OffsetDateTime} {registry registry' : ChipRegistry}

theorem covers_eq_window (assignment : ChipAssignment) (at' : OffsetDateTime) :
    assignment.covers at' = assignment.window.covers at' := rfl

/-- Whether an assignment ends at or before its start, so that it covers no instant. -/
def ChipAssignment.vacant (assignment : ChipAssignment) : Bool :=
  assignment.window.vacant

/-- A chip's assignments, in the order their windows start. -/
def inTurn (chip : ChipId) (assignments : List ChipAssignment) : List ChipAssignment :=
  sortByKey ChipAssignment.validFrom (assignments.filter fun assignment => assignment.chip = chip)

/-- No two of the assignments put one chip on two wearers at one instant. -/
def Unambiguous (assignments : List ChipAssignment) : Prop :=
  ∀ chip at', (assignments.countP fun assignment =>
    decide (assignment.chip = chip) && assignment.covers at') ≤ 1

/-- Between two of a chip's assignments that cover a common instant stands a vacant one. -/
def HidesOverlap (assignments : List ChipAssignment) : Prop :=
  ∃ chip at' first hidden second, [first, hidden, second].Sublist (inTurn chip assignments) ∧
    hidden.vacant = true ∧ first.covers at' = true ∧ second.covers at' = true

theorem mem_in_turn : assignment ∈ inTurn chip assignments ↔
    assignment ∈ assignments ∧ assignment.chip = chip := by
  rw [inTurn, mem_sort_by_key, List.mem_filter, decide_eq_true_eq]

theorem in_turn_perm (chip : ChipId) (assignments : List ChipAssignment) :
    (inTurn chip assignments).Perm
      (assignments.filter fun assignment => assignment.chip = chip) :=
  sort_by_key_perm _ _

/-- How many of a chip's assignments cover an instant does not depend on their order. -/
theorem count_p_in_turn (chip : ChipId) (at' : OffsetDateTime)
    (assignments : List ChipAssignment) :
    (inTurn chip assignments).countP (fun assignment => assignment.covers at') =
      assignments.countP fun assignment =>
        decide (assignment.chip = chip) && assignment.covers at' := by
  rw [(in_turn_perm chip assignments).countP_eq, List.countP_filter]
  exact List.countP_congr fun assignment _ => by rw [Bool.and_comm]

/-- Whether two of a list's neighbours overlap. -/
theorem any_overlap_eq_false_iff {turns : List ChipAssignment} :
    anyOverlap turns = false ↔
      turns.IsChain fun first second => first.overlaps second = false := by
  induction turns with
  | nil => exact iff_of_true rfl .nil
  | cons first rest ih =>
      cases rest with
      | nil => exact iff_of_true rfl (.singleton _)
      | cons second rest =>
          rw [anyOverlap, Bool.or_eq_false_iff, ih, List.isChain_cons_cons]

/-- The assignments of every chip, each list in turn. -/
def byChip (assignments : List ChipAssignment) : ExtTreeMap ChipId (List ChipAssignment) :=
  (groupBy (fun assignment => some assignment.chip) assignments).map fun _ list =>
    sortByKey ChipAssignment.validFrom list

/-- What stands under a chip. -/
theorem get_by_chip (assignments : List ChipAssignment) (chip : ChipId) :
    (byChip assignments)[chip]? =
      if inTurn chip assignments = [] then none else some (inTurn chip assignments) := by
  have hitems : itemsWith (fun assignment : ChipAssignment => some assignment.chip) chip
      assignments = assignments.filter fun assignment => assignment.chip = chip := by
    rw [itemsWith]
    exact List.filter_congr fun assignment _ => by simp
  have hnil : inTurn chip assignments = [] ↔
      (assignments.filter fun assignment => assignment.chip = chip) = [] := by
    rw [List.eq_nil_iff_length_eq_zero, (in_turn_perm chip assignments).length_eq,
      List.eq_nil_iff_length_eq_zero]
  rw [byChip, get_map, get_group_by, hitems]
  split_ifs with hleft hright hright
  · rfl
  · exact absurd (hnil.mpr hleft) hright
  · exact absurd (hnil.mp hright) hleft
  · rfl

/-- Neighbours overlap under some chip, or under none. -/
theorem find_overlap_eq_none_iff :
    ((byChip assignments).toList.find? fun entry => anyOverlap entry.2) = none ↔
      ∀ chip, anyOverlap (inTurn chip assignments) = false := by
  rw [List.find?_eq_none]
  constructor
  · intro hnone chip
    by_cases hnil : inTurn chip assignments = []
    · rw [hnil]
      rfl
    · have hget := get_by_chip assignments chip
      rw [if_neg hnil] at hget
      exact Bool.eq_false_iff.mpr (hnone (chip, inTurn chip assignments) (mem_to_list.mpr hget))
  · intro hall entry hentry
    have hget := get_by_chip assignments entry.1
    rw [mem_to_list.mp hentry] at hget
    split_ifs at hget with hnil
    rw [Option.some.inj hget, hall]
    exact Bool.false_ne_true

/-- A registry is built exactly when no chip has overlapping neighbours. -/
theorem from_assignments_eq_ok_iff :
    ChipRegistry.fromAssignments assignments = .ok registry ↔
      (∀ chip, anyOverlap (inTurn chip assignments) = false) ∧
        registry = ⟨byChip assignments⟩ := by
  rw [← find_overlap_eq_none_iff]
  unfold ChipRegistry.fromAssignments
  dsimp only
  split
  · rename_i hfound
    refine iff_of_false (fun h => by cases h) fun h => ?_
    rw [byChip, hfound] at h
    cases h.1
  · rename_i hnone
    constructor
    · intro h
      cases h
      exact ⟨hnone, rfl⟩
    · intro h
      rw [h.2]
      rfl

/-- In a built registry a chip is worn by the first of its assignments in turn to cover the
instant. -/
theorem resolve_eq_find (hbuilt : ChipRegistry.fromAssignments assignments = .ok registry)
    (chip : ChipId) (at' : OffsetDateTime) :
    registry.resolve chip at' =
      (inTurn chip assignments).find? fun assignment => assignment.covers at' := by
  rw [ChipRegistry.resolve, (from_assignments_eq_ok_iff.mp hbuilt).2, get_by_chip]
  split_ifs with hnil
  · rw [hnil]
    rfl
  · rfl

/-- At most one item counts exactly when no two of them do. -/
theorem count_p_le_one_iff {Item : Type} {counts : Item → Bool} {items : List Item} :
    items.countP counts ≤ 1 ↔
      ∀ first second, [first, second].Sublist items → ¬ (counts first = true ∧
        counts second = true) := by
  rw [← List.pairwise_iff_forall_sublist]
  induction items with
  | nil => simp
  | cons item items ih =>
      rw [List.pairwise_cons, ← ih, List.countP_cons]
      cases hcounts : counts item with
      | true =>
          have hnone : (∀ other ∈ items, ¬ (true = true ∧ counts other = true)) ↔
              items.countP counts = 0 := by
            rw [List.countP_eq_zero]
            exact forall₂_congr fun other _ => by rw [and_iff_right rfl]
          rw [hnone, if_pos rfl]
          omega
      | false => simp

/-- Of items of which at most one counts, the one found does not depend on their order. -/
theorem find_eq_of_perm {Item : Type} {counts : Item → Bool} {items items' : List Item}
    (hperm : items.Perm items') (honce : items.countP counts ≤ 1) :
    items.find? counts = items'.find? counts := by
  rw [← List.head?_filter, ← List.head?_filter]
  have hfilter := hperm.filter counts
  rw [List.countP_eq_length_filter] at honce
  match hitems : items.filter counts with
  | [] =>
      rw [hitems] at hfilter
      rw [hfilter.nil_eq]
  | [item] =>
      rw [hitems] at hfilter
      rw [hfilter.singleton_eq]
  | first :: second :: rest =>
      rw [hitems] at honce
      simp at honce

/-- In a list without repetitions a chip is on one wearer at a time exactly when no two assignments
cover a common instant. -/
theorem unambiguous_iff_of_nodup (hnodup : assignments.Nodup) :
    Unambiguous assignments ↔ ∀ at', ∀ first ∈ assignments, ∀ second ∈ assignments,
      first.chip = second.chip → first.covers at' = true → second.covers at' = true →
      first = second := by
  constructor
  · intro honce at' first hfirst second hsecond hchip hcovers hcovers'
    by_contra hne
    have hpair : [first, second].Subperm assignments :=
      List.subperm_of_subset (by simp [hne]) (by simp [hfirst, hsecond])
    have hcount := (hpair.countP_le _).trans (honce second.chip at')
    simp [hchip, hcovers, hcovers'] at hcount
  · intro hsame chip at'
    rw [count_p_le_one_iff]
    intro first second hsub hboth
    have hpair := hnodup.sublist hsub
    simp only [Bool.and_eq_true, decide_eq_true_eq] at hboth
    obtain ⟨⟨hchip, hcovers⟩, hchip', hcovers'⟩ := hboth
    have heq := hsame at' first (hsub.subset List.mem_cons_self) second
      (hsub.subset (List.mem_cons_of_mem _ List.mem_cons_self)) (hchip.trans hchip'.symm)
      hcovers hcovers'
    rw [heq] at hpair
    simp at hpair

/-- Where no overlap is hidden, an accepted list puts a chip on one wearer at a time. -/
theorem unambiguous_of_accepted (haccepted : ∀ chip, anyOverlap (inTurn chip assignments) = false)
    (hhides : ¬ HidesOverlap assignments) : Unambiguous assignments := by
  intro chip at'
  rw [← count_p_in_turn, count_p_le_one_iff]
  intro first second hsub hcovers
  obtain ⟨hidden, hbetween, hvacant⟩ := Window.exists_vacant_between ChipAssignment.window
    (sorted_sort_by_key ChipAssignment.validFrom _) (any_overlap_eq_false_iff.mp (haccepted chip))
    hsub ⟨at', hcovers.1, hcovers.2⟩
  exact hhides ⟨chip, at', first, hidden, second, hbetween, hvacant, hcovers.1, hcovers.2⟩

/-- A hidden overlap puts a chip on two wearers at once. -/
theorem not_unambiguous_of_hides (hhides : HidesOverlap assignments) :
    ¬ Unambiguous assignments := by
  intro honce
  obtain ⟨chip, at', first, hidden, second, hsub, -, hfirst, hsecond⟩ := hhides
  have hpair : [first, second].Sublist (inTurn chip assignments) :=
    (((List.Sublist.refl [second]).cons hidden).cons_cons first).trans hsub
  have hcount := honce chip at'
  rw [← count_p_in_turn, count_p_le_one_iff] at hcount
  exact hcount first second hpair ⟨hfirst, hsecond⟩

/-- Registries built from one list of assignments in two orders agree where the list puts a chip on
one wearer at a time. -/
theorem participant_at_eq_of_perm (honce : Unambiguous assignments)
    (hperm : given.Perm assignments)
    (hbuilt : ChipRegistry.fromAssignments assignments = .ok registry)
    (hbuilt' : ChipRegistry.fromAssignments given = .ok registry')
    (chip : ChipId) (at' : OffsetDateTime) :
    registry'.participantAt chip at' = registry.participantAt chip at' := by
  rw [ChipRegistry.participantAt, ChipRegistry.participantAt, resolve_eq_find hbuilt,
    resolve_eq_find hbuilt']
  have hturn : (inTurn chip assignments).Perm (inTurn chip given) :=
    (in_turn_perm chip assignments).trans
      ((hperm.symm.filter _).trans (in_turn_perm chip given).symm)
  have hcount := honce chip at'
  rw [← count_p_in_turn] at hcount
  rw [find_eq_of_perm hturn hcount]

/-- The registry of accepted assignments names one wearer at every instant exactly when no vacant
assignment stands between two of one chip that cover a common instant. -/
theorem owned_once_iff (hbuilt : ChipRegistry.fromAssignments assignments = .ok registry) :
    (Unambiguous assignments ∧
      ∀ given registry', given.Perm assignments →
        ChipRegistry.fromAssignments given = .ok registry' →
        ∀ chip at', registry'.participantAt chip at' = registry.participantAt chip at') ↔
      ¬ HidesOverlap assignments := by
  constructor
  · intro howned hhides
    exact not_unambiguous_of_hides hhides howned.1
  · intro hhides
    have honce := unambiguous_of_accepted (from_assignments_eq_ok_iff.mp hbuilt).1 hhides
    refine ⟨honce, fun given registry' hperm hbuilt' chip at' => ?_⟩
    exact participant_at_eq_of_perm honce hperm hbuilt hbuilt' chip at'

/-- A chip handed to a numbered wearer for a window of seconds. -/
def worn (wearer : Nat) (start : UInt8) (finish : Option UInt8) : ChipAssignment where
  chip := ⟨"C1"⟩
  participant := ⟨.fromU128 wearer⟩
  race := ⟨.fromU128 90⟩
  validFrom := second start
  validUntil := finish.map second

/-- Two windows one after the other put the chip on one wearer at a time, in either order. -/
theorem owned_once_iff_in_turn :
    Unambiguous [worn 1 0 (some 10), worn 2 10 none] ∧
      ∀ given registry', given.Perm [worn 1 0 (some 10), worn 2 10 none] →
        ChipRegistry.fromAssignments given = .ok registry' →
        ∀ chip at', registry'.participantAt chip at' =
          (ChipRegistry.mk (byChip [worn 1 0 (some 10), worn 2 10 none])).participantAt chip
            at' := by
  refine (owned_once_iff (from_assignments_eq_ok_iff.mpr
    ⟨find_overlap_eq_none_iff.mp (by decide +kernel), rfl⟩)).mpr fun hhides => ?_
  obtain ⟨chip, -, first, hidden, second, hsub, -, -, -⟩ := hhides
  have hthree := hsub.length_le
  have hfilter := List.length_filter_le (fun assignment : ChipAssignment => assignment.chip = chip)
    [worn 1 0 (some 10), worn 2 10 none]
  rw [(in_turn_perm chip _).length_eq] at hthree
  simp only [List.length_cons, List.length_nil] at hthree hfilter
  omega

/-- Two wearers whose windows open together, and a third whose window is empty, given between
them, are accepted: the chip is on two wearers at once, and which of them it is found on depends on
the order they were given in. -/
theorem not_owned_once :
    ¬ ∀ assignments registry, ChipRegistry.fromAssignments assignments = .ok registry →
      Unambiguous assignments ∧
        ∀ given registry', given.Perm assignments →
          ChipRegistry.fromAssignments given = .ok registry' →
          ∀ chip at', registry'.participantAt chip at' = registry.participantAt chip at' := by
  intro h
  let windows := [worn 1 0 (some 10), worn 2 0 (some 0), worn 3 0 (some 5)]
  have haccepted : ChipRegistry.fromAssignments windows = .ok ⟨byChip windows⟩ :=
    from_assignments_eq_ok_iff.mpr ⟨find_overlap_eq_none_iff.mp (by decide +kernel), rfl⟩
  have haccepted' :
      ChipRegistry.fromAssignments windows.reverse = .ok ⟨byChip windows.reverse⟩ :=
    from_assignments_eq_ok_iff.mpr ⟨find_overlap_eq_none_iff.mp (by decide +kernel), rfl⟩
  have hsame := (h windows _ haccepted).2 _ _ (List.reverse_perm windows) haccepted' ⟨"C1"⟩
    (second 2)
  revert hsame
  decide +kernel

end Splitforge.Domain
