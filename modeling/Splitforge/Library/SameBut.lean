import Splitforge.Library.Sorting

/-!
# Lists that are the same but for some items

Two lists are the same but for the items a predicate picks out when what is left of them without
those is one list. Whatever is selected from such lists without the items picked out is the same.
-/

namespace Splitforge.Library

variable {Item : Type} {idle : Item → Bool} {items items' : List Item}

/-- Two lists are the same but for some items. -/
def SameBut (idle : Item → Bool) (items items' : List Item) : Prop :=
  (items.filter fun item => !idle item) = items'.filter fun item => !idle item

theorem SameBut.symm (hsame : SameBut idle items items') : SameBut idle items' items :=
  Eq.symm hsame

/-- Lists that are the same but for some are so where only some are wanted. -/
theorem SameBut.filter (hsame : SameBut idle items items') (wanted : Item → Bool) :
    SameBut idle (items.filter wanted) (items'.filter wanted) := by
  have hcomm (items : List Item) :
      (items.filter wanted).filter (fun item => !idle item) =
        (items.filter fun item => !idle item).filter wanted := by
    rw [List.filter_filter, List.filter_filter]
    exact List.filter_congr fun item _ => Bool.and_comm _ _
  rw [SameBut, hcomm, hcomm, hsame]

/-- Where none of the others are wanted, they are the same. -/
theorem SameBut.filter_eq (hsame : SameBut idle items items') {wanted : Item → Bool}
    (hidle : ∀ item, idle item = true → wanted item = false) :
    items.filter wanted = items'.filter wanted := by
  have hkept (items : List Item) :
      (items.filter wanted).filter (fun item => !idle item) = items.filter wanted := by
    refine List.filter_eq_self.mpr fun item hitem => ?_
    rw [Bool.not_eq_true']
    refine Bool.eq_false_iff.mpr fun h => ?_
    have hwanted := (List.mem_filter.mp hitem).2
    rw [hidle item h] at hwanted
    cases hwanted
  have hfilter := SameBut.filter hsame wanted
  rw [SameBut, hkept, hkept] at hfilter
  exact hfilter

/-- An item that is not one of the others is in both. -/
theorem SameBut.mem (hsame : SameBut idle items items') {item : Item} (hitem : item ∈ items)
    (hnot : idle item = false) : item ∈ items' := by
  have hmem : item ∈ items.filter fun item => !idle item :=
    List.mem_filter.mpr ⟨hitem, by rw [hnot]; rfl⟩
  rw [show items.filter _ = _ from hsame] at hmem
  exact (List.mem_filter.mp hmem).1

/-- The least item is the same when each of the others is greater than one that is in both. -/
theorem SameBut.least_eq {Key : Type} [LinearOrder Key] {key : Item → Key}
    (hsame : SameBut idle items items')
    (hidle : ∀ item, item ∈ items ∨ item ∈ items' → idle item = true →
      ∃ better ∈ items, idle better = false ∧ key better < key item) :
    leastByKey key items' = leastByKey key items := by
  rw [← @least_by_key_filter _ _ _ key items' fun item => !idle item,
    ← @least_by_key_filter _ _ _ key items fun item => !idle item, hsame]
  · intro item hmem hitem
    obtain ⟨better, hbetter, hnot, hlt⟩ := hidle item (Or.inl hmem) (by simpa using hitem)
    exact ⟨better, hbetter, by rw [hnot]; rfl, hlt⟩
  · intro item hmem hitem
    obtain ⟨better, hbetter, hnot, hlt⟩ := hidle item (Or.inr hmem) (by simpa using hitem)
    exact ⟨better, SameBut.mem hsame hbetter hnot, by rw [hnot]; rfl, hlt⟩

end Splitforge.Library
