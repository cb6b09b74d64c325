import Mathlib.Data.List.Forall2
import Mathlib.Data.List.Induction
import Mathlib.Data.List.Sort
import Mathlib.Order.Lattice

/-!
# Sorting by key

A stable sort by a key, and the last greatest and the first least item by a key. Where keys tell
the items apart, sorting gives one list and the least item is one item, whatever order the items
came in.
-/

namespace Splitforge.Library

variable {Key Key' Item : Type} [LinearOrder Key] [LinearOrder Key'] (key : Item → Key)

/-- A stable sort: items with equal keys stay in the order they came in. -/
def sortByKey (items : List Item) : List Item :=
  items.insertionSort fun first second => key first ≤ key second

/-- The item with the greatest key, and the last of them if there are several. -/
def maxByKey (items : List Item) : Option Item :=
  items.foldl (fun best item => match best with
    | none => some item
    | some best => if key item < key best then some best else some item) none

/-- The item kept of the one held and the next: the next only when its key is less. -/
def keepLeast (held : Option Item) (item : Item) : Option Item :=
  if held.all fun held => key item < key held then some item else held

/-- The first item with the least key. -/
def leastByKey (items : List Item) : Option Item :=
  items.foldl (keepLeast key) none

variable {key} {items items' : List Item}

theorem sort_by_key_perm (key : Item → Key) (items : List Item) :
    (sortByKey key items).Perm items :=
  List.perm_insertionSort _ _

@[simp]
theorem mem_sort_by_key {item : Item} : item ∈ sortByKey key items ↔ item ∈ items :=
  (sort_by_key_perm key items).mem_iff

/-- What is sorted is in the order of its keys. -/
theorem sorted_sort_by_key (key : Item → Key) (items : List Item) :
    (sortByKey key items).Pairwise fun first second => key first ≤ key second := by
  have htotal : Std.Total fun first second : Item => key first ≤ key second :=
    ⟨fun first second => le_total (key first) (key second)⟩
  have htrans : IsTrans Item fun first second => key first ≤ key second :=
    ⟨fun _ _ _ => le_trans⟩
  exact List.pairwise_insertionSort _ _

/-- Items with different keys are in strict order when they are sorted. -/
theorem sorted_strictly (hnodup : (items.map key).Nodup) :
    (sortByKey key items).Pairwise fun first second => key first < key second := by
  have hdistinct : ((sortByKey key items).map key).Nodup :=
    ((sort_by_key_perm key items).map key).nodup_iff.mpr hnodup
  rw [List.Nodup, List.pairwise_map] at hdistinct
  exact ((sorted_sort_by_key key items).and hdistinct).imp fun h => lt_of_le_of_ne h.1 h.2

section Beside

variable {Item' : Type} {key' : Item' → Key} {Beside : Item → Item' → Prop}

theorem forall₂_ordered_insert (hkey : ∀ item item', Beside item item' → key item = key' item')
    {others : List Item} {others' : List Item'} (h : List.Forall₂ Beside others others')
    {item : Item} {item' : Item'} (hitem : Beside item item') :
    List.Forall₂ Beside (others.orderedInsert (fun first second => key first ≤ key second) item)
      (others'.orderedInsert (fun first second => key' first ≤ key' second) item') := by
  induction h with
  | nil => exact .cons hitem .nil
  | cons hother hothers ih =>
      rw [List.orderedInsert_cons, List.orderedInsert_cons, ← hkey _ _ hitem, ← hkey _ _ hother]
      split_ifs with hle
      · exact .cons hitem (.cons hother hothers)
      · exact .cons hother ih

/-- Lists that stand beside one another, with the same keys, stand so when they are sorted. -/
theorem forall₂_sort_by_key (hkey : ∀ item item', Beside item item' → key item = key' item')
    {items : List Item} {items' : List Item'} (h : List.Forall₂ Beside items items') :
    List.Forall₂ Beside (sortByKey key items) (sortByKey key' items') := by
  induction h with
  | nil => exact .nil
  | cons hitem _ ih => exact forall₂_ordered_insert hkey ih hitem

end Beside

/-- Sorting commutes with a change that keeps the order of the items. -/
theorem sort_by_key_map {Image : Type} {key : Item → Key} {key' : Image → Key'}
    {image : Item → Image} {items : List Item}
    (hle : ∀ first ∈ items, ∀ second ∈ items,
      key first ≤ key second ↔ key' (image first) ≤ key' (image second)) :
    sortByKey key' (items.map image) = (sortByKey key items).map image :=
  (List.map_insertionSort _ _ image items hle).symm

/-- Leaving items out before sorting or after it is the same. -/
theorem sort_by_key_filter (wanted : Item → Bool) (items : List Item) :
    (sortByKey key items).filter wanted = sortByKey key (items.filter wanted) := by
  have hinsert (item : Item) (others : List Item)
      (hothers : others.Pairwise fun first second => key first ≤ key second) :
      (others.orderedInsert (fun first second => key first ≤ key second) item).filter wanted =
        if wanted item then
          (others.filter wanted).orderedInsert (fun first second => key first ≤ key second) item
        else others.filter wanted := by
    induction others with
    | nil =>
        rw [List.orderedInsert_nil]
        cases hwanted : wanted item <;> simp [hwanted]
    | cons other others ih =>
        obtain ⟨hall, hrest⟩ := List.pairwise_cons.mp hothers
        rw [List.orderedInsert_cons]
        by_cases hle : key item ≤ key other
        · -- what is left behind the item is not less than it
          have hfirst : ∀ next ∈ (other :: others).filter wanted, key item ≤ key next := by
            intro next hnext
            rcases List.mem_cons.mp (List.mem_filter.mp hnext).1 with rfl | hnext
            · exact hle
            · exact hle.trans (hall next hnext)
          rw [if_pos hle, List.filter_cons]
          split_ifs
          · cases hfiltered : (other :: others).filter wanted with
            | nil => rfl
            | cons next rest =>
                rw [hfiltered] at hfirst
                rw [List.orderedInsert_cons, if_pos (hfirst next List.mem_cons_self)]
          · rfl
        · rw [if_neg hle, List.filter_cons, ih hrest, List.filter_cons]
          cases hwanted : wanted item <;> cases hother : wanted other <;>
            simp [List.orderedInsert_cons, hle]
  induction items with
  | nil => rfl
  | cons item items ih =>
      have hcons : sortByKey key (item :: items) = (sortByKey key items).orderedInsert
        (fun first second => key first ≤ key second) item := rfl
      rw [hcons, hinsert _ _ (sorted_sort_by_key key items), ih, List.filter_cons]
      split_ifs <;> rfl

/-- Items in front of others that are not less are sorted in front of them. -/
theorem sort_by_key_append {others : List Item}
    (h : ∀ item ∈ items, ∀ other ∈ others, key item ≤ key other) :
    sortByKey key (items ++ others) = sortByKey key items ++ sortByKey key others := by
  have hinsert : ∀ (front back : List Item) (item : Item), (∀ other ∈ back, key item ≤ key other) →
      (front ++ back).orderedInsert (fun first second => key first ≤ key second) item =
        front.orderedInsert (fun first second => key first ≤ key second) item ++ back := by
    intro front back item hback
    induction front with
    | nil =>
        cases back with
        | nil => rfl
        | cons other back =>
            rw [List.nil_append, List.orderedInsert_cons, if_pos (hback other List.mem_cons_self)]
            rfl
    | cons first front ih =>
        rw [List.cons_append, List.orderedInsert_cons, List.orderedInsert_cons]
        split_ifs
        · rfl
        · rw [ih]
          rfl
  induction items with
  | nil => rfl
  | cons item items ih =>
      have hcons : ∀ rest, sortByKey key (item :: rest) = (sortByKey key rest).orderedInsert
        (fun first second => key first ≤ key second) item := fun _ => rfl
      rw [List.cons_append, hcons, hcons,
        ih fun later hlater => h later (List.mem_cons_of_mem _ hlater)]
      exact hinsert _ _ _ fun other hother =>
        h item List.mem_cons_self other (mem_sort_by_key.mp hother)

/-- Two lists of the same items in the order of keys that tell them apart are one list. -/
theorem eq_of_sorted (hnodup : (items.map key).Nodup) (hperm : items.Perm items')
    (hitems : items.Pairwise fun first second => key first ≤ key second)
    (hitems' : items'.Pairwise fun first second => key first ≤ key second) : items = items' := by
  refine List.Perm.eq_of_pairwise ?_ hitems hitems' hperm
  intro first second hfirst hsecond hle hge
  exact List.inj_on_of_nodup_map hnodup hfirst (hperm.mem_iff.mpr hsecond) (le_antisymm hle hge)

/-- Sorting by keys that tell the items apart does not depend on the order they come in. -/
theorem sort_by_key_eq_of_perm (hnodup : (items.map key).Nodup) (hperm : items.Perm items') :
    sortByKey key items = sortByKey key items' := by
  have hsorted := sort_by_key_perm key items
  refine eq_of_sorted ?_ (hsorted.trans (hperm.trans (sort_by_key_perm key items').symm))
    (sorted_sort_by_key key items) (sorted_sort_by_key key items')
  exact ((hsorted.map key).nodup_iff).mpr hnodup

omit [LinearOrder Key] in
/-- Where keys tell the items apart, an item and the items with other keys are all the items. -/
theorem cons_filter_ne_perm [DecidableEq Key] {item : Item} (hnodup : (items.map key).Nodup)
    (hitem : item ∈ items) :
    (item :: items.filter fun other => key other ≠ key item).Perm items := by
  induction items with
  | nil => cases hitem
  | cons first items ih =>
      obtain ⟨hfirst, hnodup⟩ := List.nodup_cons.mp hnodup
      rcases List.mem_cons.mp hitem with rfl | hitem
      · have hall : items.filter (fun other => key other ≠ key item) = items :=
          List.filter_eq_self.mpr fun other hother =>
            decide_eq_true fun heq => hfirst (heq ▸ List.mem_map_of_mem hother)
        rw [List.filter_cons_of_neg (by simp), hall]
      · have hne : key first ≠ key item := fun heq => hfirst (heq ▸ List.mem_map_of_mem hitem)
        rw [List.filter_cons_of_pos (by simpa using hne)]
        exact (List.Perm.swap first item _).trans ((ih hnodup hitem).cons first)

omit [LinearOrder Key] in
/-- Where keys tell the items apart, looking an item's key up finds it. -/
theorem find_key_eq [DecidableEq Key] {item : Item} (hnodup : (items.map key).Nodup)
    (hitem : item ∈ items) : items.find? (fun other => key other = key item) = some item := by
  cases hfind : items.find? (fun other => key other = key item) with
  | none =>
      have hne := List.find?_eq_none.mp hfind item hitem
      simp at hne
  | some other =>
      have hkey : key other = key item := by simpa using List.find?_some hfind
      rw [List.inj_on_of_nodup_map hnodup (List.mem_of_find?_eq_some hfind) hitem hkey]

omit [LinearOrder Key] in
/-- Where keys tell the items apart, items are known from their keys. -/
theorem eq_of_map_key_eq {all : List Item} (hnodup : (all.map key).Nodup)
    (hitems : ∀ item ∈ items, item ∈ all) (hitems' : ∀ item ∈ items', item ∈ all)
    (h : items.map key = items'.map key) : items = items' := by
  induction items generalizing items' with
  | nil => exact (List.map_eq_nil_iff.mp h.symm).symm
  | cons item items ih =>
      cases items' with
      | nil => cases h
      | cons item' items' =>
          obtain ⟨hitem, hrest⟩ := List.cons.inj h
          rw [List.inj_on_of_nodup_map hnodup (hitems item List.mem_cons_self)
              (hitems' item' List.mem_cons_self) hitem,
            ih (fun other hother => hitems other (List.mem_cons_of_mem _ hother))
              (fun other hother => hitems' other (List.mem_cons_of_mem _ hother)) hrest]

/-- The greatest item is one of the items. -/
theorem mem_of_max_by_key {item : Item} (h : maxByKey key items = some item) : item ∈ items := by
  induction items using List.reverseRecOn generalizing item with
  | nil => cases h
  | append_singleton items last ih =>
      rw [maxByKey, List.foldl_append, ← maxByKey] at h
      cases hbest : maxByKey key items with
      | none =>
          rw [hbest] at h
          cases h
          exact List.mem_append_right _ (List.mem_singleton_self _)
      | some best =>
          rw [hbest] at h
          simp only [List.foldl_cons, List.foldl_nil] at h
          split_ifs at h <;> cases h
          · exact List.mem_append_left _ (ih hbest)
          · exact List.mem_append_right _ (List.mem_singleton_self _)

theorem max_by_key_append_singleton (key : Item → Key) (items : List Item) (item : Item) :
    maxByKey key (items ++ [item]) =
      match maxByKey key items with
      | none => some item
      | some best => if key item < key best then some best else some item := by
  rw [maxByKey, List.foldl_append]
  rfl

/-- There is a greatest item unless there is none at all. -/
theorem max_by_key_eq_none : maxByKey key items = none ↔ items = [] := by
  constructor
  · intro h
    by_contra hne
    obtain ⟨front, last, rfl⟩ := (List.eq_nil_or_concat' items).resolve_left hne
    rw [max_by_key_append_singleton] at h
    cases hbest : maxByKey key front with
    | none =>
        rw [hbest] at h
        cases h
    | some best =>
        rw [hbest] at h
        dsimp only at h
        split_ifs at h
  · intro hnil
    rw [hnil]
    rfl

/-- The last of sorted items is the greatest. -/
theorem max_by_key_of_sorted
    (hsorted : items.Pairwise fun first second => key first ≤ key second) :
    maxByKey key items = items.getLast? := by
  induction items using List.reverseRecOn with
  | nil => rfl
  | append_singleton front last ih =>
      obtain ⟨hfront, _, hle⟩ := List.pairwise_append.mp hsorted
      rw [max_by_key_append_singleton, ih hfront, List.getLast?_concat]
      cases hbest : front.getLast? with
      | none => rfl
      | some best =>
          have hlast := hle best (List.mem_of_getLast? hbest) last List.mem_cons_self
          exact if_neg (not_lt.mpr hlast)

/-- No item's key is above the greatest item's. -/
theorem le_of_max_by_key {item : Item} (h : maxByKey key items = some item) :
    ∀ other ∈ items, key other ≤ key item := by
  induction items using List.reverseRecOn generalizing item with
  | nil => cases h
  | append_singleton items last ih =>
      rw [max_by_key_append_singleton] at h
      intro other hother
      rcases List.mem_append.mp hother with hother | hother
      · cases hbest : maxByKey key items with
        | none =>
            have hnil := List.not_mem_nil (a := other)
            rw [← max_by_key_eq_none.mp hbest] at hnil
            exact absurd hother hnil
        | some best =>
            have hle := ih hbest other hother
            rw [hbest] at h
            dsimp only at h
            split_ifs at h with hlt <;> cases h
            · exact hle
            · exact hle.trans (not_lt.mp hlt)
      · rw [List.mem_singleton.mp hother]
        cases hbest : maxByKey key items with
        | none =>
            rw [hbest] at h
            cases h
            exact le_refl _
        | some best =>
            rw [hbest] at h
            dsimp only at h
            split_ifs at h with hlt <;> cases h
            · exact hlt.le
            · exact le_refl _

/-- The greatest of some images is the image of the greatest. -/
theorem max_by_key_map {Image : Type} (key : Image → Key) (image : Item → Image)
    (items : List Item) :
    maxByKey key (items.map image) =
      (maxByKey (fun item => key (image item)) items).map image := by
  induction items using List.reverseRecOn with
  | nil => rfl
  | append_singleton items last ih =>
      rw [List.map_append, List.map_singleton, max_by_key_append_singleton,
        max_by_key_append_singleton, ih]
      cases maxByKey (fun item => key (image item)) items with
      | none => rfl
      | some best =>
          simp only [Option.map_some]
          split_ifs <;> rfl

/-! ## The least item -/

theorem least_by_key_append_singleton (items : List Item) (item : Item) :
    leastByKey key (items ++ [item]) = keepLeast key (leastByKey key items) item := by
  rw [leastByKey, List.foldl_append]
  rfl

/-- One more item among which only some count. -/
theorem least_by_key_filter_append_singleton (counts : Item → Bool) (items : List Item)
    (item : Item) :
    leastByKey key ((items ++ [item]).filter counts) =
      if counts item then keepLeast key (leastByKey key (items.filter counts)) item
      else leastByKey key (items.filter counts) := by
  rw [List.filter_append]
  cases hcounts : counts item with
  | true =>
      rw [List.filter_cons_of_pos hcounts, List.filter_nil, least_by_key_append_singleton,
        if_pos rfl]
  | false =>
      rw [List.filter_cons_of_neg (by simp [hcounts]), List.filter_nil, List.append_nil,
        if_neg Bool.false_ne_true]

/-- There is a least item unless there is none at all. -/
theorem least_by_key_eq_none : leastByKey key items = none ↔ items = [] := by
  constructor
  · intro h
    by_contra hne
    obtain ⟨front, last, rfl⟩ := (List.eq_nil_or_concat' items).resolve_left hne
    rw [least_by_key_append_singleton, keepLeast] at h
    cases hheld : leastByKey key front with
    | none =>
        rw [hheld] at h
        cases h
    | some held =>
        rw [hheld] at h
        split at h <;> cases h
  · rintro rfl
    rfl

/-- The least item is one of the items, and no item's key is less. -/
theorem least_of_least_by_key {item : Item} (h : leastByKey key items = some item) :
    item ∈ items ∧ ∀ other ∈ items, key item ≤ key other := by
  induction items using List.reverseRecOn generalizing item with
  | nil => cases h
  | append_singleton items last ih =>
      rw [least_by_key_append_singleton, keepLeast] at h
      cases hheld : leastByKey key items with
      | none =>
          rw [hheld] at h
          cases h
          rw [least_by_key_eq_none.mp hheld]
          exact ⟨List.mem_singleton_self _, fun other hother =>
            (List.mem_singleton.mp hother) ▸ le_refl _⟩
      | some held =>
          obtain ⟨hmem, hleast⟩ := ih hheld
          rw [hheld] at h
          simp only [Option.all_some, decide_eq_true_eq] at h
          -- the least so far is kept unless the last item is less
          by_cases hlt : key last < key held
          · rw [if_pos hlt] at h
            cases h
            refine ⟨List.mem_append_right _ (List.mem_singleton_self _), fun other hother => ?_⟩
            rcases List.mem_append.mp hother with hother | hother
            · exact hlt.le.trans (hleast other hother)
            · rw [List.mem_singleton.mp hother]
          · rw [if_neg hlt] at h
            cases h
            refine ⟨List.mem_append_left _ hmem, fun other hother => ?_⟩
            rcases List.mem_append.mp hother with hother | hother
            · exact hleast other hother
            · rw [List.mem_singleton.mp hother]
              exact not_lt.mp hlt

/-- The least item stays when nothing less comes behind it. -/
theorem foldl_keep_least {item : Item} (h : ∀ other ∈ items, key item ≤ key other) :
    items.foldl (keepLeast key) (some item) = some item := by
  induction items with
  | nil => rfl
  | cons other items ih =>
      have hkept : keepLeast key (some item) other = some item := by
        rw [keepLeast, Option.all_some, if_neg]
        simpa using h other List.mem_cons_self
      rw [List.foldl_cons, hkept]
      exact ih fun next hnext => h next (List.mem_cons_of_mem _ hnext)

/-- An item with greater ones before it and no lesser ones behind it is the least. -/
theorem least_by_key_of_split {front back : List Item} {item : Item}
    (hfront : ∀ other ∈ front, key item < key other)
    (hback : ∀ other ∈ back, key item ≤ key other) :
    leastByKey key (front ++ item :: back) = some item := by
  have htaken : keepLeast key (leastByKey key front) item = some item := by
    rw [keepLeast, if_pos]
    cases hheld : leastByKey key front with
    | none => rfl
    | some held =>
        exact decide_eq_true (hfront held (least_of_least_by_key hheld).1)
  rw [leastByKey, List.foldl_append, List.foldl_cons, ← leastByKey, htaken]
  exact foldl_keep_least hback

/-- The least item has greater ones before it and no lesser ones behind it. -/
theorem split_of_least_by_key {item : Item} (h : leastByKey key items = some item) :
    ∃ front back, items = front ++ item :: back ∧ (∀ other ∈ front, key item < key other) ∧
      ∀ other ∈ back, key item ≤ key other := by
  induction items using List.reverseRecOn generalizing item with
  | nil => cases h
  | append_singleton items last ih =>
      have hleast := (least_of_least_by_key h).2
      rw [least_by_key_append_singleton, keepLeast] at h
      split_ifs at h with hall
      · cases h
        refine ⟨items, [], rfl, fun other hother => ?_, fun other hother => by cases hother⟩
        cases hheld : leastByKey key items with
        | none => rw [least_by_key_eq_none.mp hheld] at hother; cases hother
        | some held =>
            rw [hheld] at hall
            exact (of_decide_eq_true hall).trans_le ((least_of_least_by_key hheld).2 other hother)
      · obtain ⟨front, back, rfl, hfront, hback⟩ := ih h
        refine ⟨front, back ++ [last], by simp, hfront, fun other hother => ?_⟩
        rcases List.mem_append.mp hother with hother | hother
        · exact hback other hother
        · rw [List.mem_singleton.mp hother]
          exact hleast last (List.mem_append_right _ (List.mem_singleton_self _))

/-- Leaving out items that are greater than one that stays does not change the least. -/
theorem least_by_key_filter {stays : Item → Bool}
    (h : ∀ item ∈ items, stays item = false →
      ∃ better ∈ items, stays better = true ∧ key better < key item) :
    leastByKey key (items.filter stays) = leastByKey key items := by
  cases hleast : leastByKey key items with
  | none =>
      rw [least_by_key_eq_none.mp hleast]
      rfl
  | some item =>
      obtain ⟨hmem, hle⟩ := least_of_least_by_key hleast
      have hstays : stays item = true := by
        by_contra hnot
        obtain ⟨better, hbetter, -, hlt⟩ := h item hmem (by simpa using hnot)
        exact absurd hlt (hle better hbetter).not_gt
      obtain ⟨front, back, rfl, hfront, hback⟩ := split_of_least_by_key hleast
      rw [List.filter_append, List.filter_cons_of_pos hstays]
      exact least_by_key_of_split (fun other hother => hfront other (List.mem_filter.mp hother).1)
        fun other hother => hback other (List.mem_filter.mp hother).1

/-- Where keys tell the items apart, the least item is the one whose key is not above another's. -/
theorem least_by_key_eq_some (hnodup : (items.map key).Nodup) {item : Item} :
    leastByKey key items = some item ↔ item ∈ items ∧ ∀ other ∈ items, key item ≤ key other := by
  refine ⟨least_of_least_by_key, fun ⟨hmem, hleast⟩ => ?_⟩
  cases hfound : leastByKey key items with
  | none => exact absurd hmem (least_by_key_eq_none.mp hfound ▸ List.not_mem_nil)
  | some found =>
      obtain ⟨hfoundMem, hfoundLeast⟩ := least_of_least_by_key hfound
      have hkey : key found = key item :=
        le_antisymm (hfoundLeast item hmem) (hleast found hfoundMem)
      rw [List.inj_on_of_nodup_map hnodup hfoundMem hmem hkey]

/-- Where keys tell the items apart, the least item does not depend on the order they come in. -/
theorem least_by_key_eq_of_perm (hnodup : (items.map key).Nodup) (hperm : items.Perm items') :
    leastByKey key items = leastByKey key items' := by
  refine Option.ext fun item => ?_
  rw [least_by_key_eq_some hnodup, least_by_key_eq_some ((hperm.map key).nodup_iff.mp hnodup)]
  simp only [hperm.mem_iff]

end Splitforge.Library
