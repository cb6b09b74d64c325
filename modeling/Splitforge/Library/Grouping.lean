import Std.Data.ExtTreeMap
import Mathlib.Data.List.Induction
import Mathlib.Data.List.Nodup
import Mathlib.Data.List.Perm.Basic
import Mathlib.Order.Compare
import Mathlib.Order.Lattice

/-!
# Grouping by key

An ordered map from keys to what their items add up to, taken in one after another, and its case
where they add up to the list of them. The keys come out in order, so two lists with the same
items give the same keys and, under each, the same items up to their order.
-/

namespace Splitforge.Library

open Std (ExtTreeMap)

variable {Key Item State : Type} [LinearOrder Key]

/-- One more item under a key, taken into what stands there. -/
def amend (step : Option State → Item → State) (states : ExtTreeMap Key State) (key : Key)
    (item : Item) : ExtTreeMap Key State :=
  states.alter key fun state => some (step state item)

/-- What the items of each key add up to. An item without a key is left out. -/
def accumulate (step : Option State → Item → State) (key : Item → Option Key)
    (items : List Item) : ExtTreeMap Key State :=
  items.foldl (fun states item => (key item).elim states fun key => amend step states key item) ∅

/-- One more item at the end of a group. -/
def pushBack (group : Option (List Item)) (item : Item) : List Item :=
  group.getD [] ++ [item]

/-- One more item under a key. -/
def push (groups : ExtTreeMap Key (List Item)) (key : Key) (item : Item) :
    ExtTreeMap Key (List Item) :=
  amend pushBack groups key item

/-- The items of each key, in order. An item without a key is left out. -/
def groupBy (key : Item → Option Key) (items : List Item) : ExtTreeMap Key (List Item) :=
  accumulate pushBack key items

/-- The keys of some items, in order. -/
def groupKeys (key : Item → Option Key) (items : List Item) : List Key :=
  (groupBy key items).keys

/-- The items that have a key. -/
def itemsWith (key : Item → Option Key) (wanted : Key) (items : List Item) : List Item :=
  items.filter fun item => key item = some wanted

variable {step : Option State → Item → State} {key : Item → Option Key}
variable {items items' : List Item}

@[simp]
theorem mem_items_with {wanted : Key} {item : Item} :
    item ∈ itemsWith key wanted items ↔ item ∈ items ∧ key item = some wanted := by
  rw [itemsWith, List.mem_filter, decide_eq_true_eq]

theorem get_amend (states : ExtTreeMap Key State) (amended wanted : Key) (item : Item) :
    (amend step states amended item)[wanted]? =
      if amended = wanted then some (step states[wanted]? item) else states[wanted]? := by
  rw [amend, ExtTreeMap.getElem?_alter]
  simp only [compare_eq_iff_eq]
  split_ifs with heq
  · rw [heq]
  · rfl

/-- Under each key stands what its items add up to, and a key without items is not there. -/
theorem get_accumulate (step : Option State → Item → State) (key : Item → Option Key)
    (items : List Item) (wanted : Key) :
    (accumulate step key items)[wanted]? =
      (itemsWith key wanted items).foldl (fun state item => some (step state item)) none := by
  induction items using List.reverseRecOn with
  | nil => rfl
  | append_singleton items item ih =>
      have hsnoc : accumulate step key (items ++ [item]) =
          (key item).elim (accumulate step key items) fun key' =>
            amend step (accumulate step key items) key' item := by
        rw [accumulate, List.foldl_append]
        rfl
      have hitems : itemsWith key wanted (items ++ [item]) =
          itemsWith key wanted items ++ if key item = some wanted then [item] else [] := by
        rw [itemsWith, List.filter_append]
        by_cases heq : key item = some wanted <;> simp [itemsWith, heq]
      rw [hsnoc, hitems, List.foldl_append, ← ih]
      cases hkey : key item with
      | none => simp
      | some amended =>
          rw [Option.elim_some, get_amend]
          by_cases heq : amended = wanted <;> simp [heq]

/-- Under the keys of items that have different ones stands what each item comes to. -/
theorem get_accumulate_eq_some {value : Item → State} {own : Item → Key}
    (hnodup : (items.map own).Nodup) {wanted : Key} {state : State} :
    (accumulate (fun _ item => value item) (fun item => some (own item)) items)[wanted]? =
        some state ↔
      ∃ item ∈ items, own item = wanted ∧ value item = state := by
  have hmem (item : Item) : item ∈ itemsWith (fun item => some (own item)) wanted items ↔
      item ∈ items ∧ own item = wanted := by
    rw [mem_items_with, Option.some_inj]
  have hkeys : ((itemsWith (fun item => some (own item)) wanted items).map own).Nodup :=
    hnodup.sublist (List.filter_sublist.map _)
  rw [get_accumulate]
  cases hitems : itemsWith (fun item => some (own item)) wanted items with
  | nil =>
      refine iff_of_false (Option.some_ne_none state).symm fun hex => ?_
      obtain ⟨item, hitem, hkey, -⟩ := hex
      exact List.not_mem_nil (hitems ▸ (hmem item).mpr ⟨hitem, hkey⟩)
  | cons first rest =>
      rw [hitems] at hmem hkeys
      cases rest with
      | nil =>
          constructor
          · intro h
            obtain ⟨hfirst, hkey⟩ := (hmem first).mp List.mem_cons_self
            exact ⟨first, hfirst, hkey, Option.some.inj h⟩
          · intro h
            obtain ⟨item, hitem, hkey, rfl⟩ := h
            rw [List.mem_singleton.mp ((hmem item).mpr ⟨hitem, hkey⟩)]
            rfl
      | cons second rest =>
          -- both have the key that is looked up
          have hfirst := ((hmem first).mp List.mem_cons_self).2
          have hsecond := ((hmem second).mp (List.mem_cons_of_mem _ List.mem_cons_self)).2
          rw [List.map_cons, List.map_cons, hfirst, hsecond] at hkeys
          exact absurd List.mem_cons_self (List.nodup_cons.mp hkeys).1

theorem foldl_some_ne_none {state : Option State}
    (h : items ≠ [] ∨ state ≠ none) :
    items.foldl (fun state item => some (step state item)) state ≠ none := by
  induction items generalizing state with
  | nil => exact h.resolve_left fun hne => hne rfl
  | cons item items ih => exact ih (Or.inr (Option.some_ne_none _))

/-- A key is there when some item has it. -/
theorem mem_accumulate {wanted : Key} :
    wanted ∈ accumulate step key items ↔ ∃ item ∈ items, key item = some wanted := by
  rw [← ExtTreeMap.isSome_getElem?_iff_mem, get_accumulate, Option.isSome_iff_ne_none]
  by_cases hnil : itemsWith key wanted items = []
  · have hnone : ∀ item ∈ items, ¬ key item = some wanted := by
      simpa [itemsWith, List.filter_eq_nil_iff] using hnil
    rw [hnil]
    simpa using hnone
  · obtain ⟨item, hitem⟩ := List.exists_mem_of_ne_nil _ hnil
    exact ⟨fun _ => ⟨item, mem_items_with.mp hitem⟩, fun _ => foldl_some_ne_none (Or.inl hnil)⟩

/-- Where a key without items counts as having a first state, its items are taken into that. -/
theorem get_d_accumulate {next : State → Item → State} {first : State} (key : Item → Option Key)
    (items : List Item) (wanted : Key) :
    ((accumulate (fun state item => next (state.getD first) item) key items)[wanted]?).getD first =
      (itemsWith key wanted items).foldl next first := by
  have hfold : ∀ (items : List Item) (state : Option State),
      (items.foldl (fun state item => some (next (state.getD first) item)) state).getD first =
        items.foldl next (state.getD first) := by
    intro items
    induction items with
    | nil => exact fun _ => rfl
    | cons item items ih => exact fun _ => ih _
  rw [get_accumulate, hfold, Option.getD_none]

theorem foldl_push_back (items front : List Item) :
    items.foldl (fun group item => some (pushBack group item)) (some front) =
      some (front ++ items) := by
  induction items generalizing front with
  | nil => rw [List.append_nil]; rfl
  | cons item items ih =>
      rw [List.foldl_cons, pushBack, Option.getD_some, ih, List.append_assoc]
      rfl

/-- Under each key stand its items, and a key without items is not there. -/
theorem get_group_by (key : Item → Option Key) (items : List Item) (wanted : Key) :
    (groupBy key items)[wanted]? =
      if itemsWith key wanted items = [] then none else some (itemsWith key wanted items) := by
  rw [groupBy, get_accumulate]
  cases itemsWith key wanted items with
  | nil => rfl
  | cons item items => exact foldl_push_back items [item]

/-- A key is there when some item has it. -/
theorem mem_keys_group_by {wanted : Key} :
    wanted ∈ (groupBy key items).keys ↔ ∃ item ∈ items, key item = some wanted := by
  rw [ExtTreeMap.mem_keys, groupBy, mem_accumulate]

/-- What is found after an insertion. -/
theorem get_insert (states : ExtTreeMap Key State) (inserted wanted : Key)
    [Decidable (inserted = wanted)] (state : State) :
    (states.insert inserted state)[wanted]? =
      if inserted = wanted then some state else states[wanted]? := by
  simp only [ExtTreeMap.getElem?_insert, compare_eq_iff_eq]

/-- What is found after an erasure. -/
theorem get_erase (states : ExtTreeMap Key State) (erased wanted : Key)
    [Decidable (erased = wanted)] :
    (states.erase erased)[wanted]? = if erased = wanted then none else states[wanted]? := by
  simp only [ExtTreeMap.getElem?_erase, compare_eq_iff_eq]

/-- What is found after every entry was changed. -/
theorem get_map {Image : Type} (states : ExtTreeMap Key State) (image : Key → State → Image)
    (wanted : Key) : (states.map image)[wanted]? = states[wanted]?.map (image wanted) :=
  ExtTreeMap.getElem?_map

/-- The entries of a map are what is found in it. -/
theorem mem_to_list {states : ExtTreeMap Key State} {key : Key} {state : State} :
    (key, state) ∈ states.toList ↔ states[key]? = some state :=
  ExtTreeMap.mem_toList_iff_getElem?_eq_some

/-- The keys of a map are those that something is found under. -/
theorem mem_keys {states : ExtTreeMap Key State} {key : Key} :
    key ∈ states.keys ↔ states[key]?.isSome = true := by
  rw [ExtTreeMap.mem_keys, ExtTreeMap.mem_iff_isSome_getElem?]

/-- No key has two entries. -/
theorem nodup_keys_to_list (states : ExtTreeMap Key State) :
    (states.toList.map Prod.fst).Nodup := by
  rw [ExtTreeMap.map_fst_toList_eq_keys]
  exact ExtTreeMap.nodup_keys

/-- Of what a map's entries become, one thing is left when only one entry becomes such a thing. -/
theorem filter_entries_eq_singleton {Image : Type} {states : ExtTreeMap Key State} {key : Key}
    {state : State} {image : Image} {become : Key × State → Option Image} {wanted : Image → Bool}
    (hget : states[key]? = some state) (himage : become (key, state) = some image)
    (hwanted : wanted image = true)
    (hothers : ∀ key' state' image', states[key']? = some state' → key' ≠ key →
      become (key', state') = some image' → ¬ wanted image' = true) :
    (states.toList.filterMap become).filter wanted = [image] := by
  obtain ⟨front, back, hsides⟩ := List.append_of_mem (mem_to_list.mpr hget)
  have hnodup := nodup_keys_to_list states
  rw [hsides, List.map_append, List.map_cons, List.nodup_middle, List.nodup_cons,
    ← List.map_append] at hnodup
  have hnone : ∀ others : List (Key × State), (∀ other ∈ others, other ∈ front ++ back) →
      (others.filterMap become).filter wanted = [] := by
    intro others hothers'
    refine List.filter_eq_nil_iff.mpr fun image' himage' => ?_
    obtain ⟨⟨key', state'⟩, hother, hbecome⟩ := List.mem_filterMap.mp himage'
    have hside := hothers' _ hother
    refine hothers key' state' image' (mem_to_list.mp ?_) ?_ hbecome
    · rw [hsides]
      rcases List.mem_append.mp hside with hside | hside
      · exact List.mem_append_left _ hside
      · exact List.mem_append_right _ (List.mem_cons_of_mem _ hside)
    · intro heq
      exact hnodup.1 (List.mem_map.mpr ⟨_, hside, heq⟩)
  rw [hsides, List.filterMap_append, List.filter_append, List.filterMap_cons_some himage,
    List.filter_cons_of_pos hwanted, hnone front fun other => List.mem_append_left _,
    hnone back fun other => List.mem_append_right _, List.nil_append]

theorem sorted_keys (groups : ExtTreeMap Key (List Item)) :
    groups.keys.Pairwise (· < ·) :=
  ExtTreeMap.ordered_keys.imp fun h => compare_lt_iff_lt.mp h

/-- The entries of a grouping are its keys with their items. -/
theorem to_list_group_by (key : Item → Option Key) (items : List Item) :
    (groupBy key items).toList =
      (groupBy key items).keys.map fun wanted => (wanted, itemsWith key wanted items) := by
  rw [← ExtTreeMap.map_fst_toList_eq_keys, List.map_map]
  refine (List.map_id _).symm.trans (List.map_congr_left fun entry hentry => ?_)
  have hget : (groupBy key items)[entry.1]? = some entry.2 :=
    ExtTreeMap.mem_toList_iff_getElem?_eq_some.mp hentry
  rw [get_group_by] at hget
  split_ifs at hget with hnil
  exact Prod.ext rfl (Option.some.inj hget).symm

/-- The keys are in order, so groupings with the same keys have them in the same order. -/
theorem keys_group_by_eq {Item' : Type} {key' : Item' → Option Key} {others : List Item'}
    (h : ∀ wanted, (∃ item ∈ items, key item = some wanted) ↔
      ∃ item ∈ others, key' item = some wanted) :
    (groupBy key items).keys = (groupBy key' others).keys := by
  have hmem (wanted : Key) :
      wanted ∈ (groupBy key items).keys ↔ wanted ∈ (groupBy key' others).keys := by
    rw [mem_keys_group_by, mem_keys_group_by, h]
  have hsorted := sorted_keys (groupBy key items)
  have hsorted' := sorted_keys (groupBy key' others)
  have hperm : (groupBy key items).keys.Perm (groupBy key' others).keys :=
    (List.perm_ext_iff_of_nodup (hsorted.imp fun h => h.ne) (hsorted'.imp fun h => h.ne)).mpr hmem
  refine hperm.eq_of_pairwise ?_ hsorted hsorted'
  intro first second _ _ hlt hgt
  exact absurd hlt hgt.asymm

/-- Lists with the same items have the same keys. -/
theorem keys_group_by_perm (h : items.Perm items') :
    (groupBy key items).keys = (groupBy key items').keys :=
  keys_group_by_eq fun wanted => by simp only [h.mem_iff]

omit [LinearOrder Key] in
/-- Of what different keys contribute, what one of them does is left when no other contributes. -/
theorem flat_map_eq_of_others {keys : List Key} (hkeys : keys.Nodup) {image : Key → List Item}
    {wanted : Key} (hothers : ∀ key ∈ keys, key ≠ wanted → image key = [])
    (hnone : wanted ∉ keys → image wanted = []) : keys.flatMap image = image wanted := by
  induction keys with
  | nil => exact (hnone List.not_mem_nil).symm
  | cons first keys ih =>
      obtain ⟨hfirst, hkeys⟩ := List.nodup_cons.mp hkeys
      rw [List.flatMap_cons]
      by_cases heq : first = wanted
      · subst heq
        rw [List.flatMap_eq_nil_iff.mpr, List.append_nil]
        intro key hkey
        exact hothers key (List.mem_cons_of_mem _ hkey) fun heq => hfirst (heq ▸ hkey)
      · rw [hothers first List.mem_cons_self heq, List.nil_append]
        refine ih hkeys (fun key hkey => hothers key (List.mem_cons_of_mem _ hkey)) fun hnot => ?_
        exact hnone fun hmem => (List.mem_cons.mp hmem).elim (fun h => heq h.symm) hnot

omit [LinearOrder Key] in
/-- What more keys contribute is nothing when each of them contributes nothing. -/
theorem flat_map_of_sublist {keys keys' : List Key} (h : keys.Sublist keys')
    {image : Key → List Item} (hothers : ∀ key ∈ keys', key ∉ keys → image key = [])
    (hnodup : keys'.Nodup) : keys'.flatMap image = keys.flatMap image := by
  induction h with
  | slnil => rfl
  | cons key hrest ih =>
      obtain ⟨hnot, hnodup⟩ := List.nodup_cons.mp hnodup
      have hkey : key ∉ _ := fun hmem => hnot (hrest.subset hmem)
      rw [List.flatMap_cons, hothers key List.mem_cons_self hkey, List.nil_append]
      exact ih (fun other hother => hothers other (List.mem_cons_of_mem _ hother)) hnodup
  | cons_cons key hrest ih =>
      obtain ⟨hnot, hnodup⟩ := List.nodup_cons.mp hnodup
      rw [List.flatMap_cons, List.flatMap_cons]
      refine congrArg _ (ih (fun other hother hmem => ?_) hnodup)
      refine hothers other (List.mem_cons_of_mem _ hother) fun hin => ?_
      rcases List.mem_cons.mp hin with rfl | hin
      · exact hnot hother
      · exact hmem hin

/-- The items of keys that are all different and include every item's key are the items that have
one. -/
theorem flat_map_items_with {keys : List Key} (hkeys : keys.Nodup)
    (hall : ∀ item ∈ items, ∀ wanted, key item = some wanted → wanted ∈ keys) :
    (keys.flatMap fun wanted => itemsWith key wanted items).Perm
      (items.filter fun item => (key item).isSome) := by
  induction keys generalizing items with
  | nil =>
      have hnone : ∀ item ∈ items, key item = none := fun item hitem =>
        Option.eq_none_iff_forall_ne_some.mpr fun wanted hwanted =>
          absurd (hall item hitem wanted hwanted) List.not_mem_nil
      rw [List.flatMap_nil, List.filter_eq_nil_iff.mpr fun item hitem => by
        simp [hnone item hitem]]
  | cons first keys ih =>
      obtain ⟨hfirst, hkeys⟩ := List.nodup_cons.mp hkeys
      -- the items of the other keys are found among those that do not have the first
      have hothers : (keys.flatMap fun wanted => itemsWith key wanted items) =
          keys.flatMap fun wanted =>
            itemsWith key wanted (items.filter fun item => key item ≠ some first) := by
        refine List.flatMap_congr fun wanted hwanted => ?_
        rw [itemsWith, itemsWith, List.filter_filter]
        refine List.filter_congr fun item _ => ?_
        by_cases heq : key item = some wanted
        · have hne : wanted ≠ first := fun h => hfirst (h ▸ hwanted)
          simp [heq, hne]
        · simp [heq]
      have hrest := @ih (items.filter fun item => key item ≠ some first) hkeys
        fun item hitem wanted hwanted => by
          obtain ⟨hmem, hne⟩ := List.mem_filter.mp hitem
          refine (List.mem_cons.mp (hall item hmem wanted hwanted)).resolve_left fun heq => ?_
          rw [heq] at hwanted
          simp [hwanted] at hne
      have hsplit := List.filter_append_perm (fun item => decide (key item = some first))
        (items.filter fun item => (key item).isSome)
      rw [List.flatMap_cons, hothers]
      refine (hrest.append_left _).trans (List.Perm.trans (List.Perm.of_eq ?_) hsplit)
      congr 1
      · rw [itemsWith, List.filter_filter]
        refine List.filter_congr fun item _ => ?_
        by_cases heq : key item = some first <;> simp [heq]
      · rw [List.filter_filter, List.filter_filter]
        refine List.filter_congr fun item _ => ?_
        simp [Bool.and_comm]

/-- Grouping loses and duplicates no item that has a key. -/
theorem flat_map_to_list_group_by (key : Item → Option Key) (items : List Item) :
    ((groupBy key items).toList.flatMap Prod.snd).Perm
      (items.filter fun item => (key item).isSome) := by
  rw [to_list_group_by, List.flatMap_map]
  exact flat_map_items_with ((sorted_keys _).imp fun h => h.ne) fun item hitem wanted hwanted =>
    mem_keys_group_by.mpr ⟨item, hitem, hwanted⟩

/-! ## Items under their own key -/

/-- Every item of a map is as it should be under its key. -/
def EveryItem (Fits : Key → Item → Prop) (groups : ExtTreeMap Key (List Item)) : Prop :=
  ∀ wanted items, groups[wanted]? = some items → ∀ item ∈ items, Fits wanted item

section EveryItem

variable {Fits : Key → Item → Prop} {groups : ExtTreeMap Key (List Item)}

theorem every_item_empty : EveryItem Fits (∅ : ExtTreeMap Key (List Item)) := by
  intro wanted items h
  rw [ExtTreeMap.getElem?_empty] at h
  cases h

theorem EveryItem.push (h : EveryItem Fits groups) {item : Item} {key : Key}
    (hitem : Fits key item) : EveryItem Fits (push groups key item) := by
  intro wanted items hget other hother
  rw [Library.push, get_amend] at hget
  split_ifs at hget with heq
  · subst heq
    cases hget
    rcases List.mem_append.mp hother with hold | hnew
    · cases htheirs : groups[key]? with
      | none =>
          rw [htheirs] at hold
          cases hold
      | some theirs =>
          rw [htheirs] at hold
          exact h key theirs htheirs other hold
    · rw [List.mem_singleton.mp hnew]
      exact hitem
  · exact h wanted items hget other hother

theorem EveryItem.map (h : EveryItem Fits groups) {image : Key → List Item → List Item}
    (hmem : ∀ wanted items, ∀ item ∈ image wanted items, item ∈ items) :
    EveryItem Fits (groups.map image) := by
  intro wanted items hget item hitem
  rw [ExtTreeMap.getElem?_map, Option.map_eq_some_iff] at hget
  obtain ⟨theirs, hget, rfl⟩ := hget
  exact h wanted theirs hget item (hmem wanted theirs item hitem)

end EveryItem

/-- Every item of a map stands under its own key. -/
def KeyedBy (key : Item → Key) (groups : ExtTreeMap Key (List Item)) : Prop :=
  ∀ wanted items, groups[wanted]? = some items → ∀ item ∈ items, key item = wanted

variable {own : Item → Key} {groups more : ExtTreeMap Key (List Item)}

theorem keyed_by_empty : KeyedBy own ∅ :=
  every_item_empty

theorem KeyedBy.extend (h : KeyedBy own groups) (hmore : KeyedBy own more) :
    KeyedBy own (more.foldl (fun groups key items => groups.insert key items) groups) := by
  rw [ExtTreeMap.foldl_eq_foldl_toList]
  have hentries : ∀ entry ∈ more.toList, ∀ item ∈ entry.2, own item = entry.1 :=
    fun entry hentry => hmore entry.1 entry.2 (mem_to_list.mp hentry)
  generalize more.toList = entries at hentries
  induction entries generalizing groups with
  | nil => exact h
  | cons entry entries ih =>
      refine ih ?_ fun other hother => hentries other (List.mem_cons_of_mem _ hother)
      intro wanted items hget item hitem
      rw [get_insert] at hget
      split_ifs at hget with heq
      · cases hget
        rw [← heq]
        exact hentries entry List.mem_cons_self item hitem
      · exact h wanted items hget item hitem

end Splitforge.Library
