import Mathlib.Data.List.Forall2

/-!
# Lists of what can fail

A map or a fold that stops at the first error, taken item by item.
-/

namespace Splitforge.Library

variable {Error Item Image State : Type} {items : List Item}

/-- What two steps give, the second gives with what the first gave. -/
theorem exists_of_bind {step : Except Error Item} {next : Item → Except Error Image} {image : Image}
    (h : step >>= next = .ok image) : ∃ item, step = .ok item ∧ next item = .ok image := by
  cases step with
  | error error => cases h
  | ok item => exact ⟨item, rfl, h⟩

/-- Changing what each item gives changes what a map that can fail gives. -/
theorem map_m_map {Other : Type} (f : Item → Except Error Image) (change : Image → Other)
    (items : List Item) :
    items.mapM (fun item => (f item).map change) = (items.mapM f).map (List.map change) := by
  induction items with
  | nil => rfl
  | cons item items ih =>
      rw [List.mapM_cons, List.mapM_cons, ih]
      cases f item with
      | error error => rfl
      | ok image =>
          cases items.mapM f with
          | error error => rfl
          | ok images => rfl

/-- What a map that can fail gives, it gives item by item. -/
theorem forall₂_of_map_m {f : Item → Except Error Image} {images : List Image}
    (h : items.mapM f = .ok images) :
    List.Forall₂ (fun item image => f item = .ok image) items images := by
  induction items generalizing images with
  | nil =>
      cases h
      exact .nil
  | cons item items ih =>
      rw [List.mapM_cons] at h
      obtain ⟨image, hitem, h⟩ := exists_of_bind h
      obtain ⟨rest, hitems, h⟩ := exists_of_bind h
      cases h
      exact .cons hitem (ih hitems)

/-- A map that fails for no item does not fail. -/
theorem exists_map_m {f : Item → Except Error Image}
    (h : ∀ item ∈ items, ∃ image, f item = .ok image) : ∃ images, items.mapM f = .ok images := by
  induction items with
  | nil => exact ⟨[], rfl⟩
  | cons item items ih =>
      obtain ⟨image, himage⟩ := h item List.mem_cons_self
      obtain ⟨images, himages⟩ := ih fun other hother => h other (List.mem_cons_of_mem _ hother)
      refine ⟨image :: images, ?_⟩
      rw [List.mapM_cons, himage, himages]
      rfl

/-- Each of the items beside others has one of them beside it. -/
theorem exists_of_mem_beside {Beside : Item → Image → Prop} {images : List Image}
    (h : List.Forall₂ Beside items images) {image : Image} (hmem : image ∈ images) :
    ∃ item ∈ items, Beside item image := by
  induction h with
  | nil => cases hmem
  | cons hitem _ ih =>
      rcases List.mem_cons.mp hmem with rfl | hmem
      · exact ⟨_, List.mem_cons_self, hitem⟩
      · obtain ⟨item, hitems, hitem⟩ := ih hmem
        exact ⟨item, List.mem_cons_of_mem _ hitems, hitem⟩

/-- What a map that can fail gives is given for some item. -/
theorem exists_of_mem_map_m {f : Item → Except Error Image} {images : List Image}
    (h : items.mapM f = .ok images) {image : Image} (hmem : image ∈ images) :
    ∃ item ∈ items, f item = .ok image :=
  exists_of_mem_beside (forall₂_of_map_m h) hmem

/-- The first items of two lists that are looked for are beside each other, or there are none. -/
theorem find_beside {Beside : Item → Image → Prop} {images : List Image} {wanted : Item → Bool}
    {wanted' : Image → Bool} (h : List.Forall₂ Beside items images)
    (hwanted : ∀ item image, Beside item image → wanted item = wanted' image) :
    Option.Rel Beside (items.find? wanted) (images.find? wanted') := by
  induction h with
  | nil => exact .none
  | @cons item image items images hbeside _ ih =>
      rw [List.find?_cons, List.find?_cons, hwanted item image hbeside]
      cases wanted' image with
      | true => exact .some hbeside
      | false => exact ih

/-- What each step of a fold that can fail keeps, the fold keeps. -/
theorem keep_of_fold_m {f : State → Item → Except Error State} {Inv : State → Prop}
    {state state' : State} (h : items.foldlM f state = .ok state') (hinv : Inv state)
    (hstep : ∀ state item state', Inv state → f state item = .ok state' → Inv state') :
    Inv state' := by
  induction items generalizing state with
  | nil =>
      cases h
      exact hinv
  | cons item items ih =>
      rw [List.foldlM_cons] at h
      obtain ⟨next, hitem, h⟩ := exists_of_bind h
      exact ih h (hstep state item next hinv hitem)

/-- Rows that were written are read back. -/
theorem map_m_read {Saved Row Item Error : Type} {write : Saved → Row}
    {read : Row → Except Error Item} {shown : Saved → Item} {rows : List Row}
    (hread : ∀ saved, read (write saved) = .ok (shown saved))
    (hrows : ∀ row ∈ rows, ∃ saved, row = write saved) :
    ∃ saves : List Saved, rows = saves.map write ∧ rows.mapM read = .ok (saves.map shown) := by
  induction rows with
  | nil => exact ⟨[], rfl, rfl⟩
  | cons row rows ih =>
      obtain ⟨saved, rfl⟩ := hrows row List.mem_cons_self
      obtain ⟨saves, heq, hrest⟩ := ih fun other hother =>
        hrows other (List.mem_cons_of_mem _ hother)
      refine ⟨saved :: saves, by rw [heq, List.map_cons], ?_⟩
      rw [List.mapM_cons, hread, hrest]
      rfl

/-- What is read is what the rows were written from. -/
theorem mem_map_shown {Saved Row Item Error : Type} {write : Saved → Row}
    {read : Row → Except Error Item} {shown : Saved → Item} {saves : List Saved} {item : Item}
    (hread : ∀ saved, read (write saved) = .ok (shown saved)) :
    item ∈ saves.map shown ↔ ∃ saved, write saved ∈ saves.map write ∧ item = shown saved := by
  constructor
  · intro h
    obtain ⟨saved, hmem, rfl⟩ := List.mem_map.mp h
    exact ⟨saved, List.mem_map_of_mem hmem, rfl⟩
  · intro h
    obtain ⟨saved, hmem, rfl⟩ := h
    obtain ⟨other, hother, heq⟩ := List.mem_map.mp hmem
    have hshown := congrArg read heq
    rw [hread, hread] at hshown
    exact Except.ok.inj hshown ▸ List.mem_map_of_mem hother

end Splitforge.Library
