import Mathlib.Data.List.Nodup

/-!
# The first of each key

The elements of a list that are the first to have their key, among those whose key is not known
beforehand. Taking such elements one after another and remembering their keys is what removes
duplicates without losing the order.
-/

namespace Splitforge.Library

variable {Item Key : Type} [DecidableEq Key]

/-- The items whose key is neither known nor the key of an item before them. -/
def firstOf (key : Item → Key) : List Key → List Item → List Item
  | _, [] => []
  | known, item :: items =>
      if key item ∈ known then firstOf key known items
      else item :: firstOf key (key item :: known) items

variable {key : Item → Key} {known known' : List Key}

@[simp]
theorem first_of_nil : firstOf key known [] = [] := rfl

theorem first_of_cons_of_mem {item : Item} (h : key item ∈ known) (items : List Item) :
    firstOf key known (item :: items) = firstOf key known items := if_pos h

theorem first_of_cons_of_notMem {item : Item} (h : key item ∉ known) (items : List Item) :
    firstOf key known (item :: items) = item :: firstOf key (key item :: known) items := if_neg h

/-- Only which keys are known matters. -/
theorem first_of_congr (h : ∀ wanted, wanted ∈ known ↔ wanted ∈ known') (items : List Item) :
    firstOf key known items = firstOf key known' items := by
  induction items generalizing known known' with
  | nil => rfl
  | cons item items ih =>
      by_cases hitem : key item ∈ known
      · rw [first_of_cons_of_mem hitem, first_of_cons_of_mem ((h _).mp hitem), ih h]
      · rw [first_of_cons_of_notMem hitem, first_of_cons_of_notMem fun hknown =>
          hitem ((h _).mpr hknown)]
        have hcons : ∀ wanted, wanted ∈ key item :: known ↔ wanted ∈ key item :: known' :=
          fun wanted => by simp only [List.mem_cons, h]
        rw [ih hcons]

theorem first_of_sublist (items : List Item) : (firstOf key known items).Sublist items := by
  induction items generalizing known with
  | nil => exact List.Sublist.refl _
  | cons item items ih =>
      by_cases hitem : key item ∈ known
      · rw [first_of_cons_of_mem hitem]
        exact ih.cons _
      · rw [first_of_cons_of_notMem hitem]
        exact ih.cons_cons _

/-- The keys are those of the items that were not known. -/
theorem mem_map_first_of {items : List Item} {wanted : Key} :
    wanted ∈ (firstOf key known items).map key ↔ wanted ∉ known ∧ wanted ∈ items.map key := by
  induction items generalizing known with
  | nil => simp
  | cons item items ih =>
      by_cases hitem : key item ∈ known
      · rw [first_of_cons_of_mem hitem, ih, List.map_cons, List.mem_cons]
        constructor
        · intro h
          exact ⟨h.1, Or.inr h.2⟩
        · intro h
          refine ⟨h.1, h.2.resolve_left fun heq => h.1 ?_⟩
          rwa [heq]
      · rw [first_of_cons_of_notMem hitem, List.map_cons, List.map_cons, List.mem_cons, ih,
          List.mem_cons, List.mem_cons]
        by_cases heq : wanted = key item
        · simp [heq, hitem]
        · simp [heq]

theorem notMem_known_of_mem_first_of {items : List Item} {item : Item}
    (h : item ∈ firstOf key known items) : key item ∉ known :=
  (mem_map_first_of.mp (List.mem_map_of_mem h)).1

theorem nodup_map_first_of (items : List Item) : ((firstOf key known items).map key).Nodup := by
  induction items generalizing known with
  | nil => exact List.nodup_nil
  | cons item items ih =>
      by_cases hitem : key item ∈ known
      · rw [first_of_cons_of_mem hitem]
        exact ih
      · rw [first_of_cons_of_notMem hitem, List.map_cons, List.nodup_cons]
        exact ⟨fun h => (mem_map_first_of.mp h).1 List.mem_cons_self, ih⟩

/-- An item that is kept is the first with its key. -/
theorem find_of_mem_first_of {items : List Item} {item : Item}
    (h : item ∈ firstOf key known items) :
    items.find? (fun other => key other = key item) = some item := by
  induction items generalizing known with
  | nil => cases h
  | cons other items ih =>
      have hnew := notMem_known_of_mem_first_of h
      by_cases hother : key other ∈ known
      · rw [first_of_cons_of_mem hother] at h
        have hne : key other ≠ key item := fun heq => hnew (heq ▸ hother)
        rw [List.find?_cons_of_neg (by simpa using hne)]
        exact ih h
      · rw [first_of_cons_of_notMem hother] at h
        rcases List.mem_cons.mp h with heq | hrest
        · rw [heq, List.find?_cons_of_pos (by simp)]
        · have hne : key other ≠ key item := fun heq =>
            notMem_known_of_mem_first_of hrest (heq ▸ List.mem_cons_self)
          rw [List.find?_cons_of_neg (by simpa using hne)]
          exact ih hrest

/-- Nothing is kept exactly when every key is known. -/
theorem first_of_eq_nil {items : List Item} :
    firstOf key known items = [] ↔ ∀ item ∈ items, key item ∈ known := by
  constructor
  · intro h item hitem
    by_contra hnew
    have hmem := mem_map_first_of.mpr ⟨hnew, List.mem_map_of_mem hitem⟩
    rw [h] at hmem
    cases hmem
  · intro h
    refine List.eq_nil_iff_forall_not_mem.mpr fun item hitem => ?_
    exact notMem_known_of_mem_first_of hitem (h item ((first_of_sublist items).subset hitem))

/-- A second list is looked at with the keys of the first known. -/
theorem first_of_append (first second : List Item) :
    firstOf key known (first ++ second) =
      firstOf key known first ++ firstOf key (first.map key ++ known) second := by
  induction first generalizing known with
  | nil => rfl
  | cons item first ih =>
      rw [List.cons_append]
      by_cases hitem : key item ∈ known
      · rw [first_of_cons_of_mem hitem, first_of_cons_of_mem hitem, ih]
        rw [first_of_congr (fun wanted => ?_) second]
        simp only [List.mem_append, List.map_cons, List.mem_cons]
        constructor
        · intro h
          exact h.imp_left Or.inr
        · intro h
          rcases h with (rfl | h) | h
          · exact Or.inr hitem
          · exact Or.inl h
          · exact Or.inr h
      · rw [first_of_cons_of_notMem hitem, first_of_cons_of_notMem hitem, ih, List.cons_append]
        rw [first_of_congr (fun wanted => ?_) second]
        simp only [List.mem_append, List.map_cons, List.mem_cons]
        exact or_left_comm.trans or_assoc.symm

/-- With more known, what is kept is what was kept of other keys. -/
theorem first_of_eq_filter (items : List Item) :
    firstOf key (known' ++ known) items =
      (firstOf key known items).filter fun item => key item ∉ known' := by
  induction items generalizing known with
  | nil => rfl
  | cons item items ih =>
      by_cases hitem : key item ∈ known
      · rw [first_of_cons_of_mem (List.mem_append_right _ hitem), first_of_cons_of_mem hitem, ih]
      · have hcongr : firstOf key (known' ++ key item :: known) items =
            firstOf key (key item :: (known' ++ known)) items :=
          first_of_congr
            (fun wanted => by simp only [List.mem_append, List.mem_cons, or_left_comm]) _
        rw [first_of_cons_of_notMem hitem]
        by_cases hknown : key item ∈ known'
        · rw [first_of_cons_of_mem (List.mem_append_left _ hknown),
            List.filter_cons_of_neg (by simpa using hknown), ← ih, hcongr]
          refine first_of_congr (fun wanted => ?_) items
          rw [List.mem_cons]
          refine (or_iff_right_of_imp ?_).symm
          rintro rfl
          exact List.mem_append_left _ hknown
        · have hnew : key item ∉ known' ++ known :=
            fun h => (List.mem_append.mp h).elim hknown hitem
          rw [first_of_cons_of_notMem hnew, List.filter_cons_of_pos (by simpa using hknown), ← ih,
            hcongr]

/-- Items with different keys are kept when their key is not known. -/
theorem first_of_of_nodup {items : List Item} (h : (items.map key).Nodup) :
    firstOf key known items = items.filter fun item => key item ∉ known := by
  have hall : firstOf key [] items = items := by
    induction items with
    | nil => rfl
    | cons item items ih =>
        obtain ⟨hitem, hitems⟩ := List.nodup_cons.mp h
        have hnone : (firstOf key [] items).filter (fun other => key other ∉ [key item]) =
            firstOf key [] items := by
          refine List.filter_eq_self.mpr fun other hother => ?_
          have hne : key other ≠ key item := by
            intro heq
            rw [← heq] at hitem
            exact hitem (List.mem_map_of_mem ((first_of_sublist items).subset hother))
          simpa using hne
        rw [first_of_cons_of_notMem List.not_mem_nil, ← List.append_nil [key item],
          first_of_eq_filter, hnone, ih hitems]
  have hknown := @first_of_eq_filter _ _ _ key [] known items
  rw [List.append_nil, hall] at hknown
  exact hknown

/-- Where a value has the key, what is kept can be told from the values. -/
theorem first_of_map {Value : Type} {value : Item → Value} {keyOf : Value → Key}
    (hkey : ∀ item, keyOf (value item) = key item) (items : List Item) :
    (firstOf key known items).map value = firstOf keyOf known (items.map value) := by
  induction items generalizing known with
  | nil => rfl
  | cons item items ih =>
      rw [List.map_cons]
      by_cases hitem : key item ∈ known
      · rw [first_of_cons_of_mem hitem, ih, first_of_cons_of_mem (by rwa [hkey])]
      · rw [first_of_cons_of_notMem hitem, List.map_cons, ih,
          first_of_cons_of_notMem (by rwa [hkey]), hkey]

/-- Beginnings of one batch, one behind another: what is kept of them is the longest. -/
theorem first_of_append_prefix {batch log part : List Item} (hnodup : (batch.map key).Nodup)
    (hfresh : ∀ item ∈ batch, key item ∉ known) (h : firstOf key known log <+: batch)
    (hpart : part <+: batch) :
    firstOf key known (log ++ part) <+: batch ∧ part <+: firstOf key known (log ++ part) := by
  have hkept : firstOf key known (log ++ part) = firstOf key known log ++
      part.filter fun item => key item ∉ (firstOf key known log).map key := by
    rw [first_of_append, first_of_of_nodup (hnodup.sublist (hpart.sublist.map key))]
    refine congrArg (firstOf key known log ++ ·) (List.filter_congr fun item hitem => ?_)
    have hnew := hfresh item (hpart.subset hitem)
    refine decide_eq_decide.mpr (not_congr ?_)
    rw [mem_map_first_of, List.mem_append]
    tauto
  rw [hkept]
  rcases List.prefix_or_prefix_of_prefix h hpart with ⟨rest, hrest⟩ | hshort
  · -- the part is the longer one, and what it has behind the other is kept
    rw [← hrest, List.filter_append, List.filter_eq_nil_iff.mpr, List.nil_append,
      List.filter_eq_self.mpr, hrest]
    · exact ⟨hpart, List.prefix_refl part⟩
    · intro item hitem
      have hsublist := hnodup.sublist (hpart.sublist.map key)
      rw [← hrest, List.map_append] at hsublist
      simpa using fun other hother heq => List.disjoint_of_nodup_append hsublist
        (List.mem_map_of_mem hother) (heq ▸ List.mem_map_of_mem hitem)
    · intro item hitem
      simpa using ⟨item, hitem, rfl⟩
  · rw [List.filter_eq_nil_iff.mpr, List.append_nil]
    · exact ⟨h, hshort⟩
    · intro item hitem
      simpa using ⟨item, hshort.subset hitem, rfl⟩

/-! ## Tables that lead their logs -/

/-- A table holds the first entries of its log, in order: what the log has first of each key is
the table and behind it what the table does not have yet. Entries are compared by a value. -/
structure Leads {Value : Type} (key : Item → Key) (value : Item → Value) (table log : List Item) :
    Prop where
  known : ∀ wanted ∈ table.map key, wanted ∈ log.map key
  inOrder : (firstOf key [] log).map value =
    table.map value ++ (firstOf key (table.map key) log).map value

variable {Value : Type} {value : Item → Value} {table log : List Item}

theorem leads_nil (log : List Item) : Leads key value [] log where
  known _ h := by cases h
  inOrder := rfl

/-- What the table lacks of a longer log. -/
theorem Leads.waiting_append (h : Leads key value table log) (more : List Item) :
    firstOf key (table.map key) (log ++ more) =
      firstOf key (table.map key) log ++ firstOf key (log.map key) more := by
  rw [first_of_append]
  rw [first_of_congr (fun wanted => ?_) more]
  rw [List.mem_append]
  exact or_iff_left_of_imp (h.known wanted)

/-- A log may grow. -/
theorem Leads.append (h : Leads key value table log) (more : List Item) :
    Leads key value table (log ++ more) where
  known wanted hwanted := by
    rw [List.map_append]
    exact List.mem_append_left _ (h.known wanted hwanted)
  inOrder := by
    rw [h.waiting_append, first_of_append, List.append_nil, List.map_append, List.map_append,
      h.inOrder, List.append_assoc]

/-- Where the table lacks nothing, what the log has first is the table. -/
theorem Leads.all (h : Leads key value table log)
    (hall : ∀ item ∈ log, key item ∈ table.map key) :
    (firstOf key [] log).map value = table.map value := by
  rw [h.inOrder, first_of_eq_nil.mpr hall, List.map_nil, List.append_nil]

/-- The table takes in what it lacks, in order. -/
theorem Leads.insert (h : Leads key value table log) {items : List Item}
    (hkeys : items.map key = (firstOf key (table.map key) log).map key)
    (hvalues : items.map value = (firstOf key (table.map key) log).map value) :
    Leads key value (table ++ items) log ∧ ∀ item ∈ log, key item ∈ (table ++ items).map key := by
  have hall : ∀ item ∈ log, key item ∈ (table ++ items).map key := by
    intro item hitem
    rw [List.map_append, List.mem_append, hkeys, mem_map_first_of]
    by_cases hknown : key item ∈ table.map key
    · exact Or.inl hknown
    · exact Or.inr ⟨hknown, List.mem_map_of_mem hitem⟩
  refine ⟨⟨fun wanted hwanted => ?_, ?_⟩, hall⟩
  · rw [List.map_append, List.mem_append, hkeys, mem_map_first_of] at hwanted
    exact hwanted.elim (h.known wanted) fun hnew => hnew.2
  · rw [first_of_eq_nil.mpr hall, h.inOrder, List.map_append, hvalues, List.map_nil,
      List.append_nil]

/-- The front of a table that leads its log leads it too, when values tell keys apart. -/
theorem Leads.front {keyOf : Value → Key} (hkey : ∀ item, keyOf (value item) = key item)
    {front back : List Item} (h : Leads key value (front ++ back) log) :
    Leads key value front log where
  known wanted hwanted := by
    refine h.known wanted ?_
    rw [List.map_append]
    exact List.mem_append_left _ hwanted
  inOrder := by
    have horder := h.inOrder
    rw [List.map_append, List.append_assoc] at horder
    obtain ⟨first, rest, hsplit, hfirst, _⟩ := List.map_eq_append_iff.mp horder
    have hkeys (items : List Item) : items.map key = (items.map value).map keyOf := by
      rw [List.map_map]
      exact List.map_congr_left fun item _ => (hkey item).symm
    have hsame : first.map key = front.map key := by rw [hkeys, hkeys, hfirst]
    have hnodup := @nodup_map_first_of _ _ _ key [] log
    rw [hsplit, List.map_append] at hnodup
    -- what the log has first without the keys of the front is what it has behind the front
    have hwaiting := @first_of_eq_filter _ _ _ key [] (front.map key) log
    rw [List.append_nil, hsplit, List.filter_append, List.filter_eq_nil_iff.mpr, List.nil_append,
      List.filter_eq_self.mpr] at hwaiting
    · rw [hwaiting, hsplit, List.map_append, hfirst]
    · intro item hitem
      rw [← hsame]
      simpa using fun other hother heq => List.disjoint_of_nodup_append hnodup
        (List.mem_map_of_mem hother) (heq ▸ List.mem_map_of_mem hitem)
    · intro item hitem
      rw [← hsame]
      simpa using ⟨item, hitem, rfl⟩

end Splitforge.Library
