import Mathlib.Data.List.Basic

/-!
# Lines of a growing text

A text is cut at a separator into complete lines and the tail after the last separator. What
is appended to a text is read behind its tail and leaves its complete lines as they are.
-/

namespace Splitforge.Library

variable {α : Type}

/-- The complete lines of a text, and what follows the last separator. -/
def lines [DecidableEq α] (separator : α) : List α → List (List α) × List α
  | [] => ([], [])
  | item :: rest =>
      if item = separator then ([] :: (lines separator rest).1, (lines separator rest).2)
      else
        match (lines separator rest).1 with
        | [] => ([], item :: (lines separator rest).2)
        | first :: others => ((item :: first) :: others, (lines separator rest).2)

/-- The text of complete lines. -/
def unlines (separator : α) (complete : List (List α)) : List α :=
  complete.flatMap fun line => line ++ [separator]

@[simp]
theorem unlines_nil (separator : α) : unlines separator [] = [] := rfl

@[simp]
theorem unlines_cons (separator : α) (line : List α) (complete : List (List α)) :
    unlines separator (line :: complete) = line ++ separator :: unlines separator complete := by
  simp [unlines]

theorem unlines_append (separator : α) (first second : List (List α)) :
    unlines separator (first ++ second) = unlines separator first ++ unlines separator second := by
  simp [unlines]

variable [DecidableEq α] {separator : α}

/-- The lines and the tail of a text are all of it. -/
theorem unlines_lines (text : List α) :
    unlines separator (lines separator text).1 ++ (lines separator text).2 = text := by
  induction text with
  | nil => rfl
  | cons item rest ih =>
      rw [lines]
      split_ifs with hitem
      · simp [hitem, ih]
      · cases hlines : (lines separator rest).1 <;> simpa [hlines] using ih

/-- No line and no tail holds a separator. -/
theorem separator_notMem_lines (text : List α) :
    (∀ line ∈ (lines separator text).1, separator ∉ line) ∧
      separator ∉ (lines separator text).2 := by
  induction text with
  | nil => simp [lines]
  | cons item rest ih =>
      rw [lines]
      split_ifs with hitem
      · simpa using ih
      · cases hlines : (lines separator rest).1 <;> simp_all [Ne.symm hitem]

/-- Appending reads on from the tail. -/
theorem lines_append (text more : List α) :
    lines separator (text ++ more) =
      ((lines separator text).1 ++ (lines separator ((lines separator text).2 ++ more)).1,
        (lines separator ((lines separator text).2 ++ more)).2) := by
  induction text with
  | nil => rfl
  | cons item rest ih =>
      rw [List.cons_append, lines, ih]
      simp only [lines.eq_2 separator item rest]
      split_ifs with hitem
      · rfl
      · cases hlines : (lines separator rest).1 with
        | nil => simp [lines, hitem]
        | cons first others => rfl

/-- A text without separators is all tail. -/
theorem lines_of_notMem {text : List α} (h : separator ∉ text) :
    lines separator text = ([], text) := by
  induction text with
  | nil => rfl
  | cons item rest ih =>
      have hitem : item ≠ separator := fun heq => h (heq ▸ List.mem_cons_self)
      rw [lines, if_neg hitem, ih (List.not_mem_of_not_mem_cons h)]

/-- The first line of a text ends at its first separator. -/
theorem lines_cons_line {line rest : List α} (h : separator ∉ line) :
    lines separator (line ++ separator :: rest) =
      (line :: (lines separator rest).1, (lines separator rest).2) := by
  induction line with
  | nil => simp [lines]
  | cons item line ih =>
      have hitem : item ≠ separator := fun heq => h (heq ▸ List.mem_cons_self)
      rw [List.cons_append, lines, if_neg hitem, ih (List.not_mem_of_not_mem_cons h)]

/-- A text of complete lines has those lines and no tail. -/
theorem lines_unlines {complete : List (List α)} (h : ∀ line ∈ complete, separator ∉ line) :
    lines separator (unlines separator complete) = (complete, []) := by
  induction complete with
  | nil => rfl
  | cons line complete ih =>
      rw [unlines_cons, lines_cons_line (h line List.mem_cons_self),
        ih fun other hother => h other (List.mem_cons_of_mem _ hother)]

/-- A text in front of and behind its first separator. -/
def splitOnce (separator : α) : List α → Option (List α × List α)
  | [] => none
  | item :: rest =>
      if item = separator then some ([], rest)
      else (splitOnce separator rest).map fun parts => (item :: parts.1, parts.2)

theorem split_once_append {front rest : List α} (h : separator ∉ front) :
    splitOnce separator (front ++ separator :: rest) = some (front, rest) := by
  induction front with
  | nil => simp [splitOnce]
  | cons item front ih =>
      have hitem : item ≠ separator := fun heq => h (heq ▸ List.mem_cons_self)
      rw [List.cons_append, splitOnce, if_neg hitem, ih (List.not_mem_of_not_mem_cons h),
        Option.map_some]

theorem eq_of_split_once {text front rest : List α}
    (h : splitOnce separator text = some (front, rest)) :
    text = front ++ separator :: rest ∧ separator ∉ front := by
  induction text generalizing front with
  | nil => cases h
  | cons item text ih =>
      rw [splitOnce] at h
      split_ifs at h with hitem
      · cases h
        simp [hitem]
      · obtain ⟨parts, hparts, heq⟩ := Option.map_eq_some_iff.mp h
        cases heq
        obtain ⟨rfl, hnotMem⟩ := ih hparts
        exact ⟨rfl, by simp [Ne.symm hitem, hnotMem]⟩

/-! ## Fronts and backs -/

/-- A text in front of and behind the first place where a pattern stands. -/
def splitAtText (pattern : List α) : List α → Option (List α × List α)
  | [] => (pattern.isPrefixOf? []).map fun rest => ([], rest)
  | item :: text =>
      match pattern.isPrefixOf? (item :: text) with
      | some rest => some ([], rest)
      | none => (splitAtText pattern text).map fun parts => (item :: parts.1, parts.2)

@[simp]
theorem strip_front_append (front text : List α) :
    front.isPrefixOf? (front ++ text) = some text := by
  induction front with
  | nil => rfl
  | cons item front ih =>
      rw [List.cons_append, List.isPrefixOf?, if_pos (beq_self_eq_true item)]
      exact ih

@[simp]
theorem strip_back_append (text back : List α) :
    back.isSuffixOf? (text ++ back) = some text := by
  rw [List.isSuffixOf?, List.reverse_append, strip_front_append, Option.map_some,
    List.reverse_reverse]

/-- A text that begins otherwise has no such front. -/
theorem strip_front_of_ne {expected item : α} {front text : List α} (h : item ≠ expected) :
    (expected :: front).isPrefixOf? (item :: text) = none :=
  if_neg fun heq => h (beq_iff_eq.mp heq).symm

/-- A pattern is found behind a text without its first item. -/
theorem split_at_text_append {item : α} {pattern front rest : List α} (h : item ∉ front) :
    splitAtText (item :: pattern) (front ++ (item :: pattern ++ rest)) = some (front, rest) := by
  induction front with
  | nil =>
      have hfound := strip_front_append (item :: pattern) rest
      rw [List.nil_append]
      rw [List.cons_append] at hfound ⊢
      rw [splitAtText, hfound]
  | cons other front ih =>
      have hother : other ≠ item := fun heq => h (heq ▸ List.mem_cons_self)
      rw [List.cons_append, splitAtText, strip_front_of_ne hother,
        ih (List.not_mem_of_not_mem_cons h)]
      rfl

/-- A front that is found is one. -/
theorem eq_append_of_strip_front {front text rest : List α}
    (h : front.isPrefixOf? text = some rest) : text = front ++ rest := by
  induction front generalizing text with
  | nil =>
      rw [List.isPrefixOf?] at h
      exact Option.some.inj h
  | cons expected front ih =>
      cases text with
      | nil => cases h
      | cons item text =>
          rw [List.isPrefixOf?] at h
          split at h
          · rename_i hitem
            rw [beq_iff_eq.mp hitem, ih h]
            rfl
          · cases h

/-- A pattern that is nowhere in a text does not split it. -/
theorem split_at_text_eq_none {pattern text : List α} (h : ¬ pattern <:+: text) :
    splitAtText pattern text = none := by
  have hfront : ∀ {text : List α}, ¬ pattern <:+: text → pattern.isPrefixOf? text = none := by
    intro text hnot
    cases hfound : pattern.isPrefixOf? text with
    | none => rfl
    | some rest =>
        exact absurd ⟨[], rest, (eq_append_of_strip_front hfound).symm⟩ hnot
  induction text with
  | nil =>
      rw [splitAtText, hfront h]
      rfl
  | cons item text ih =>
      rw [splitAtText, hfront h, ih fun hinside => h (hinside.trans (List.suffix_cons _ _).isInfix)]
      rfl

omit [DecidableEq α] in
/-- A pattern in a text is on one side of an item that it does not have. -/
theorem infix_beside {pattern front rest : List α} {item : α} (hitem : item ∉ pattern)
    (h : pattern <:+: front ++ item :: rest) : pattern <:+: front ∨ pattern <:+: rest := by
  have hfront : ∀ {front : List α}, pattern <+: front ++ item :: rest → pattern <+: front := by
    intro front hfront
    rcases List.prefix_or_prefix_of_prefix hfront (List.prefix_append front [item] |>.trans
      ⟨rest, by simp⟩) with hshort | ⟨more, hmore⟩
    · exact hshort
    · cases more with
      | nil => exact ⟨[], by rw [List.append_nil] at hmore ⊢; exact hmore.symm⟩
      | cons first more =>
          -- a longer pattern would have the item
          rw [← hmore, List.prefix_append_right_inj, List.cons_prefix_cons] at hfront
          exact absurd (hmore ▸ (by simp [hfront.1])) hitem
  induction front with
  | nil =>
      rw [List.nil_append, List.infix_cons_iff] at h
      rcases h with hahead | hinside
      · exact .inl (@hfront [] hahead).isInfix
      · exact .inr hinside
  | cons other front ih =>
      rw [List.cons_append, List.infix_cons_iff] at h
      rcases h with hahead | hinside
      · exact .inl (@hfront (other :: front) hahead).isInfix
      · rcases ih hinside with hbefore | hbehind
        · exact .inl (hbefore.trans (List.suffix_cons _ _).isInfix)
        · exact .inr hbehind

omit [DecidableEq α] in
/-- A pattern in a text is on one side of a part that shares nothing with it. -/
theorem infix_around {pattern front middle rest : List α}
    (hmiddle : ∀ item ∈ middle, item ∉ pattern) (hsome : middle ≠ [])
    (h : pattern <:+: front ++ (middle ++ rest)) : pattern <:+: front ∨ pattern <:+: rest := by
  induction middle generalizing front with
  | nil => exact absurd rfl hsome
  | cons item middle ih =>
      rcases infix_beside (hmiddle item List.mem_cons_self) h with hbefore | hbehind
      · exact .inl hbefore
      · cases middle with
        | nil => exact .inr hbehind
        | cons next middle =>
            have hlater := @ih []
              (fun later hlater => hmiddle later (List.mem_cons_of_mem _ hlater))
              (List.cons_ne_nil _ _) hbehind
            rcases hlater with hempty | hbehind
            · exact .inl (hempty.trans List.nil_infix)
            · exact .inr hbehind

end Splitforge.Library
