import Mathlib.Data.List.Chain
import Mathlib.Data.List.Infix

/-!
# Words with single separators

A text of letters and separators that does not start with a separator and has no two next to each
other. One that does not end with a separator either is words joined by one separator each. Such
texts grow at their end, and a first part of one is one.
-/

namespace Splitforge.Library

variable {α : Type} {isLetter : α → Prop} {separator : α}

/-- A text that has a letter in front of every separator. -/
structure Spaced (isLetter : α → Prop) (separator : α) (text : List α) : Prop where
  items : ∀ item ∈ text, isLetter item ∨ item = separator
  starts : text.head? ≠ some separator
  single : text.IsChain fun first second => ¬ (first = separator ∧ second = separator)

theorem spaced_nil : Spaced isLetter separator [] where
  items _ h := nomatch h
  starts := nofun
  single := .nil

variable {text before : List α} {item : α}

/-- A first part of such a text is one. -/
theorem Spaced.of_prefix (h : Spaced isLetter separator text) (hfront : before <+: text) :
    Spaced isLetter separator before where
  items item hitem := h.items item (hfront.subset hitem)
  starts := by
    intro hhead
    obtain ⟨rest, rfl⟩ := hfront
    refine h.starts ?_
    rw [List.head?_append, hhead, Option.some_or]
  single := h.single.prefix hfront

/-- A text is followed by an item that is no separator behind another one. -/
theorem Spaced.push (h : Spaced isLetter separator text) (hitem : isLetter item ∨ item = separator)
    (hlast : item = separator → text ≠ [] ∧ text.getLast? ≠ some separator) :
    Spaced isLetter separator (text ++ [item]) where
  items other hother := by
    rcases List.mem_append.mp hother with hother | hother
    · exact h.items other hother
    · rw [List.mem_singleton.mp hother]
      exact hitem
  starts := by
    intro hhead
    cases text with
    | nil =>
        injection hhead with hhead
        exact (hlast hhead).1 rfl
    | cons first rest => exact h.starts hhead
  single := by
    refine h.single.append (.singleton item) ?_
    intro last hmem next hnext hboth
    obtain ⟨hseparator, hnextseparator⟩ := hboth
    rw [List.head?_singleton, Option.mem_some] at hnext
    rw [← hnext] at hnextseparator
    refine (hlast hnextseparator).2 ?_
    rw [← hseparator]
    exact hmem

/-- A separator stands behind something, which is no separator. -/
theorem Spaced.before_separator {rest : List α}
    (h : Spaced isLetter separator (text ++ separator :: rest)) :
    text ≠ [] ∧ text.getLast? ≠ some separator := by
  constructor
  · intro hnil
    subst hnil
    exact h.starts rfl
  · intro hlast
    have hsingle := (List.isChain_append.mp h.single).2.2
    exact hsingle separator hlast separator rfl ⟨rfl, rfl⟩

/-- Two such texts are one behind each other. -/
theorem Spaced.append (h : Spaced isLetter separator text) {behind : List α}
    (hbehind : Spaced isLetter separator behind) : Spaced isLetter separator (text ++ behind) where
  items item hitem := (List.mem_append.mp hitem).elim (h.items item) (hbehind.items item)
  starts := by
    cases text with
    | nil => exact hbehind.starts
    | cons first rest => exact h.starts
  single := by
    refine h.single.append hbehind.single ?_
    intro last _ next hnext hboth
    rw [hboth.2] at hnext
    exact hbehind.starts hnext

/-- What follows a separator starts with no separator. -/
theorem Spaced.of_cons_separator (h : Spaced isLetter separator (item :: separator :: text)) :
    Spaced isLetter separator text where
  items other hother :=
    h.items other (List.mem_cons_of_mem _ (List.mem_cons_of_mem _ hother))
  starts := by
    intro hhead
    obtain ⟨rest, rfl⟩ := List.head?_eq_some_iff.mp hhead
    have hsingle := (List.isChain_cons_cons.mp h.single).2
    exact (List.isChain_cons_cons.mp hsingle).1 ⟨rfl, rfl⟩
  single := (List.isChain_cons_cons.mp h.single).2.tail

/-- A letter in front of a letter can be taken away. -/
theorem Spaced.of_cons_letter {next : α} (h : Spaced isLetter separator (item :: next :: text))
    (hnext : next ≠ separator) : Spaced isLetter separator (next :: text) where
  items other hother := h.items other (List.mem_cons_of_mem _ hother)
  starts := by
    intro hhead
    injection hhead with hhead
    exact hnext hhead
  single := (List.isChain_cons_cons.mp h.single).2

/-- Words of letters. -/
def AreWords (isLetter : α → Prop) (words : List (List α)) : Prop :=
  words ≠ [] ∧ ∀ word ∈ words, word ≠ [] ∧ ∀ item ∈ word, isLetter item

theorem are_words_singleton (hitem : isLetter item) : AreWords isLetter [[item]] := by
  refine ⟨List.cons_ne_nil _ _, ?_⟩
  simpa using hitem

/-- A letter is a word in front of others. -/
theorem AreWords.cons {words : List (List α)} (h : AreWords isLetter words)
    (hitem : isLetter item) : AreWords isLetter ([item] :: words) := by
  refine ⟨List.cons_ne_nil _ _, List.forall_mem_cons.mpr ⟨?_, h.2⟩⟩
  simpa using hitem

/-- A letter in front of a word is a part of it. -/
theorem AreWords.grow {word : List α} {words : List (List α)}
    (h : AreWords isLetter (word :: words)) (hitem : isLetter item) :
    AreWords isLetter ((item :: word) :: words) := by
  obtain ⟨hword, hwords⟩ := List.forall_mem_cons.mp h.2
  refine ⟨List.cons_ne_nil _ _, List.forall_mem_cons.mpr ⟨⟨List.cons_ne_nil _ _, ?_⟩, hwords⟩⟩
  exact List.forall_mem_cons.mpr ⟨hitem, hword.2⟩

/-- A text that does not end with a separator is words with one separator between them. -/
theorem Spaced.exists_words (h : Spaced isLetter separator text) (hne : text ≠ [])
    (hlast : text.getLast? ≠ some separator) :
    ∃ words, AreWords isLetter words ∧ text = [separator].intercalate words := by
  induction text using List.twoStepInduction with
  | nil => exact absurd rfl hne
  | singleton item =>
      have hitem := (h.items item List.mem_cons_self).resolve_right fun heq => hlast (heq ▸ rfl)
      exact ⟨[[item]], are_words_singleton hitem, rfl⟩
  | cons_cons item next rest ihrest ihnext =>
      have hitem := (h.items item List.mem_cons_self).resolve_right fun heq => h.starts (heq ▸ rfl)
      by_cases hnext : next = separator
      · subst hnext
        -- the word ends, and another one follows
        have hrest : rest ≠ [] := by
          intro hnil
          subst hnil
          exact hlast rfl
        have hends : rest.getLast? ≠ some next := by
          rwa [List.getLast?_cons_cons, List.getLast?_cons_of_ne_nil hrest] at hlast
        obtain ⟨words, hwords, htext⟩ := ihrest h.of_cons_separator hrest hends
        refine ⟨[item] :: words, hwords.cons hitem, ?_⟩
        rw [List.intercalate_cons_of_ne_nil hwords.1, ← htext]
        rfl
      · have hends : (next :: rest).getLast? ≠ some separator := by
          rwa [List.getLast?_cons_cons] at hlast
        obtain ⟨words, hwords, htext⟩ :=
          ihnext next (h.of_cons_letter hnext) (List.cons_ne_nil _ _) hends
        cases words with
        | nil => exact absurd rfl hwords.1
        | cons word words =>
            refine ⟨(item :: word) :: words, hwords.grow hitem, ?_⟩
            rw [htext, List.intercalate_cons_cons_left]

/-- A word is such a text. -/
theorem spaced_word (hseparator : ¬ isLetter separator) (h : ∀ item ∈ text, isLetter item) :
    Spaced isLetter separator text where
  items item hitem := .inl (h item hitem)
  starts := by
    intro hhead
    exact hseparator (h separator (List.mem_of_mem_head? hhead))
  single := by
    refine List.Pairwise.isChain (List.pairwise_of_forall_mem_list ?_)
    intro first hfirst _ _ hboth
    rw [hboth.1] at hfirst
    exact hseparator (h separator hfirst)

/-- Words with one separator between them are such a text, which ends with a letter. -/
theorem AreWords.spaced (hseparator : ¬ isLetter separator) {words : List (List α)}
    (h : AreWords isLetter words) :
    Spaced isLetter separator ([separator].intercalate words) ∧
      ∃ last ∈ ([separator].intercalate words).getLast?, isLetter last := by
  obtain ⟨hne, hall⟩ := h
  induction words with
  | nil => exact absurd rfl hne
  | cons word words ih =>
      obtain ⟨hword, hletters⟩ := hall word List.mem_cons_self
      have hspaced := spaced_word hseparator hletters
      have hlast := hletters _ (List.getLast_mem hword)
      cases words with
      | nil =>
          rw [List.intercalate_singleton]
          exact ⟨hspaced, _, List.getLast?_eq_some_getLast hword, hlast⟩
      | cons next words =>
          obtain ⟨hrest, last, hmem, hends⟩ := ih (List.cons_ne_nil _ _)
            fun other hother => hall other (List.mem_cons_of_mem _ hother)
          rw [List.intercalate_cons_cons]
          constructor
          · refine (hspaced.push (.inr rfl) fun _ => ⟨hword, ?_⟩).append hrest
            intro hseparated
            rw [List.getLast?_eq_some_getLast hword] at hseparated
            injection hseparated with hseparated
            exact hseparator (hseparated ▸ hlast)
          · refine ⟨last, ?_, hends⟩
            rw [Option.mem_def] at hmem
            rw [List.getLast?_append, hmem]
            rfl

end Splitforge.Library
