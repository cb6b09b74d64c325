import Mathlib.Data.List.Basic
import Mathlib.Data.List.Infix

/-!
# Words run together

Two ways of cutting a text into words agree, or part where a word of the one begins with a word of
the other. A word that ends in a separator, and has it nowhere else behind a free text, begins with
another such word only if the free text does.
-/

namespace Splitforge.Library

variable {Symbol : Type}

/-- Two ways of cutting a text into words part at a place where one word begins with the other. -/
structure PartAt (firsts seconds : List (List Symbol)) (before : List (List Symbol))
    (first second : List Symbol) (rest rest' : List (List Symbol)) : Prop where
  firsts : firsts = before ++ first :: rest
  seconds : seconds = before ++ second :: rest'
  ne : first ≠ second
  front : first <+: second ∨ second <+: first
  behind : first ++ rest.flatten = second ++ rest'.flatten

/-- Words that are run together into one text are the same words, or part at some place. -/
theorem eq_or_part_of_flatten_eq {firsts seconds : List (List Symbol)} (hfirsts : [] ∉ firsts)
    (hseconds : [] ∉ seconds) (heq : firsts.flatten = seconds.flatten) :
    firsts = seconds ∨ ∃ before first second rest rest',
      PartAt firsts seconds before first second rest rest' := by
  induction firsts generalizing seconds with
  | nil =>
      cases seconds with
      | nil => exact Or.inl rfl
      | cons second seconds =>
          have hnil := (List.append_eq_nil_iff.mp heq.symm).1
          exact absurd (hnil ▸ List.mem_cons_self) hseconds
  | cons first firsts ih =>
      cases seconds with
      | nil =>
          have hnil := (List.append_eq_nil_iff.mp heq).1
          exact absurd (hnil ▸ List.mem_cons_self) hfirsts
      | cons second seconds =>
          rw [List.flatten_cons, List.flatten_cons] at heq
          by_cases hsame : first = second
          · subst hsame
            rcases ih (fun hmem => hfirsts (List.mem_cons_of_mem _ hmem))
              (fun hmem => hseconds (List.mem_cons_of_mem _ hmem))
              (List.append_cancel_left heq) with
              rfl | ⟨before, word, other, rest, rest', hpart⟩
            · exact Or.inl rfl
            · obtain ⟨rfl, rfl, hne, hfront, hbehind⟩ := hpart
              exact Or.inr ⟨first :: before, word, other, rest, rest', rfl, rfl, hne, hfront,
                hbehind⟩
          · -- both words are fronts of the one text
            have hfront : first <+: second ++ seconds.flatten := ⟨_, heq⟩
            have hboth := List.prefix_or_prefix_of_prefix hfront (List.prefix_append _ _)
            exact Or.inr ⟨[], first, second, firsts, seconds, rfl, rfl, hsame, hboth, heq⟩

/-- The last separator tells its two sides apart. -/
theorem last_separator {front front' back back' : List Symbol} {separator : Symbol}
    (h : front ++ separator :: back = front' ++ separator :: back') (hback : separator ∉ back)
    (hback' : separator ∉ back') : front = front' ∧ back = back' := by
  rcases List.append_eq_append_iff.mp h with ⟨between, rfl, hrest⟩ | ⟨between, rfl, hrest⟩
  · cases between with
    | nil => exact ⟨(List.append_nil _).symm, (List.cons.inj hrest).2⟩
    | cons symbol between =>
        rw [(List.cons.inj hrest).2] at hback
        exact absurd (List.mem_append_right _ List.mem_cons_self) hback
  · cases between with
    | nil => exact ⟨List.append_nil _, (List.cons.inj hrest).2.symm⟩
    | cons symbol between =>
        rw [(List.cons.inj hrest).2] at hback'
        exact absurd (List.mem_append_right _ List.mem_cons_self) hback'

/-- A word that ends in a separator and is the front of a text with a separated tail is all of it,
or a front of the text alone. -/
theorem prefix_of_separated {word text tail : List Symbol} {separator : Symbol}
    (htail : separator ∉ tail) (h : word ++ [separator] <+: text ++ tail ++ [separator]) :
    word ++ [separator] = text ++ tail ++ [separator] ∨ word ++ [separator] <+: text := by
  obtain ⟨rest, hrest⟩ := h
  rw [List.append_assoc text] at hrest
  rcases List.append_eq_append_iff.mp hrest with ⟨behind, htext, _⟩ | ⟨inside, hword, htail'⟩
  · exact Or.inr ⟨behind, htext.symm⟩
  · rcases List.eq_nil_or_concat' inside with rfl | ⟨front, symbol, rfl⟩
    · rw [List.append_nil] at hword
      exact Or.inr ⟨[], by rw [List.append_nil, hword]⟩
    · rcases List.eq_nil_or_concat' rest with rfl | ⟨others, last, rfl⟩
      · rw [List.append_nil] at hrest
        exact Or.inl (hrest.trans (List.append_assoc _ _ _).symm)
      · -- the word would end inside the tail, where no separator is
        rw [← List.append_assoc] at hword htail'
        obtain ⟨_, hsymbol⟩ := List.append_inj' hword rfl
        obtain ⟨hfront, _⟩ := List.append_inj' htail' rfl
        have hmem : separator ∈ tail := by
          rw [hfront, ← List.singleton_inj.mp hsymbol]
          exact List.mem_append_left _ (List.mem_append_right _ (List.mem_singleton_self _))
        exact absurd hmem htail

end Splitforge.Library
