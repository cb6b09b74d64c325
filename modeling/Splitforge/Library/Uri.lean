import Mathlib.Data.List.Basic

/-!
# The parts of a web address

The scheme and the authority of a text, and the host of the authority, each by the characters that
delimit it. A scheme ends at the first colon and an authority at the first slash, question mark or
number sign behind its two slashes. In an authority the user information ends at an at-sign, and
the host at a colon that does not stand in brackets.
-/

namespace Splitforge.Library.Uri

/-- A character that ends an authority. -/
def endsAuthority (c : Char) : Bool := c == '/' || c == '?' || c == '#'

/-- A character that no scheme holds. -/
def endsScheme (c : Char) : Bool := c == ':' || endsAuthority c

/-- The scheme of a text that has one, and what stands behind the colon. -/
def splitScheme (text : List Char) : Option (List Char × List Char) :=
  match text.takeWhile (fun c => !endsScheme c), text.dropWhile fun c => !endsScheme c with
  | c :: scheme, ':' :: rest => some (c :: scheme, rest)
  | _, _ => none

/-- The scheme of a text. -/
def scheme (text : List Char) : Option (List Char) := (splitScheme text).map Prod.fst

/-- The authority of a text with a scheme, if two slashes stand in front of it. -/
def authority (text : List Char) : Option (List Char) :=
  match splitScheme text with
  | some (_, '/' :: '/' :: rest) => some (rest.takeWhile fun c => !endsAuthority c)
  | _ => none

/-- An authority without the user information: what stands behind its last at-sign. -/
def withoutUserinfo (authority : List Char) : List Char :=
  (authority.reverse.takeWhile fun c => c != '@').reverse

/-- What stands before the first colon that is not in brackets, from inside them or outside. -/
def hostFrom : Bool → List Char → List Char
  | _, [] => []
  | inside, c :: rest =>
      if c = ':' ∧ inside = false then []
      else c :: hostFrom (if c = '[' then true else if c = ']' then false else inside) rest

/-- The host of an authority, without the user information and the port. -/
def host (authority : List Char) : List Char := hostFrom false (withoutUserinfo authority)

variable {text front back rest name : List Char}

/-! ## The scheme and the authority -/

/-- A text that is a scheme: it is not empty and holds no character that ends one. -/
def IsScheme (front : List Char) : Prop := front ≠ [] ∧ ∀ c ∈ front, endsScheme c = false

/-- A scheme, checked character by character. -/
theorem is_scheme_of_all {front : List Char} (hne : front ≠ [])
    (h : (front.all fun c => !endsScheme c) = true) : IsScheme front := by
  refine ⟨hne, fun c hmem => ?_⟩
  have hc := List.all_eq_true.mp h c hmem
  rwa [Bool.not_eq_true'] at hc

theorem split_scheme_append (hfront : IsScheme front) :
    splitScheme (front ++ ':' :: rest) = some (front, rest) := by
  have hall : ∀ c ∈ front, (!endsScheme c) = true := by
    intro c hmem
    rw [hfront.2 c hmem]
    rfl
  have htake : (':' :: rest).takeWhile (fun c => !endsScheme c) = [] := rfl
  have hdrop : (':' :: rest).dropWhile (fun c => !endsScheme c) = ':' :: rest := rfl
  rw [splitScheme, List.takeWhile_append_of_pos hall, List.dropWhile_append_of_pos hall, htake,
    hdrop, List.append_nil]
  cases front with
  | nil => exact absurd rfl hfront.1
  | cons c front => rfl

/-- A text that starts with a scheme and a colon has that scheme. -/
theorem scheme_append (hfront : IsScheme front) :
    scheme (front ++ ':' :: rest) = some front := by
  rw [scheme, split_scheme_append hfront]
  rfl

theorem authority_append (hfront : IsScheme front) :
    authority (front ++ ':' :: '/' :: '/' :: rest) =
      some (rest.takeWhile fun c => !endsAuthority c) := by
  rw [authority, split_scheme_append hfront]
  rfl

/-! ## The host -/

theorem take_while_without_at (h : '@' ∉ text) (rest : List Char) :
    (text.reverse ++ rest).takeWhile (fun c => c != '@') =
      text.reverse ++ rest.takeWhile fun c => c != '@' := by
  refine List.takeWhile_append_of_pos ?_
  intro c hmem
  have hne : c ≠ '@' := by
    intro heq
    rw [heq, List.mem_reverse] at hmem
    exact h hmem
  simpa using hne

theorem without_userinfo_of_not_mem (h : '@' ∉ text) : withoutUserinfo text = text := by
  have htake := take_while_without_at h []
  rw [List.append_nil, List.takeWhile_nil, List.append_nil] at htake
  rw [withoutUserinfo, htake, List.reverse_reverse]

/-- An at-sign that no other stands behind ends the user information. -/
theorem without_userinfo_append (h : '@' ∉ back) :
    withoutUserinfo (front ++ '@' :: back) = back := by
  rw [withoutUserinfo, List.reverse_append, List.reverse_cons, List.append_assoc,
    take_while_without_at h]
  simp

/-- Either a text has no at-sign, or one behind which no other stands. -/
theorem at_sign_cases (text : List Char) :
    '@' ∉ text ∨ ∃ front back, text = front ++ '@' :: back ∧ '@' ∉ back := by
  induction text with
  | nil => exact Or.inl (List.not_mem_nil)
  | cons c text ih =>
      rcases ih with hnone | ⟨front, back, heq, hback⟩
      · by_cases hat : c = '@'
        · exact Or.inr ⟨[], text, by rw [hat]; rfl, hnone⟩
        · refine Or.inl ?_
          intro hmem
          rcases List.mem_cons.mp hmem with heq | hmem
          · exact hat heq.symm
          · exact hnone hmem
      · exact Or.inr ⟨c :: front, back, by rw [heq]; rfl, hback⟩

/-- A port or nothing: what may stand behind a host. -/
def AfterHost (rest : List Char) : Prop := rest = [] ∨ rest.head? = some ':'

/-- The host of an authority is a front of it, and a port or nothing follows. -/
theorem host_from_prefix (inside : Bool) (text : List Char) :
    ∃ rest, text = hostFrom inside text ++ rest ∧ AfterHost rest := by
  induction text generalizing inside with
  | nil => exact ⟨[], rfl, Or.inl rfl⟩
  | cons c text ih =>
      by_cases hcolon : c = ':' ∧ inside = false
      · refine ⟨c :: text, ?_, Or.inr (by rw [hcolon.1]; rfl)⟩
        rw [hostFrom, if_pos hcolon, List.nil_append]
      · obtain ⟨rest, htext, hafter⟩ :=
          ih (if c = '[' then true else if c = ']' then false else inside)
        refine ⟨rest, ?_, hafter⟩
        rw [hostFrom, if_neg hcolon, List.cons_append, ← htext]

/-- A text that is a host: outside brackets at its end, and without a colon outside them. -/
def IsHost (name : List Char) : Prop :=
  ∀ rest, hostFrom false (name ++ rest) = name ++ hostFrom false rest

theorem host_from_of_after (h : AfterHost rest) : hostFrom false rest = [] := by
  rcases h with hnil | hcolon
  · rw [hnil]
    rfl
  · cases rest with
    | nil => rfl
    | cons c rest =>
        rw [List.head?_cons, Option.some.injEq] at hcolon
        rw [hostFrom, if_pos ⟨hcolon, rfl⟩]

/-- A text's host is a given one exactly when the text starts with it and a port or nothing
follows. -/
theorem host_from_eq_iff (hname : IsHost name) :
    hostFrom false text = name ↔ ∃ rest, text = name ++ rest ∧ AfterHost rest := by
  constructor
  · intro h
    obtain ⟨rest, htext, hafter⟩ := host_from_prefix false text
    rw [h] at htext
    exact ⟨rest, htext, hafter⟩
  · intro h
    obtain ⟨rest, htext, hafter⟩ := h
    rw [htext, hname, host_from_of_after hafter, List.append_nil]

/-- Without user information the host is read from the front of the authority. -/
theorem host_of_not_mem (hname : IsHost name) (hafter : AfterHost rest)
    (h : '@' ∉ name ++ rest) : host (name ++ rest) = name := by
  rw [host, without_userinfo_of_not_mem h]
  exact (host_from_eq_iff hname).mpr ⟨rest, rfl, hafter⟩

end Splitforge.Library.Uri
