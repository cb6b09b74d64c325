import Mathlib.Data.List.TakeWhile
import Splitforge.Library.Uri
import Splitforge.Raceday.Transport

/-!
# Where a token is sent

`Client::new` looks at the front of an address and at the character behind it. An address over TLS
is safe to send a token to, and so is one to this machine unless user information stands in front
of its host: what looks like this machine and a port may be a name and a password.
-/

namespace Splitforge.Raceday

open Splitforge.Library

/-- The base a client keeps of its address: `trim_end_matches('/')`. -/
def clientBase (baseUrl : String) : List Char :=
  (baseUrl.toList.reverse.dropWhile (· = '/')).reverse

/-- The URL of a write, as `Client::write` formats it. -/
def requestUrl (baseUrl path : String) : List Char :=
  clientBase baseUrl ++ "/api/v1/timing/".toList ++ path.toList

/-- The hosts that are this machine. -/
def localHosts : List (List Char) := ["127.0.0.1".toList, "localhost".toList, "[::1]".toList]

/-- A token sent here crosses no network in clear: the scheme is `https`, or it is `http` and the
host is this machine. -/
def SafeToSend (url : List Char) : Prop :=
  Uri.scheme url = some "https".toList ∨ Uri.scheme url = some "http".toList ∧
    ∃ authority, Uri.authority url = some authority ∧ Uri.host authority ∈ localHosts

/-- A text starts with this machine, and a port or nothing follows. -/
def startsLocal (text : List Char) : Bool :=
  localHosts.any fun name => name.isPrefixOf text &&
    ((text.drop name.length).isEmpty || (text.drop name.length).head? == some ':')

/-- This machine stands behind the last at-sign of an authority. -/
def LocalBehindAt (authority : List Char) : Prop :=
  ∃ userinfo back, authority = userinfo ++ '@' :: back ∧ '@' ∉ back ∧ startsLocal back = true

/-- An address is over TLS, or without user information, or this machine stands behind its last
at-sign. -/
def Undisguised (url : List Char) : Prop :=
  "https://".toList.isPrefixOf url = true ∨
    ∀ authority ∈ Uri.authority url, '@' ∉ authority ∨ LocalBehindAt authority

/-! ## The fronts of accepted addresses -/

theorem https_is_scheme : Uri.IsScheme "https".toList := Uri.is_scheme_of_all (by decide) rfl

theorem http_is_scheme : Uri.IsScheme "http".toList := Uri.is_scheme_of_all (by decide) rfl

theorem is_host_of_mem {name : List Char} (h : name ∈ localHosts) : Uri.IsHost name := by
  intro rest
  simp only [localHosts, List.mem_cons, List.not_mem_nil, or_false] at h
  rcases h with rfl | rfl | rfl <;> rfl

theorem starts_local_iff {text : List Char} :
    startsLocal text = true ↔ Uri.hostFrom false text ∈ localHosts := by
  rw [startsLocal, List.any_eq_true]
  constructor
  · intro h
    obtain ⟨name, hmem, hname⟩ := h
    rw [Bool.and_eq_true, Bool.or_eq_true, List.isEmpty_iff, beq_iff_eq,
      List.isPrefixOf_iff_prefix] at hname
    obtain ⟨⟨rest, hrest⟩, hafter⟩ := hname
    rw [← hrest, List.drop_left] at hafter
    rw [(Uri.host_from_eq_iff (is_host_of_mem hmem)).mpr ⟨rest, hrest.symm, hafter⟩]
    exact hmem
  · intro h
    obtain ⟨rest, htext, hafter⟩ := Uri.host_from_prefix false text
    refine ⟨_, h, ?_⟩
    rw [Bool.and_eq_true, Bool.or_eq_true, List.isEmpty_iff, beq_iff_eq,
      List.isPrefixOf_iff_prefix]
    refine ⟨⟨rest, htext.symm⟩, ?_⟩
    have hdrop : text.drop (Uri.hostFrom false text).length = rest := by
      have hlength := congrArg (List.drop (Uri.hostFrom false text).length) htext
      rwa [List.drop_left] at hlength
    rw [hdrop]
    exact hafter

/-- The base is the address without slashes at its end. -/
theorem client_base_append (baseUrl : String) :
    ∃ slashes, baseUrl.toList = clientBase baseUrl ++ slashes ∧ ∀ c ∈ slashes, c = '/' := by
  refine ⟨(baseUrl.toList.reverse.takeWhile (· = '/')).reverse, ?_, ?_⟩
  · rw [clientBase, ← List.reverse_append, List.takeWhile_append_dropWhile, List.reverse_reverse]
  · intro c hmem
    rw [List.mem_reverse] at hmem
    have hslash : decide (c = '/') = true := List.mem_takeWhile_imp (p := (decide <| · = '/')) hmem
    exact of_decide_eq_true hslash

/-- An accepted base is over TLS, or starts with this machine, behind which a port, a path or
nothing stands. -/
theorem client_base_of_allowed {baseUrl : String} (h : isAllowed baseUrl = true) :
    (∃ rest, clientBase baseUrl = "https".toList ++ ':' :: '/' :: '/' :: rest) ∨
      ∃ name ∈ localHosts, ∃ rest, clientBase baseUrl =
        "http".toList ++ ':' :: '/' :: '/' :: (name ++ rest) ∧
          (rest = [] ∨ rest.head? = some ':' ∨ rest.head? = some '/') := by
  rw [isAllowed, Bool.or_eq_true] at h
  rcases h with htls | hlocal
  · obtain ⟨rest, hrest⟩ := List.isPrefixOf_iff_prefix.mp htls
    exact Or.inl ⟨rest, hrest.symm⟩
  · obtain ⟨address, hmem, haddress⟩ := List.any_eq_true.mp hlocal
    rw [Bool.and_eq_true, List.isPrefixOf_iff_prefix] at haddress
    obtain ⟨⟨rest, hrest⟩, hafter⟩ := haddress
    have hbase : clientBase baseUrl = address.toList ++ rest := hrest.symm
    have hdrop : (clientBase baseUrl).drop address.length = rest := by
      rw [hbase, ← String.length_toList, List.drop_left]
    rw [show (baseUrl.toList.reverse.dropWhile (· = '/')).reverse = clientBase baseUrl from rfl,
      hdrop] at hafter
    have hnext : rest = [] ∨ rest.head? = some ':' ∨ rest.head? = some '/' := by
      simpa [or_assoc] using hafter
    refine Or.inr ?_
    simp only [List.mem_cons, List.not_mem_nil, or_false] at hmem
    rcases hmem with rfl | rfl | rfl
    · exact ⟨"127.0.0.1".toList, List.mem_cons_self .., rest, hbase, hnext⟩
    · exact ⟨"localhost".toList, List.mem_cons_of_mem _ (List.mem_cons_self ..), rest, hbase,
        hnext⟩
    · exact ⟨"[::1]".toList, List.mem_cons_of_mem _ (List.mem_cons_of_mem _
        (List.mem_cons_self ..)), rest, hbase, hnext⟩

/-- Nothing, or a path. -/
def StartsPath (tail : List Char) : Prop := tail = [] ∨ tail.head? = some '/'

theorem take_while_path {rest tail : List Char} (h : StartsPath tail) :
    (rest ++ tail).takeWhile (fun c => !Uri.endsAuthority c) =
      rest.takeWhile fun c => !Uri.endsAuthority c := by
  have htail : tail.takeWhile (fun c => !Uri.endsAuthority c) = [] := by
    rcases h with hnil | hslash
    · rw [hnil, List.takeWhile_nil]
    · cases tail with
      | nil => rfl
      | cons c tail =>
          rw [List.head?_cons, Option.some.injEq] at hslash
          rw [hslash, List.takeWhile_cons_of_neg]
          decide
  rw [List.takeWhile_append, htail, List.append_nil]
  split_ifs with hlength
  · exact ((List.takeWhile_prefix _).eq_of_length hlength).symm
  · rfl

/-- The authority of an address to this machine starts with its name, and a port or nothing
follows. -/
theorem take_while_after_host {name rest : List Char} (hname : name ∈ localHosts)
    (hrest : rest = [] ∨ rest.head? = some ':' ∨ rest.head? = some '/') :
    ∃ port, (name ++ rest).takeWhile (fun c => !Uri.endsAuthority c) = name ++ port ∧
      Uri.AfterHost port := by
  have hplain : ∀ c ∈ name, (!Uri.endsAuthority c) = true := by
    simp only [localHosts, List.mem_cons, List.not_mem_nil, or_false] at hname
    rcases hname with rfl | rfl | rfl <;> exact List.all_eq_true.mp rfl
  refine ⟨rest.takeWhile fun c => !Uri.endsAuthority c,
    List.takeWhile_append_of_pos hplain, ?_⟩
  cases rest with
  | nil => exact Or.inl rfl
  | cons c rest =>
      rw [List.head?_cons, Option.some.injEq, Option.some.injEq] at hrest
      rcases hrest with hnil | hcolon | hslash
      · cases hnil
      · rw [hcolon]
        exact Or.inr rfl
      · rw [hslash]
        exact Or.inl rfl

/-- Without an at-sign the host is the name in front. With one, it is what stands behind it. -/
theorem host_local_iff {name port : List Char} (hname : name ∈ localHosts)
    (hport : Uri.AfterHost port) :
    Uri.host (name ++ port) ∈ localHosts ↔ '@' ∉ name ++ port ∨ LocalBehindAt (name ++ port) := by
  rcases Uri.at_sign_cases (name ++ port) with hplain | ⟨userinfo, back, heq, hback⟩
  · rw [Uri.host_of_not_mem (is_host_of_mem hname) hport hplain]
    exact iff_of_true hname (Or.inl hplain)
  · have hhost : Uri.host (name ++ port) = Uri.hostFrom false back := by
      rw [Uri.host, heq, Uri.without_userinfo_append hback]
    rw [hhost, ← starts_local_iff]
    constructor
    · intro hlocal
      exact Or.inr ⟨userinfo, back, heq, hback, hlocal⟩
    · intro h
      rcases h with hplain | ⟨userinfo', back', heq', hback', hlocal⟩
      · exact absurd (heq ▸ List.mem_append_right _ (List.mem_cons_self ..)) hplain
      · have hbehind : Uri.withoutUserinfo (name ++ port) = back := by
          rw [heq, Uri.without_userinfo_append hback]
        have hsame : back' = back := by
          rw [← hbehind, heq', Uri.without_userinfo_append hback']
        rw [← hsame]
        exact hlocal

/-- An accepted base with a path behind it is safe to send to exactly when it is undisguised. -/
theorem safe_to_send_iff {baseUrl : String} {tail : List Char} (h : isAllowed baseUrl = true)
    (htail : StartsPath tail) :
    SafeToSend (clientBase baseUrl ++ tail) ↔ Undisguised (clientBase baseUrl ++ tail) := by
  rcases client_base_of_allowed h with ⟨rest, hbase⟩ | ⟨name, hname, rest, hbase, hrest⟩
  · rw [hbase]
    refine iff_of_true (Or.inl ?_) (Or.inl ?_)
    · exact Uri.scheme_append https_is_scheme
    · exact List.isPrefixOf_iff_prefix.mpr ⟨rest ++ tail, rfl⟩
  · obtain ⟨port, hauthority, hport⟩ := take_while_after_host hname hrest
    have hscheme : Uri.scheme (clientBase baseUrl ++ tail) = some "http".toList := by
      rw [hbase]
      exact Uri.scheme_append http_is_scheme
    have hauthority : Uri.authority (clientBase baseUrl ++ tail) = some (name ++ port) := by
      rw [hbase, List.append_assoc, List.cons_append, List.cons_append, List.cons_append,
        Uri.authority_append http_is_scheme, take_while_path htail, hauthority]
    have hhttps : "https://".toList.isPrefixOf (clientBase baseUrl ++ tail) = false := by
      rw [hbase]
      rfl
    rw [SafeToSend, Undisguised, hscheme, hauthority, hhttps]
    simpa using host_local_iff hname hport

theorem starts_path_slashes {slashes : List Char} (h : ∀ c ∈ slashes, c = '/') :
    StartsPath slashes := by
  cases slashes with
  | nil => exact Or.inl rfl
  | cons c slashes =>
      rw [h c (List.mem_cons_self ..)]
      exact Or.inr rfl

/-- A path behind an accepted base changes neither the scheme nor the authority. -/
theorem target_append {baseUrl : String} {tail : List Char} (h : isAllowed baseUrl = true)
    (htail : StartsPath tail) :
    Uri.scheme (clientBase baseUrl ++ tail) = Uri.scheme (clientBase baseUrl) ∧
      Uri.authority (clientBase baseUrl ++ tail) = Uri.authority (clientBase baseUrl) := by
  have hfront : ∃ front rest, Uri.IsScheme front ∧
      clientBase baseUrl = front ++ ':' :: '/' :: '/' :: rest := by
    rcases client_base_of_allowed h with ⟨rest, hbase⟩ | ⟨name, -, rest, hbase, -⟩
    · exact ⟨_, rest, https_is_scheme, hbase⟩
    · exact ⟨_, name ++ rest, http_is_scheme, hbase⟩
  obtain ⟨front, rest, hscheme, hbase⟩ := hfront
  rw [hbase, List.append_assoc, List.cons_append, List.cons_append, List.cons_append,
    Uri.scheme_append hscheme, Uri.scheme_append hscheme, Uri.authority_append hscheme,
    Uri.authority_append hscheme, take_while_path htail]
  exact ⟨rfl, rfl⟩

/-- Every write of an accepted client goes to the scheme and the authority of its address. -/
theorem request_safe_iff {baseUrl path : String} (h : isAllowed baseUrl = true) :
    SafeToSend (requestUrl baseUrl path) ↔ SafeToSend baseUrl.toList := by
  obtain ⟨slashes, heq, hslashes⟩ := client_base_append baseUrl
  obtain ⟨hscheme, hauthority⟩ := target_append h (starts_path_slashes hslashes)
  have hpath : StartsPath ("/api/v1/timing/".toList ++ path.toList) := Or.inr rfl
  obtain ⟨hscheme', hauthority'⟩ := target_append h hpath
  rw [heq, requestUrl, List.append_assoc, SafeToSend, SafeToSend, hscheme, hauthority, hscheme',
    hauthority']

/-- A client that accepts an address sends its token over TLS or to this machine exactly when the
address is undisguised. -/
theorem token_stays_here_iff (baseUrl : String) (h : isAllowed baseUrl = true) :
    SafeToSend baseUrl.toList ↔ Undisguised baseUrl.toList := by
  obtain ⟨slashes, heq, hslashes⟩ := client_base_append baseUrl
  rw [heq]
  exact safe_to_send_iff h (starts_path_slashes hslashes)

/-- An address of this machine with a port and a path. -/
theorem token_stays_here_with_port :
    SafeToSend "http://localhost:5000/base".toList ↔
      Undisguised "http://localhost:5000/base".toList :=
  token_stays_here_iff "http://localhost:5000/base" (by decide)

/-- This machine's name as user information: the address is accepted, and the host is another. -/
theorem user_information_hides_the_host :
    ¬ ∀ baseUrl : String, isAllowed baseUrl = true → SafeToSend baseUrl.toList := by
  intro h
  rcases h "http://localhost:x@attacker.example" (by decide) with hscheme | ⟨-, hlocal⟩
  · exact absurd hscheme (by decide)
  · obtain ⟨authority, hauthority, hhost⟩ := hlocal
    have heq : authority = "localhost:x@attacker.example".toList :=
      (Option.some.inj hauthority).symm
    rw [heq] at hhost
    exact absurd hhost (by decide)

end Splitforge.Raceday
