import Mathlib
import Splitforge.Library.Words
import Splitforge.Raceday.Batches
import Splitforge.Raceday.Splits

/-!
# Keys

Whatever a mat is called, its key is a few words of small letters and digits with single hyphens
between them, and keeping to that changes no key. A course document tells the mats of a distance
apart by their keys, and the distances by theirs, and what is published names only those.
-/

namespace Splitforge.Raceday

open Std (ExtTreeMap)
open Splitforge.Domain Splitforge.Library

/-! ## What a key is -/

/-- A small letter or a digit, of ASCII. -/
def IsKeyLetter (c : Char) : Prop :=
  c.isLower ∨ c.isDigit

/-- Up to 40 characters: words of small letters and digits, with a hyphen between two of them. -/
structure IsKey (key : String) : Prop where
  named : 1 ≤ key.length
  short : key.length ≤ maxKeyLen
  words : ∃ words, AreWords IsKeyLetter words ∧ key.toList = ['-'].intercalate words

theorem not_key_letter_hyphen : ¬ IsKeyLetter '-' := by
  unfold IsKeyLetter
  decide

theorem not_upper_of_digit {c : Char} (h : c.isDigit = true) : ¬ c.isUpper = true := by
  simp only [Char.isDigit, Char.isUpper, Bool.and_eq_true, decide_eq_true_eq,
    UInt32.le_iff_toNat_le, ge_iff_le] at h ⊢
  have hnine : '9'.val.toNat = 57 := rfl
  have hletter : 'A'.val.toNat = 65 := rfl
  omega

/-- The letters and digits of ASCII are those of keys, in lower case. -/
theorem key_letter_to_lower {c : Char} (h : c.isAlphanum = true) : IsKeyLetter c.toLower := by
  rw [Char.isAlphanum, Bool.or_eq_true] at h
  unfold IsKeyLetter
  rcases h with hletter | hdigit
  · exact .inl (c.isLower_toLower_eq_isAlpha.trans hletter)
  · have hsame := c.toLower_eq_of_not_isUpper (not_upper_of_digit hdigit)
    rw [hsame]
    exact .inr hdigit

/-- The letters and digits of keys stay what they are. -/
theorem alphanum_of_key_letter {c : Char} (h : IsKeyLetter c) :
    c.isAlphanum = true ∧ c.toLower = c := by
  rw [Char.isAlphanum, Char.isAlpha]
  rcases h with hlower | hdigit
  · rw [hlower, Bool.or_true, Bool.true_or]
    exact ⟨rfl, c.toLower_eq_of_not_isUpper (c.not_isUpper_of_isLower hlower)⟩
  · rw [hdigit, Bool.or_true]
    exact ⟨rfl, c.toLower_eq_of_not_isUpper (not_upper_of_digit hdigit)⟩

/-! ## The key of a mat -/

theorem spaced_push_key {key : List Char} (h : Spaced IsKeyLetter '-' key) (c : Char) :
    Spaced IsKeyLetter '-' (pushKey key c) := by
  unfold pushKey
  split_ifs with halphanum hbehind
  · have hletter := key_letter_to_lower halphanum
    refine h.push (.inl hletter) fun heq => absurd ?_ not_key_letter_hyphen
    rwa [← heq]
  · exact h.push (.inr rfl) fun _ => hbehind
  · exact h

/-- Whatever the name, no two hyphens stand next to each other and none stands first. -/
theorem spaced_foldl_push_key (name : List Char) {key : List Char}
    (h : Spaced IsKeyLetter '-' key) : Spaced IsKeyLetter '-' (name.foldl pushKey key) := by
  induction name generalizing key with
  | nil => exact h
  | cons c name ih => exact ih (spaced_push_key h c)

theorem trim_hyphens_front (key : List Char) : trimHyphens key <+: key :=
  List.rdropWhile_prefix _ key

/-- What is trimmed does not end with a hyphen. -/
theorem ends_trim_hyphens (key : List Char) : (trimHyphens key).getLast? ≠ some '-' := by
  intro hlast
  have hne : key.rdropWhile (· = '-') ≠ [] := by
    intro hnil
    rw [show trimHyphens key = [] from hnil] at hlast
    cases hlast
  have hends := List.rdropWhile_last_not _ key hne
  rw [show trimHyphens key = key.rdropWhile (· = '-') from rfl,
    List.getLast?_eq_some_getLast hne] at hlast
  exact hends (decide_eq_true (Option.some.inj hlast))

/-- What does not end with a hyphen is not trimmed. -/
theorem trim_hyphens_eq_self {key : List Char} (h : key.getLast? ≠ some '-') :
    trimHyphens key = key := by
  refine List.rdropWhile_eq_self_iff.mpr fun hne hlast => h ?_
  rw [List.getLast?_eq_some_getLast hne, of_decide_eq_true hlast]

/-- Every name has a key. -/
theorem is_key_point_key (name : String) : IsKey (pointKey name) := by
  unfold pointKey
  dsimp only
  generalize hkey : trimHyphens ((trimHyphens (name.toList.foldl pushKey [])).take maxKeyLen) = key
  have hspaced : Spaced IsKeyLetter '-' key := by
    rw [← hkey]
    have hnamed := spaced_foldl_push_key name.toList spaced_nil
    have htrimmed := hnamed.of_prefix (trim_hyphens_front _)
    have hcut := htrimmed.of_prefix (List.take_prefix maxKeyLen _)
    exact hcut.of_prefix (trim_hyphens_front _)
  have hshort : key.length ≤ maxKeyLen := by
    rw [← hkey]
    exact (trim_hyphens_front _).length_le.trans (List.length_take_le _ _)
  have hends : key.getLast? ≠ some '-' := by
    rw [← hkey]
    exact ends_trim_hyphens _
  split_ifs with hnil
  · -- nothing is left of the name
    refine ⟨by decide, by decide, [['p', 'o', 'i', 'n', 't']], ⟨List.cons_ne_nil _ _, ?_⟩, rfl⟩
    intro word hword
    rw [List.mem_singleton.mp hword]
    exact ⟨List.cons_ne_nil _ _, fun c hc => .inl (List.all_eq_true.mp rfl c hc)⟩
  · refine ⟨?_, ?_, ?_⟩
    · rw [String.length_ofList]
      exact List.length_pos_iff.mpr hnil
    · rwa [String.length_ofList]
    · rw [String.toList_ofList]
      exact hspaced.exists_words hnil hends

example : pointKey "Brücke Ost / 2 " = "br-cke-ost-2" := by decide +kernel

/-- A key is written as it is. -/
theorem foldl_push_key {key text : List Char} (h : Spaced IsKeyLetter '-' (key ++ text)) :
    text.foldl pushKey key = key ++ text := by
  induction text generalizing key with
  | nil => rw [List.foldl_nil, List.append_nil]
  | cons c text ih =>
      have hpushed : pushKey key c = key ++ [c] := by
        unfold pushKey
        rcases h.items c (by simp) with hletter | rfl
        · obtain ⟨halphanum, hsame⟩ := alphanum_of_key_letter hletter
          rw [if_pos halphanum, hsame]
        · rw [if_neg (by decide), if_pos h.before_separator]
      rw [List.append_cons] at h ⊢
      rw [List.foldl_cons, hpushed, ih h]

/-- A key is its own key. -/
theorem point_key_eq_self {key : String} (h : IsKey key) : pointKey key = key := by
  obtain ⟨words, hwords, htext⟩ := h.words
  obtain ⟨hspaced, last, hlast, hletter⟩ := hwords.spaced not_key_letter_hyphen
  rw [← htext] at hspaced hlast
  have hends : key.toList.getLast? ≠ some '-' := by
    intro hhyphen
    rw [Option.mem_def, hhyphen] at hlast
    cases hlast
    exact not_key_letter_hyphen hletter
  have hwritten : key.toList.foldl pushKey [] = key.toList := foldl_push_key hspaced
  have hlength : key.toList.length ≤ maxKeyLen := by
    rw [String.length_toList]
    exact h.short
  unfold pointKey
  dsimp only
  rw [hwritten, trim_hyphens_eq_self hends, List.take_of_length_le hlength,
    trim_hyphens_eq_self hends, if_neg, String.ofList_toList]
  intro hnil
  have hnamed := h.named
  rw [← String.length_toList, hnil] at hnamed
  cases hnamed

/-! ## The keys of a distance -/

/-- There is no white space around a text. -/
structure Unpadded (text : String) : Prop where
  starts : ∀ c ∈ text.toList.head?, isWhitespace c = false
  ends : ∀ c ∈ text.toList.getLast?, isWhitespace c = false

/-- There is none around what trimming leaves as it is. -/
theorem unpadded_of_trim {text : String} (h : trim text = text) : Unpadded text := by
  suffices hboth : (∀ c ∈ text.toList.head?, isWhitespace c = false) ∧
      ∀ c ∈ text.toList.getLast?, isWhitespace c = false from ⟨hboth.1, hboth.2⟩
  have hlist := congrArg String.toList h
  rw [trim, String.toList_ofList] at hlist
  generalize text.toList = list at hlist ⊢
  have htail : (list.dropWhile isWhitespace).rdropWhile isWhitespace = list := hlist
  -- nothing is dropped in front, or less would be left
  have hfront : list.dropWhile isWhitespace = list := by
    refine (List.dropWhile_suffix _).eq_of_length_le ?_
    have hkept := List.rdropWhile_prefix isWhitespace (list.dropWhile isWhitespace)
    rw [htail] at hkept
    exact hkept.length_le
  rw [hfront] at htail
  constructor
  · intro c hc
    cases list with
    | nil => cases hc
    | cons first rest =>
        cases hc
        have hnot := List.dropWhile_eq_self_iff.mp hfront (Nat.zero_lt_succ _)
        exact Bool.eq_false_iff.mpr hnot
  · intro c hc
    have hne : list ≠ [] := by
      intro hnil
      rw [hnil] at hc
      cases hc
    have hnot := List.rdropWhile_eq_self_iff.mp htail hne
    rw [List.getLast?_eq_some_getLast hne] at hc
    cases hc
    exact Bool.eq_false_iff.mpr hnot

variable {Metres : Type} [Meters Metres]

/-- A place on a lap. -/
structure OnLap (lap meters : Metres) : Prop where
  finite : Meters.isFinite meters = true
  ahead : Meters.le Meters.zero meters = true
  within : Meters.le meters lap = true

section Points

variable {race : RaceId} {course : Course Metres} {lap : Metres}
variable {checkpoints : List Checkpoint} {keys : ExtTreeMap String Checkpoint}
variable {placed : ExtTreeMap CheckpointId (Placed Metres)}

/-- A split sits within the lap. -/
theorem PlacedFor.on_lap {checkpoint : Checkpoint} {mat : Placed Metres}
    (h : PlacedFor race course lap checkpoint mat) (hkind : checkpoint.kind = .split) :
    OnLap lap mat.point.meters := by
  have hposition := h.meters
  unfold position at hposition
  rw [hkind] at hposition
  dsimp only at hposition
  split at hposition
  · cases hposition
  · split_ifs at hposition with hwithin
    rw [← Except.ok.inj hposition]
    rw [Bool.and_eq_true, Bool.and_eq_true] at hwithin
    exact ⟨hwithin.1.1, hwithin.1.2, hwithin.2⟩

/-- Every mat is published, and nothing else. -/
theorem mem_in_course_order {point : TimingPoint Metres} :
    point ∈ inCourseOrder placed ↔
      ∃ (id : CheckpointId) (mat : Placed Metres), placed[id]? = some mat ∧ mat.point = point := by
  unfold inCourseOrder
  rw [List.mem_map]
  constructor
  · intro ⟨mat, hmat, hpoint⟩
    obtain ⟨entry, hentry, rfl⟩ := List.mem_map.mp (mem_sort_by_key.mp hmat)
    exact ⟨entry.1, entry.2, mem_to_list.mp hentry, hpoint⟩
  · intro ⟨id, mat, hmat, hpoint⟩
    exact ⟨mat, mem_sort_by_key.mpr (List.mem_map.mpr ⟨(id, mat), mem_to_list.mpr hmat, rfl⟩),
      hpoint⟩

/-- The mats of a race are published under different keys. -/
theorem PlacedAll.nodup_keys (h : PlacedAll race course lap checkpoints (keys, placed)) :
    ((inCourseOrder placed).map (·.key)).Nodup := by
  unfold inCourseOrder
  rw [List.map_map]
  refine (((sort_by_key_perm _ _).map _).nodup_iff).mpr ?_
  rw [List.map_map]
  refine List.Nodup.map_on ?_ (nodup_keys_to_list placed).of_map
  intro entry hentry other hother hkey
  obtain ⟨checkpoint, hmem, hid, hfor⟩ := h.found (mem_to_list.mp hentry)
  obtain ⟨checkpoint', hmem', hid', hfor'⟩ := h.found (mem_to_list.mp hother)
  -- the checkpoints of the two have one key
  have hsame : checkpoint = checkpoint' := by
    refine h.key_injective hmem hmem' ?_
    rw [← hfor.key, ← hfor'.key]
    exact hkey
  subst hsame
  have hget := mem_to_list.mp hentry
  rw [← hid, hid', mem_to_list.mp hother] at hget
  exact Prod.ext (hid.symm.trans hid') (Option.some.inj hget).symm

end Points

/-- A crossing names a distance, and a mat that was published for it. -/
structure Names (distance : Distance Metres) (crossing : Crossing) : Prop where
  own : crossing.distanceKey = distance.key
  mat : ∃ point ∈ distance.timingPoints, crossing.pointKey = point.key

/-- How the keys of a distance serve the race it is published for. -/
structure WellKeyed (race : RaceConfig × Course Metres) (distance : Distance Metres) : Prop where
  own : distance.key = race.2.key
  named : 1 ≤ distance.key.length
  short : distance.key.length ≤ maxKeyLen
  unpadded : Unpadded distance.key
  nodup : (distance.timingPoints.map (·.key)).Nodup
  keys : ∀ point ∈ distance.timingPoints, IsKey point.key
  splits : ∀ checkpoint ∈ race.1.checkpoints, checkpoint.kind = .split →
    ∃ point ∈ distance.timingPoints, point.key = pointKey checkpoint.name ∧
      OnLap (oneLap race.1 race.2) point.meters
  crossings : ∀ events, ∃ published, crossings race.1 race.2 events = .ok published ∧
    EveryItem (fun _ crossing => Names distance crossing) published.runners

/-- The mats of a race, in the order of the course, serve it under the key of the course. -/
theorem well_keyed_of_points {config : RaceConfig} {course : Course Metres}
    {placed : ExtTreeMap CheckpointId (Placed Metres)} (hpoints : points config course = .ok placed)
    {distance : Distance Metres} (hkey : distance.key = course.key)
    (hmats : distance.timingPoints = inCourseOrder placed) : WellKeyed (config, course) distance := by
  obtain ⟨haccepted, _⟩ := accepted_of_points hpoints
  obtain ⟨keys, hplaced⟩ := placed_all hpoints
  constructor
  · exact hkey
  · rw [hkey]
    exact Nat.one_le_iff_ne_zero.mpr haccepted.named
  · rw [hkey]
    exact haccepted.short
  · rw [hkey]
    exact unpadded_of_trim haccepted.trimmed
  · rw [hmats]
    exact hplaced.nodup_keys
  · intro point hpoint
    rw [hmats] at hpoint
    obtain ⟨id, mat, hmat, rfl⟩ := mem_in_course_order.mp hpoint
    obtain ⟨checkpoint, _, _, hfor⟩ := hplaced.found hmat
    rw [hfor.key]
    exact is_key_point_key _
  · intro checkpoint hmem hkind
    obtain ⟨mat, hmat, hfor⟩ := hplaced.each checkpoint hmem
    rw [hmats]
    exact ⟨mat.point, mem_in_course_order.mpr ⟨_, mat, hmat, rfl⟩, hfor.key, hfor.on_lap hkind⟩
  · intro events
    have hok : ∃ published, Raceday.crossings config course events = .ok published := by
      unfold Raceday.crossings
      rw [hpoints]
      exact ⟨_, rfl⟩
    obtain ⟨published, hpublished⟩ := hok
    refine ⟨published, hpublished, every_crossing hpoints hpublished ?_⟩
    intro id mat crossing hmat hdistance hpoint
    refine ⟨hdistance.trans hkey.symm, mat.point, ?_, hpoint⟩
    rw [hmats]
    exact mem_in_course_order.mpr ⟨id, mat, hmat, rfl⟩

/-- A distance is added under a key of its own. -/
theorem add_distance_ok {state state' : List String × List (Distance Metres)}
    {race : RaceConfig × Course Metres} (h : addDistance state race = .ok state') :
    race.2.key ∉ state.1 ∧ ∃ distance, WellKeyed race distance ∧
      state' = (state.1 ++ [race.2.key], state.2 ++ [distance]) := by
  obtain ⟨config, course⟩ := race
  unfold addDistance at h
  dsimp only at h
  split_ifs at h with hkey
  obtain ⟨placed, hpoints, h⟩ := exists_of_bind h
  cases h
  exact ⟨hkey, _, well_keyed_of_points hpoints rfl rfl, rfl⟩

/-- Distances are added one after the other, each under a key that none of them has. -/
theorem foldl_add_distance {races : List (RaceConfig × Course Metres)}
    {state state' : List String × List (Distance Metres)} (hnodup : state.1.Nodup)
    (h : races.foldlM addDistance state = .ok state') :
    (state.1 ++ races.map (·.2.key)).Nodup ∧
      ∃ more, List.Forall₂ WellKeyed races more ∧ state'.2 = state.2 ++ more := by
  induction races generalizing state with
  | nil =>
      cases h
      rw [List.map_nil, List.append_nil]
      exact ⟨hnodup, [], .nil, (List.append_nil _).symm⟩
  | cons race races ih =>
      rw [List.foldlM_cons] at h
      obtain ⟨next, hadd, h⟩ := exists_of_bind h
      obtain ⟨hnew, distance, hkeyed, rfl⟩ := add_distance_ok hadd
      have hnext : (state.1 ++ [race.2.key]).Nodup :=
        List.nodup_append.mpr ⟨hnodup, List.nodup_singleton _, fun key hkey other hother =>
          List.mem_singleton.mp hother ▸ fun heq => hnew (heq ▸ hkey)⟩
      obtain ⟨hall, more, hmore, hends⟩ := ih hnext h
      rw [List.append_assoc] at hall hends
      exact ⟨hall, distance :: more, .cons hkeyed hmore, hends⟩

theorem WellKeyed.keys_eq {races : List (RaceConfig × Course Metres)}
    {distances : List (Distance Metres)} (h : List.Forall₂ WellKeyed races distances) :
    distances.map (·.key) = races.map (·.2.key) := by
  induction h with
  | nil => rfl
  | cons hkeyed _ ih => rw [List.map_cons, List.map_cons, hkeyed.own, ih]

/-- The distances of a course document have different keys, and each serves its race. -/
theorem well_keyed_of_manifest {races : List (RaceConfig × Course Metres)}
    {document : Manifest Metres} (h : manifest races = .ok document) :
    List.Forall₂ WellKeyed races document.distances ∧ (document.distances.map (·.key)).Nodup := by
  obtain ⟨state, hfold, h⟩ := exists_of_bind h
  cases h
  obtain ⟨hnodup, more, hmore, hends⟩ := foldl_add_distance List.nodup_nil hfold
  rw [List.nil_append] at hends
  rw [← hends] at hmore
  refine ⟨hmore, ?_⟩
  rw [WellKeyed.keys_eq hmore]
  exact hnodup

/-- A name's key is a key, a key is its own key, and in a course document keys tell distances and
their mats apart, splits sit on the lap, and crossings name what is in the document. -/
theorem published_keys (Metres : Type) [Meters Metres] :
    (∀ name, IsKey (pointKey name) ∧ pointKey (pointKey name) = pointKey name) ∧
      (∀ key, IsKey key → pointKey key = key) ∧
      ∀ (races : List (RaceConfig × Course Metres)) (document : Manifest Metres),
        manifest races = .ok document →
          List.Forall₂ WellKeyed races document.distances ∧
            (document.distances.map (·.key)).Nodup := by
  refine ⟨fun name => ?_, fun key => point_key_eq_self, fun races document => ?_⟩
  · have hkey := is_key_point_key name
    exact ⟨hkey, point_key_eq_self hkey⟩
  · exact well_keyed_of_manifest

/-- The sample's race is published under keys of that kind, with its bridge on the lap. -/
theorem published_keys_sample : ∃ document : Manifest Int,
    manifest [(sampleConfig .split .start, sampleCourse)] = .ok document ∧
      List.Forall₂ WellKeyed [(sampleConfig .split .start, sampleCourse)] document.distances := by
  have hbuilt : (manifest [(sampleConfig .split .start, sampleCourse)]).toOption.isSome = true := by
    decide +kernel
  cases hmanifest : manifest [(sampleConfig .split .start, sampleCourse)] with
  | error error =>
      rw [hmanifest] at hbuilt
      cases hbuilt
  | ok document => exact ⟨document, rfl, ((published_keys Int).2.2 _ _ hmanifest).1⟩

end Splitforge.Raceday
