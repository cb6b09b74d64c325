import Splitforge.Library.Fallible
import Splitforge.Simulator.Scenario
import Mathlib.Data.List.Chain

/-!
# What a script holds

Whatever the seed, a crossing's burst is as many reads as the profile allows, each no further than
the reach of the profile from the crossing's instant, in order, no two neighbours further apart
than the longest spacing, and none weaker than the profile's edges. So the part of a script that
belongs to crossings far enough apart is their bursts, one after another.
-/

namespace Splitforge.Simulator

open Splitforge.Domain Splitforge.Library Splitforge.Thingmagic

variable {scenario : Scenario} {profile : BurstProfile} {crossing : Crossing} {rng : Rng}

/-! ## What is drawn -/

/-- A value is drawn from its range, and an inverted range gives its low end. -/
theorem range_bounds (rng : Rng) {low high : Int} (hlow : i64Min ≤ low) (hhigh : high ≤ i64Max) :
    low ≤ (rng.range low high).1 ∧ (rng.range low high).1 ≤ max low high := by
  rw [Rng.range]
  cases hspan : (checkedSub high low).filter (0 < ·) with
  | none => exact ⟨le_refl _, le_max_left _ _⟩
  | some span =>
      obtain ⟨hchecked, hpositive⟩ := Option.filter_eq_some_iff.mp hspan
      rw [checkedSub] at hchecked
      split_ifs at hchecked with hfits
      injection hchecked with hchecked
      subst hchecked
      have hpositive : 0 < high - low := of_decide_eq_true hpositive
      simp only [i64Min, i64Max] at hlow hhigh hfits
      have hdrawn : rng.nextU64.1.toNat % min ((high - low).toNat + 1) (2 ^ 64 - 1) <
          min ((high - low).toNat + 1) (2 ^ 64 - 1) := Nat.mod_lt _ (by omega)
      dsimp only
      generalize rng.nextU64.1.toNat % min ((high - low).toNat + 1) (2 ^ 64 - 1) = drawn
        at hdrawn ⊢
      simp only [saturatingAdd, i64Min, i64Max]
      split_ifs <;> omega

/-- The most reads a burst can have. -/
def BurstProfile.mostReads (profile : BurstProfile) : Nat :=
  max (max profile.minReads.toNat 1) (max profile.maxReads.toNat 1)

/-- The longest spacing of two neighbours, in milliseconds. -/
def BurstProfile.longestMs (profile : BurstProfile) : Int :=
  max profile.minSpacingMs.toInt profile.maxSpacingMs.toInt

/-- How far from its crossing a read can be, in milliseconds. -/
def BurstProfile.reachMs (profile : BurstProfile) : Int :=
  ((profile.mostReads / 2 : Nat) : Int) * profile.longestMs

/-- The weakest read there can be. -/
def BurstProfile.weakest (profile : BurstProfile) : Int :=
  profile.peakRssiDbm.toInt - max profile.rssiSpreadDb.toInt 0 - max profile.rssiJitterDb.toInt 0

/-- The strongest read there can be. -/
def BurstProfile.strongest (profile : BurstProfile) : Int :=
  profile.peakRssiDbm.toInt - min profile.rssiSpreadDb.toInt 0 +
    magnitude profile.rssiJitterDb.toInt

/-- A burst has at least one read, and no more than the most. -/
theorem count_bounds (profile : BurstProfile) (rng : Rng) :
    1 ≤ (profile.count rng).1 ∧ (profile.count rng).1 ≤ profile.mostReads := by
  have hmin := profile.minReads.toNat_lt
  have hmax := profile.maxReads.toNat_lt
  have hbounds := @range_bounds rng (max profile.minReads.toNat 1) (max profile.maxReads.toNat 1)
    (by simp only [i64Min]; omega) (by simp only [i64Max]; omega)
  rw [BurstProfile.count, BurstProfile.mostReads]
  dsimp only at hbounds ⊢
  omega

/-- A spacing is drawn from the profile's spacings. -/
theorem spacing_bounds (profile : BurstProfile) (rng : Rng) :
    profile.minSpacingMs.toInt ≤
        (rng.range profile.minSpacingMs.toInt profile.maxSpacingMs.toInt).1 ∧
      (rng.range profile.minSpacingMs.toInt profile.maxSpacingMs.toInt).1 ≤ profile.longestMs :=
  range_bounds rng profile.minSpacingMs.le_toInt
    (Int.le_of_lt_add_one profile.maxSpacingMs.toInt_lt)

/-! ## Offsets -/

/-- Two neighbours are in order, and no further apart than a step. -/
def Steps (step : Int) (first second : Int) : Prop := first ≤ second ∧ second ≤ first + step

/-- What follows a number in steps is no further behind it than so many steps. -/
theorem steps_behind {step first : Int} {rest : List Int} (hstep : 0 ≤ step)
    (h : (first :: rest).IsChain (Steps step)) {other : Int} (hother : other ∈ rest) :
    first ≤ other ∧ other ≤ first + rest.length * step := by
  induction rest generalizing first with
  | nil => cases hother
  | cons next rest ih =>
      obtain ⟨hnext, hrest⟩ := List.isChain_cons_cons.mp h
      have hlength : 0 ≤ (rest.length : Int) * step := Int.mul_nonneg (by omega) hstep
      rw [List.length_cons, Nat.cast_succ, Int.add_mul, Int.one_mul]
      rcases List.mem_cons.mp hother with rfl | hother
      · exact ⟨hnext.1, by have := hnext.2; omega⟩
      · obtain ⟨hlower, hupper⟩ := ih hrest hother
        exact ⟨le_trans hnext.1 hlower, by have := hnext.2; omega⟩

/-- What is in front of a number in steps is no further before it than so many steps. -/
theorem steps_ahead {step last : Int} {front : List Int} (hstep : 0 ≤ step)
    (h : (front ++ [last]).IsChain (Steps step)) {other : Int} (hother : other ∈ front) :
    other ≤ last ∧ last ≤ other + front.length * step := by
  obtain ⟨before, behind, rfl⟩ := List.append_of_mem hother
  rw [List.append_assoc, List.cons_append, List.isChain_split] at h
  have hlast : last ∈ behind ++ [last] := by simp
  obtain ⟨hlower, hupper⟩ := steps_behind hstep h.2 hlast
  refine ⟨hlower, le_trans hupper ?_⟩
  have hlength : (behind ++ [last]).length ≤ (before ++ other :: behind).length := by
    simp
  have hmul : ((behind ++ [last]).length : Int) * step ≤
      ((before ++ other :: behind).length : Int) * step :=
    Int.mul_le_mul_of_nonneg_right (by omega) hstep
  omega

/-- The offsets are so many, begin where they are told to, and go in steps of a spacing. -/
theorem offsets_steps (hspacing : 0 ≤ profile.minSpacingMs.toInt) (count : Nat) {elapsed : Int}
    (hfits : 0 ≤ elapsed ∧ elapsed + count * profile.longestMs ≤ i64Max) (rng : Rng) :
    (profile.offsetsMs count elapsed rng).1.length = count ∧
      (∀ first ∈ (profile.offsetsMs count elapsed rng).1.head?, first = elapsed) ∧
      (profile.offsetsMs count elapsed rng).1.IsChain (Steps profile.longestMs) := by
  induction count generalizing elapsed rng with
  | zero =>
      refine ⟨rfl, ?_, List.IsChain.nil⟩
      intro first hfirst
      cases hfirst
  | succ count ih =>
      obtain ⟨hlower, hupper⟩ := spacing_bounds profile rng
      obtain ⟨helapsed, hmost⟩ := hfits
      have hcount : 0 ≤ (count : Int) * profile.longestMs :=
        Int.mul_nonneg (by omega) (by omega)
      rw [Nat.cast_succ, Int.add_mul, Int.one_mul] at hmost
      -- the sum does not saturate
      have hnext : saturatingAdd elapsed
          (rng.range profile.minSpacingMs.toInt profile.maxSpacingMs.toInt).1 =
            elapsed + (rng.range profile.minSpacingMs.toInt profile.maxSpacingMs.toInt).1 := by
        simp only [saturatingAdd, i64Min, i64Max] at hmost ⊢
        omega
      obtain ⟨hlength, hhead, hchain⟩ := @ih (elapsed +
        (rng.range profile.minSpacingMs.toInt profile.maxSpacingMs.toInt).1)
        ⟨by omega, by omega⟩ (rng.range profile.minSpacingMs.toInt profile.maxSpacingMs.toInt).2
      rw [BurstProfile.offsetsMs]
      dsimp only
      rw [hnext]
      refine ⟨by rw [List.length_cons, hlength], fun first hfirst => ?_,
        List.isChain_cons.mpr ⟨fun second hsecond => ?_, hchain⟩⟩
      · cases hfirst
        rfl
      · rw [hhead second hsecond]
        exact ⟨by omega, by omega⟩

/-! ## Reads -/

/-- A part of a whole, divided by the whole, is no further from zero than the factor. -/
theorem tdiv_bounds {factor part whole : Int} (hpart : 0 ≤ part ∧ part ≤ whole)
    (hwhole : 1 ≤ whole) :
    min factor 0 ≤ (factor * part).tdiv whole ∧ (factor * part).tdiv whole ≤ max factor 0 := by
  have hnonneg : ∀ size : Int, 0 ≤ size →
      0 ≤ (size * part).tdiv whole ∧ (size * part).tdiv whole ≤ size := by
    intro size hsize
    have hproduct : 0 ≤ size * part := Int.mul_nonneg hsize hpart.1
    rw [Int.tdiv_eq_ediv_of_nonneg hproduct]
    refine ⟨Int.ediv_nonneg hproduct (by omega), Int.ediv_le_of_le_mul (by omega) ?_⟩
    exact Int.mul_le_mul_of_nonneg_left hpart.2 hsize
  rcases le_total 0 factor with hfactor | hfactor
  · obtain ⟨hlower, hupper⟩ := hnonneg factor hfactor
    omega
  · obtain ⟨hlower, hupper⟩ := hnonneg (-factor) (by omega)
    rw [Int.neg_mul, Int.neg_tdiv] at hlower hupper
    omega

/-- A strength is no weaker than the profile can give, where none leaves `i16`. -/
theorem weakest_le_rssi {span position jitter : Int} (hspan : 1 ≤ span)
    (hposition : 0 ≤ position ∧ position ≤ span)
    (hjitter : -profile.rssiJitterDb.toInt ≤ jitter ∧
      jitter ≤ max (-profile.rssiJitterDb.toInt) profile.rssiJitterDb.toInt)
    (hfits : -32768 ≤ profile.weakest ∧ profile.strongest ≤ 32767) :
    profile.weakest ≤ (profile.rssi span position jitter).toInt := by
  have hcentre : 0 ≤ magnitude (2 * position - span) ∧
      magnitude (2 * position - span) ≤ span := by
    unfold magnitude
    omega
  obtain ⟨hlower, hupper⟩ := @tdiv_bounds profile.rssiSpreadDb.toInt _ _ hcentre hspan
  unfold BurstProfile.weakest BurstProfile.strongest at hfits
  unfold BurstProfile.weakest BurstProfile.rssi
  unfold magnitude at *
  dsimp only
  rw [if_pos (by omega), Int16.toInt_ofInt_of_le (by omega) (by omega)]
  omega

/-- A read of a crossing: it is the reader's, with the crossing's chip and antenna, and is no
weaker than the profile can give. -/
structure ReadOf (scenario : Scenario) (crossing : Crossing) (read : ScriptedRead) : Prop where
  source : read.message.source = scenario.reader
  antenna : read.message.antenna = crossing.antenna
  chip : read.message.chip = crossing.chip
  timestamp : read.message.timestamp = .utc read.at
  rssi : -32768 ≤ scenario.profile.weakest ∧ scenario.profile.strongest ≤ 32767 →
    ∃ rssiDbm ∈ read.message.rssiDbm, scenario.profile.weakest ≤ rssiDbm.toInt

/-- The reads at some offsets are there when their instants are, and stand at them. -/
theorem reads_at_offsets {span centre position : Int} (hspan : 1 ≤ span) {offsets : List Int}
    (hposition : 0 ≤ position ∧ position + offsets.length ≤ span + 1)
    (hfits : ∀ offset ∈ offsets, minNanos ≤ crossing.at.nanos + (offset - centre) * 1000000 ∧
      crossing.at.nanos + (offset - centre) * 1000000 ≤ maxNanos) (rng : Rng) :
    ∃ reads rng', scenario.reads crossing span centre position offsets rng = some (reads, rng') ∧
      reads.map (·.at.nanos) = offsets.map
        (fun offset => crossing.at.nanos + (offset - centre) * 1000000) ∧
      ∀ read ∈ reads, ReadOf scenario crossing read := by
  induction offsets generalizing position rng with
  | nil => exact ⟨[], rng, rfl, rfl, fun _ hread => (by cases hread)⟩
  | cons offset offsets ih =>
      rw [List.length_cons, Nat.cast_succ] at hposition
      obtain ⟨reads, rng', hreads, htimes, hall⟩ := @ih (position + 1) ⟨by omega, by omega⟩
        (fun other hother => hfits other (List.mem_cons_of_mem _ hother))
        (rng.range (-scenario.profile.rssiJitterDb.toInt) scenario.profile.rssiJitterDb.toInt).2
      have hat := hfits offset List.mem_cons_self
      have hplus : plus crossing.at (.milliseconds (offset - centre)) =
          some ⟨crossing.at.nanos + (offset - centre) * 1000000, hat.1, hat.2⟩ := dif_pos hat
      have hleast := scenario.profile.rssiJitterDb.le_toInt
      have hgreatest := scenario.profile.rssiJitterDb.toInt_lt
      have hjitter := @range_bounds rng (-scenario.profile.rssiJitterDb.toInt)
        scenario.profile.rssiJitterDb.toInt (by simp only [i64Min]; omega)
        (by simp only [i64Max]; omega)
      refine ⟨scenario.read crossing (scenario.profile.rssi span position
        (rng.range (-scenario.profile.rssiJitterDb.toInt) scenario.profile.rssiJitterDb.toInt).1)
        ⟨_, hat.1, hat.2⟩ :: reads, rng', ?_, ?_, ?_⟩
      · simp only [Scenario.reads, hplus, hreads]
        rfl
      · rw [List.map_cons, List.map_cons, htimes]
        rfl
      · intro read hread
        rcases List.mem_cons.mp hread with rfl | hread
        · refine ⟨rfl, rfl, rfl, rfl, fun hwithin => ⟨_, rfl, ?_⟩⟩
          exact weakest_le_rssi hspan ⟨hposition.1, by omega⟩ hjitter hwithin
        · exact hall read hread

/-! ## Bursts -/

/-- What a scenario must be for its script to be what it plans: spacings that do not go back, and
crossings whose reads all have an instant. -/
structure InRange (scenario : Scenario) : Prop where
  spacing : 0 ≤ scenario.profile.minSpacingMs.toInt
  instants : ∀ crossing ∈ scenario.crossings,
    minNanos ≤ crossing.at.nanos - scenario.profile.reachMs * 1000000 ∧
      crossing.at.nanos + scenario.profile.reachMs * 1000000 ≤ maxNanos

/-- The burst of a crossing: reads of it, around its instant, in steps of a spacing. -/
structure BurstOf (scenario : Scenario) (crossing : Crossing) (burst : List ScriptedRead) :
    Prop where
  nonempty : burst ≠ []
  length : burst.length ≤ scenario.profile.mostReads
  reads : ∀ read ∈ burst, ReadOf scenario crossing read
  near : ∀ read ∈ burst, ∃ offset : Int, -scenario.profile.reachMs ≤ offset ∧
    offset ≤ scenario.profile.reachMs ∧ read.at.nanos = crossing.at.nanos + offset * 1000000
  steps : burst.IsChain fun first second => ∃ gap : Int, 0 ≤ gap ∧
    gap ≤ scenario.profile.longestMs ∧ second.at.nanos = first.at.nanos + gap * 1000000

/-- The offsets of a burst around its middle are within reach. -/
theorem offsets_near {offsets : List Int} (hstep : 0 ≤ profile.longestMs)
    (hlength : 1 ≤ offsets.length ∧ offsets.length ≤ profile.mostReads)
    (h : offsets.IsChain (Steps profile.longestMs)) :
    ∀ offset ∈ offsets,
      -profile.reachMs ≤ offset - (offsets[(offsets.length - 1) / 2]?).getD 0 ∧
        offset - (offsets[(offsets.length - 1) / 2]?).getD 0 ≤ profile.reachMs := by
  have hmiddle : (offsets.length - 1) / 2 < offsets.length := by omega
  have hsplit : offsets = offsets.take ((offsets.length - 1) / 2) ++
      offsets[(offsets.length - 1) / 2] :: offsets.drop ((offsets.length - 1) / 2 + 1) := by
    rw [← List.drop_eq_getElem_cons hmiddle, List.take_append_drop]
  rw [List.getElem?_eq_getElem hmiddle, Option.getD_some]
  have hfront : (offsets.take ((offsets.length - 1) / 2)).length ≤ profile.mostReads / 2 := by
    rw [List.length_take]
    omega
  have hback : (offsets.drop ((offsets.length - 1) / 2 + 1)).length ≤ profile.mostReads / 2 := by
    rw [List.length_drop]
    omega
  generalize offsets[(offsets.length - 1) / 2] = centre at hsplit ⊢
  generalize offsets.take ((offsets.length - 1) / 2) = front at hsplit hfront
  generalize offsets.drop ((offsets.length - 1) / 2 + 1) = back at hsplit hback
  subst hsplit
  have hscale : ∀ count : Nat, count ≤ profile.mostReads / 2 →
      (count : Int) * profile.longestMs ≤ profile.reachMs := by
    intro count hcount
    exact Int.mul_le_mul_of_nonneg_right (by omega) hstep
  have hreach := hscale 0 (Nat.zero_le _)
  rw [Nat.cast_zero, Int.zero_mul] at hreach
  obtain ⟨hahead, hbehind⟩ := List.isChain_split.mp h
  intro offset hoffset
  rcases List.mem_append.mp hoffset with hoffset | hoffset
  · obtain ⟨hlower, hupper⟩ := steps_ahead hstep hahead hoffset
    have hbound := hscale _ hfront
    omega
  · rcases List.mem_cons.mp hoffset with rfl | hoffset
    · omega
    · obtain ⟨hlower, hupper⟩ := steps_behind hstep hbehind hoffset
      have hbound := hscale _ hback
      omega

/-- The offsets of a burst do not saturate when its reads have an instant. -/
theorem offsets_fit (h : InRange scenario) (hcrossing : crossing ∈ scenario.crossings) {count : Nat}
    (hcount : count ≤ scenario.profile.mostReads) :
    count * scenario.profile.longestMs ≤ i64Max := by
  obtain ⟨hlower, hupper⟩ := h.instants crossing hcrossing
  have hspacing := h.spacing
  have hlongest : 0 ≤ scenario.profile.longestMs := by
    rw [BurstProfile.longestMs]
    omega
  have hlongest' : scenario.profile.longestMs ≤ i64Max := by
    have hmin := scenario.profile.minSpacingMs.toInt_lt
    have hmax := scenario.profile.maxSpacingMs.toInt_lt
    rw [BurstProfile.longestMs]
    simp only [i64Max]
    omega
  have hscale : (count : Int) * scenario.profile.longestMs ≤
      (2 * (scenario.profile.mostReads / 2) + 1 : Nat) * scenario.profile.longestMs :=
    Int.mul_le_mul_of_nonneg_right (by omega) hlongest
  rw [Nat.cast_succ, Nat.cast_mul, Int.add_mul, Int.one_mul, Int.mul_assoc] at hscale
  change _ ≤ ((2 : Nat) : Int) * scenario.profile.reachMs + _ at hscale
  simp only [minNanos, maxNanos] at hlower hupper
  simp only [i64Max] at hlongest' ⊢
  -- a burst of more than one read has a spacing no longer than its reach
  rcases Nat.eq_zero_or_pos (scenario.profile.mostReads / 2) with hone | hmany
  · rw [BurstProfile.reachMs, hone, Nat.cast_zero, Int.zero_mul] at hscale
    omega
  · have hreach : 1 * scenario.profile.longestMs ≤ scenario.profile.reachMs :=
      Int.mul_le_mul_of_nonneg_right (by omega) hlongest
    omega

/-- Every crossing of a scenario in range has its burst, whatever the generator's state. -/
theorem burst_of_crossing (h : InRange scenario) (hcrossing : crossing ∈ scenario.crossings)
    (rng : Rng) :
    ∃ burst rng', scenario.burst crossing rng = some (burst, rng') ∧
      BurstOf scenario crossing burst := by
  have hlongest : 0 ≤ scenario.profile.longestMs := by
    have hspacing := h.spacing
    rw [BurstProfile.longestMs]
    omega
  obtain ⟨hpositive, hmost⟩ := count_bounds scenario.profile rng
  rw [Scenario.burst]
  generalize scenario.profile.count rng = counted at hpositive hmost
  obtain ⟨count, rng⟩ := counted
  obtain ⟨hlength, _, hchain⟩ := offsets_steps h.spacing count
    ⟨le_refl 0, by rw [Int.zero_add]; exact offsets_fit h hcrossing hmost⟩ rng
  dsimp only
  generalize scenario.profile.offsetsMs count 0 rng = drawn at hlength hchain
  obtain ⟨offsets, rng⟩ := drawn
  dsimp only at hlength hchain ⊢
  subst hlength
  have hnear := offsets_near hlongest ⟨hpositive, hmost⟩ hchain
  obtain ⟨hlower, hupper⟩ := h.instants crossing hcrossing
  generalize (offsets[(offsets.length - 1) / 2]?).getD 0 = centre at hnear
  obtain ⟨reads, rng', hreads, htimes, hall⟩ := @reads_at_offsets scenario crossing
    (max (offsets.length - 1 : Nat) 1) centre 0 (by omega) offsets ⟨le_refl 0, by omega⟩
    (fun offset hoffset => by have hwithin := hnear offset hoffset; omega) rng
  have hcount := congrArg List.length htimes
  rw [List.length_map, List.length_map] at hcount
  refine ⟨reads, rng', hreads, ?_, hcount ▸ hmost, hall, fun read hread => ?_, ?_⟩
  · rintro rfl
    rw [← hcount] at hpositive
    cases hpositive
  · have hmem : read.at.nanos ∈ reads.map (·.at.nanos) := List.mem_map_of_mem hread
    rw [htimes] at hmem
    obtain ⟨offset, hoffset, heq⟩ := List.mem_map.mp hmem
    obtain ⟨hleast, hgreatest⟩ := hnear offset hoffset
    exact ⟨offset - centre, hleast, hgreatest, heq.symm⟩
  · -- the instants go in the steps of the offsets
    have htimed : (offsets.map fun offset =>
        crossing.at.nanos + (offset - centre) * 1000000).IsChain fun first second =>
          ∃ gap : Int, 0 ≤ gap ∧ gap ≤ scenario.profile.longestMs ∧
            second = first + gap * 1000000 := by
      refine (List.isChain_map _).mpr (hchain.imp fun first second hsteps => ?_)
      exact ⟨second - first, by have := hsteps.1; omega, by have := hsteps.2; omega, by omega⟩
    rw [← htimes] at htimed
    exact (List.isChain_map _).mp htimed

/-- The bursts of the crossings, in the order they are expanded in. -/
theorem bursts_of_crossings (h : InRange scenario) {crossings : List Crossing}
    (hcrossings : ∀ crossing ∈ crossings, crossing ∈ scenario.crossings) (rng : Rng) :
    ∃ bursts, scenario.bursts crossings rng = some bursts ∧
      List.Forall₂ (BurstOf scenario) crossings bursts := by
  induction crossings generalizing rng with
  | nil => exact ⟨[], rfl, .nil⟩
  | cons crossing crossings ih =>
      obtain ⟨burst, rng', hburst, hof⟩ :=
        burst_of_crossing h (hcrossings crossing List.mem_cons_self) rng
      obtain ⟨bursts, hbursts, hall⟩ :=
        ih (fun other hother => hcrossings other (List.mem_cons_of_mem _ hother)) rng'
      refine ⟨burst :: bursts, ?_, .cons hof hall⟩
      rw [Scenario.bursts, hburst]
      show (scenario.bursts crossings rng').bind _ = _
      rw [hbursts]
      rfl

/-- The bursts have no more reads than the profile allows each crossing. -/
theorem length_flatten_bursts {crossings : List Crossing} {bursts : List (List ScriptedRead)}
    (h : List.Forall₂ (BurstOf scenario) crossings bursts) :
    bursts.flatten.length ≤ crossings.length * scenario.profile.mostReads := by
  induction h with
  | nil => exact Nat.zero_le _
  | cons hburst _ ih =>
      have hlength := hburst.length
      rw [List.flatten_cons, List.length_append, List.length_cons, Nat.succ_mul]
      omega

/-! ## Scripts -/

/-- The crossings of some chips at some antennas, in the order they are expanded in. -/
def Scenario.planned (scenario : Scenario) (wants : ChipId → Option UInt16 → Bool) :
    List Crossing :=
  scenario.ordered.filter fun crossing => wants crossing.chip crossing.antenna

/-- Two crossings are more than a gap apart, which is in nanoseconds. -/
def GapOver (gap : Int) (first second : Crossing) : Prop :=
  gap < second.at.nanos - first.at.nanos ∨ gap < first.at.nanos - second.at.nanos

/-- What is kept of the bursts for some chips at some antennas is the bursts of their crossings. -/
theorem filter_flatten_bursts (wants : ChipId → Option UInt16 → Bool) {crossings : List Crossing}
    {bursts : List (List ScriptedRead)} (h : List.Forall₂ (BurstOf scenario) crossings bursts) :
    ∃ kept, List.Forall₂ (BurstOf scenario)
        (crossings.filter fun crossing => wants crossing.chip crossing.antenna) kept ∧
      bursts.flatten.filter (fun read => wants read.message.chip read.message.antenna) =
        kept.flatten := by
  induction h with
  | nil => exact ⟨[], .nil, rfl⟩
  | @cons crossing burst crossings bursts hburst _ ih =>
      obtain ⟨kept, hkept, heq⟩ := ih
      have hwants : ∀ read ∈ burst, wants read.message.chip read.message.antenna =
          wants crossing.chip crossing.antenna := by
        intro read hread
        rw [(hburst.reads read hread).chip, (hburst.reads read hread).antenna]
      rw [List.flatten_cons, List.filter_append, heq]
      cases hcrossing : wants crossing.chip crossing.antenna with
      | true =>
          refine ⟨burst :: kept, ?_, ?_⟩
          · simp only [List.filter_cons, hcrossing, if_true]
            exact .cons hburst hkept
          · rw [List.flatten_cons, List.filter_eq_self.mpr fun read hread =>
              (hwants read hread).trans hcrossing]
      | false =>
          refine ⟨kept, ?_, ?_⟩
          · simp only [List.filter_cons, hcrossing, Bool.false_eq_true, if_false]
            exact hkept
          · rw [List.filter_eq_nil_iff.mpr fun read hread => by
              rw [hwants read hread, hcrossing]; exact Bool.false_ne_true, List.nil_append]

/-- Crossings that are a gap apart follow one another by more than the gap. -/
theorem planned_apart {wants : ChipId → Option UInt16 → Bool} {gap : Int} (hgap : 0 ≤ gap)
    (h : (scenario.crossings.filter fun crossing =>
      wants crossing.chip crossing.antenna).Pairwise (GapOver gap)) :
    (scenario.planned wants).Pairwise fun first second =>
      gap < second.at.nanos - first.at.nanos := by
  have hperm : (scenario.planned wants).Perm
      (scenario.crossings.filter fun crossing => wants crossing.chip crossing.antenna) :=
    (sort_by_key_perm _ _).filter _
  have hover : (scenario.planned wants).Pairwise (GapOver gap) :=
    (hperm.pairwise_iff fun {_ _} hover => hover.symm).mpr h
  have hsorted : (scenario.planned wants).Pairwise fun first second => first.key ≤ second.key :=
    (sorted_sort_by_key Crossing.key scenario.crossings).filter _
  refine (hsorted.and hover).imp fun {first second} hboth => ?_
  have hle : first.at ≤ second.at := by
    rcases Prod.Lex.toLex_le_toLex.mp hboth.1 with hlt | heq
    · exact hlt.le
    · exact heq.1.le
  rw [OffsetDateTime.le_iff] at hle
  rcases hboth.2 with hlater | hearlier
  · exact hlater
  · omega

/-- The reads of a burst are in order. -/
theorem BurstOf.sorted {burst : List ScriptedRead} (h : BurstOf scenario crossing burst) :
    burst.Pairwise fun first second => first.at.nanos ≤ second.at.nanos := by
  have htrans : IsTrans ScriptedRead fun first second => first.at.nanos ≤ second.at.nanos :=
    ⟨fun _ _ _ => le_trans⟩
  refine List.isChain_iff_pairwise.mp (h.steps.imp fun first second hgap => ?_)
  obtain ⟨gap, hpositive, _, heq⟩ := hgap
  omega

/-- Reads of different bursts are apart by what their crossings are apart beyond twice the
reach. -/
theorem bursts_apart {gap : Int} {crossings : List Crossing} {bursts : List (List ScriptedRead)}
    (h : List.Forall₂ (BurstOf scenario) crossings bursts)
    (hapart : crossings.Pairwise fun first second =>
      gap + 2 * scenario.profile.reachMs * 1000000 < second.at.nanos - first.at.nanos) :
    bursts.Pairwise fun burst later => ∀ first ∈ burst, ∀ second ∈ later,
      gap < second.at.nanos - first.at.nanos := by
  induction h with
  | nil => exact .nil
  | @cons crossing burst crossings bursts hburst hbursts ih =>
      obtain ⟨hfirst, hrest⟩ := List.pairwise_cons.mp hapart
      refine List.pairwise_cons.mpr ⟨fun later hlater first hread second hother => ?_, ih hrest⟩
      obtain ⟨crossing', hcrossing, hof⟩ := exists_of_mem_beside hbursts hlater
      obtain ⟨offset, _, hupper, heq⟩ := hburst.near first hread
      obtain ⟨offset', hlower, _, heq'⟩ := hof.near second hother
      have hgap := hfirst crossing' hcrossing
      omega

/-- The bursts of one chip's crossings, further apart than twice the reach, are in order. -/
theorem flatten_sorted {chip : ChipId} {crossings : List Crossing}
    {bursts : List (List ScriptedRead)} (h : List.Forall₂ (BurstOf scenario) crossings bursts)
    (hchip : ∀ crossing ∈ crossings, crossing.chip = chip)
    (hapart : crossings.Pairwise fun first second =>
      2 * scenario.profile.reachMs * 1000000 < second.at.nanos - first.at.nanos) :
    bursts.flatten.Pairwise fun first second => first.key ≤ second.key := by
  have hchips : ∀ read ∈ bursts.flatten, read.message.chip = chip := by
    intro read hread
    obtain ⟨burst, hburst, hread⟩ := List.mem_flatten.mp hread
    obtain ⟨crossing, hcrossing, hof⟩ := exists_of_mem_beside h hburst
    rw [(hof.reads read hread).chip]
    exact hchip crossing hcrossing
  have htimes : bursts.flatten.Pairwise fun first second => first.at.nanos ≤ second.at.nanos := by
    refine List.pairwise_flatten.mpr ⟨fun burst hburst => ?_, ?_⟩
    · obtain ⟨crossing, _, hof⟩ := exists_of_mem_beside h hburst
      exact hof.sorted
    · refine (@bursts_apart scenario 0 _ _ h (hapart.imp fun hgap => by omega)).imp ?_
      intro burst later hgap first hfirst second hsecond
      have hlt := hgap first hfirst second hsecond
      omega
  refine htimes.imp_of_mem fun {first second} hfirst hsecond hle => ?_
  refine Prod.Lex.toLex_le_toLex.mpr ?_
  rcases lt_or_eq_of_le hle with hlt | heq
  · exact Or.inl hlt
  · refine Or.inr ⟨OffsetDateTime.ext heq, ?_⟩
    show first.message.chip ≤ second.message.chip
    rw [hchips first hfirst, hchips second hsecond]

/-- A scenario in range has a script of reads around its crossings, and where one chip's crossings
at some antennas are further apart than twice the reach, what the script holds of them is their
bursts, one after another. -/
theorem script_planned (h : InRange scenario) :
    ∃ script, scenario.script = some script ∧
      script.length ≤ scenario.crossings.length * scenario.profile.mostReads ∧
      (∀ read ∈ script, ∃ crossing ∈ scenario.crossings, ReadOf scenario crossing read ∧
        ∃ offset : Int, -scenario.profile.reachMs ≤ offset ∧
          offset ≤ scenario.profile.reachMs ∧
          read.at.nanos = crossing.at.nanos + offset * 1000000) ∧
      (script.Pairwise fun first second => first.at ≤ second.at) ∧
      ∀ (chip : ChipId) (wants : ChipId → Option UInt16 → Bool),
        (∀ chip' antenna, wants chip' antenna = true → chip' = chip) →
        ((scenario.planned wants).Pairwise fun first second =>
          2 * scenario.profile.reachMs * 1000000 < second.at.nanos - first.at.nanos) →
        ∃ bursts, List.Forall₂ (BurstOf scenario) (scenario.planned wants) bursts ∧
          script.filter (fun read => wants read.message.chip read.message.antenna) =
            bursts.flatten := by
  have hordered : ∀ crossing ∈ scenario.ordered, crossing ∈ scenario.crossings :=
    fun crossing hcrossing => mem_sort_by_key.mp hcrossing
  obtain ⟨bursts, hbursts, hall⟩ := bursts_of_crossings h hordered ⟨scenario.seed⟩
  refine ⟨sortByKey ScriptedRead.key bursts.flatten, by rw [Scenario.script, hbursts]; rfl, ?_, ?_,
    ?_, ?_⟩
  · rw [(sort_by_key_perm _ _).length_eq, ← (sort_by_key_perm Crossing.key _).length_eq]
    exact length_flatten_bursts hall
  · intro read hread
    obtain ⟨burst, hburst, hread⟩ := List.mem_flatten.mp (mem_sort_by_key.mp hread)
    obtain ⟨crossing, hcrossing, hof⟩ := exists_of_mem_beside hall hburst
    exact ⟨crossing, hordered crossing hcrossing, hof.reads read hread, hof.near read hread⟩
  · refine (sorted_sort_by_key _ _).imp fun {first second} hle => ?_
    rcases Prod.Lex.toLex_le_toLex.mp hle with hlt | heq
    · exact hlt.le
    · exact heq.1.le
  · intro chip wants hwants hapart
    obtain ⟨kept, hkept, heq⟩ := filter_flatten_bursts wants hall
    refine ⟨kept, hkept, ?_⟩
    rw [sort_by_key_filter, heq]
    have hchip : ∀ crossing ∈ scenario.planned wants, crossing.chip = chip := by
      intro crossing hcrossing
      exact hwants _ _ (List.mem_filter.mp hcrossing).2
    exact (flatten_sorted hkept hchip hapart).insertionSort_eq

end Splitforge.Simulator
