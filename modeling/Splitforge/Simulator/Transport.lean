import Splitforge.Simulator.Script

/-!
# The way from a simulated reader to the device

A report arrives some milliseconds behind the instant it claims, drawn from a generator of its
own, and the monotonic clock counts from an hour before the first report. A transport with the
default delays loses nothing as long as the instants are no further apart than that clock can
count.
-/

namespace Splitforge.Simulator

open Splitforge.Domain Splitforge.Library Splitforge.Thingmagic

/-- `u64::try_from(value).unwrap_or(0)`. -/
def u64OrZero (value : Int) : UInt64 :=
  if 0 ≤ value ∧ value < 2 ^ 64 then .ofNat value.toNat else 0

/-- `detection_time`: the instant a reader claims it detected a chip, if it claims one. -/
def detectionTime (message : ReaderMessage) : Option OffsetDateTime :=
  match message.timestamp with
  | .utc at' => some at'
  | .uptime _ => none
  | .absent => none

/-- When the device received a message, and what its monotonic clock read, in nanoseconds since a
simulated boot. -/
structure Receipt where
  receivedAt : OffsetDateTime
  monotonicNs : UInt64

/-- The delay between a detection and the report of it. -/
structure Transport where
  latencyMs : Int
  jitterMs : Int
  rng : Rng
  boot : Option OffsetDateTime

/-- `Transport::new`. -/
def Transport.new (seed : UInt64) : Transport := ⟨4, 3, ⟨seed⟩, none⟩

/-- An hour, in nanoseconds. -/
def hour : Int := 3600 * 10 ^ 9

/-- `Transport::receipt`: when a message arrives. Instants out of range panic. -/
def Transport.receipt (transport : Transport) (sentAt : OffsetDateTime) :
    Option (Receipt × Transport) := do
  -- computed for every message, and kept from the first
  let hourBefore ← plus sentAt ⟨-hour⟩
  let boot := transport.boot.getD hourBefore
  let (jitter, rng) := transport.rng.range (-transport.jitterMs) transport.jitterMs
  let delay := transport.latencyMs + jitter
  let receivedAt ← plus sentAt (.milliseconds (max delay 0))
  let monotonicNs := u64OrZero (receivedAt - boot).nanos
  pure (⟨receivedAt, monotonicNs⟩, { transport with rng, boot := some boot })

/-! ## The default delays -/

/-- A transport with the default delays. -/
structure Transport.Default (transport : Transport) : Prop where
  latencyMs : transport.latencyMs = 4
  jitterMs : transport.jitterMs = 3

/-- The longest of the default delays, in nanoseconds. -/
def slowest : Int := 7 * 10 ^ 6

/-- An instant with room for the hour before it and the delay behind it. -/
def Roomy (at' : OffsetDateTime) : Prop :=
  minNanos ≤ at'.nanos - hour ∧ at'.nanos + slowest ≤ maxNanos

/-- The monotonic clock that counts from a boot can count to the receipt of a message. -/
def Counts (boot : Int) (at' : OffsetDateTime) : Prop := at'.nanos + slowest - boot ≤ i64Max

theorem u64_or_zero_le {value : Int} (h : value ≤ i64Max) :
    ((u64OrZero value).toNat : Int) ≤ i64Max := by
  simp only [i64Max] at h ⊢
  rw [u64OrZero]
  split_ifs with hfits
  · rw [UInt64.toNat_ofNat_of_lt' (by show value.toNat < 2 ^ 64; omega)]
    omega
  · simp

/-- An instant and a span later, in nanoseconds, where that is an instant. -/
theorem plus_eq {at' : OffsetDateTime} {span : Int} (hlower : minNanos ≤ at'.nanos + span)
    (hupper : at'.nanos + span ≤ maxNanos) :
    plus at' ⟨span⟩ = some ⟨at'.nanos + span, hlower, hupper⟩ :=
  dif_pos ⟨hlower, hupper⟩

/-- A message with room around its instant is received within the longest delay, and counted from
the boot. -/
theorem receipt_of_roomy {transport : Transport} (h : transport.Default) {sentAt : OffsetDateTime}
    (hroomy : Roomy sentAt) (hboot : ∀ boot ∈ transport.boot, Counts boot.nanos sentAt) :
    ∃ receipt transport' boot, transport.receipt sentAt = some (receipt, transport') ∧
      transport'.Default ∧ transport'.boot = some boot ∧
      (boot ∈ transport.boot ∨ boot.nanos = sentAt.nanos - hour) ∧
      sentAt.nanos ≤ receipt.receivedAt.nanos ∧
      receipt.receivedAt.nanos ≤ sentAt.nanos + slowest ∧
      (receipt.monotonicNs.toNat : Int) ≤ i64Max := by
  obtain ⟨hbefore, hbehind⟩ := hroomy
  have hlower := sentAt.lower
  have hupper := sentAt.upper
  have hjitter := @range_bounds transport.rng (-3) 3 (by simp [i64Min]) (by simp [i64Max])
  rw [Transport.receipt, h.latencyMs, h.jitterMs]
  generalize transport.rng.range (-3) 3 = drawn at hjitter ⊢
  obtain ⟨jitter, rng⟩ := drawn
  dsimp only at hjitter ⊢
  simp only [hour, slowest] at hbefore hbehind ⊢
  have hearlier := @plus_eq sentAt (-(3600 * 10 ^ 9)) (by omega) (by omega)
  have hlater := @plus_eq sentAt (max (4 + jitter) 0 * 1000000) (by omega) (by omega)
  have hcount : ∀ boot ∈ transport.boot, boot.nanos + i64Max ≥ sentAt.nanos + 7000000 := by
    intro boot hmem
    have hcounts := hboot boot hmem
    simp only [Counts, slowest] at hcounts
    omega
  rw [Duration.milliseconds, hearlier, hlater]
  cases hbooted : transport.boot with
  | none =>
      refine ⟨_, _, _, rfl, ⟨rfl, rfl⟩, rfl, Or.inr rfl, ?_, ?_, u64_or_zero_le ?_⟩
      · dsimp only
        omega
      · dsimp only
        omega
      · rw [OffsetDateTime.sub_nanos, Option.getD_none]
        simp only [i64Max]
        omega
  | some boot =>
      have hcounts := hcount boot hbooted
      refine ⟨_, _, _, rfl, ⟨rfl, rfl⟩, rfl, Or.inl rfl, ?_, ?_, u64_or_zero_le ?_⟩
      · dsimp only
        omega
      · dsimp only
        omega
      · rw [OffsetDateTime.sub_nanos, Option.getD_some]
        dsimp only
        omega

end Splitforge.Simulator
