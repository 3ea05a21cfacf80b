/-!
# Instants, spans and a settable clock

Instants and spans count whole milliseconds in 64-bit words. Adding a span stops at the largest
instant and the time elapsed since a later instant is zero, so a comparison of deadlines never
wraps; only the clock itself, when it is advanced, runs modulo the word.
-/

namespace BoothFloor

/-- A point in time: milliseconds since the clock's origin. -/
structure Instant where
  ms : UInt64
  deriving DecidableEq, Repr, Inhabited

/-- A length of time in whole milliseconds. -/
structure Span where
  ms : UInt64
  deriving DecidableEq, Repr, Inhabited

namespace Span

instance : LE Span := ⟨fun a b => a.ms ≤ b.ms⟩
instance : LT Span := ⟨fun a b => a.ms < b.ms⟩
instance (a b : Span) : Decidable (a ≤ b) := inferInstanceAs (Decidable (a.ms ≤ b.ms))
instance (a b : Span) : Decidable (a < b) := inferInstanceAs (Decidable (a.ms < b.ms))

theorem not_le {a b : Span} : ¬ a ≤ b ↔ b < a := UInt64.not_le

theorem not_lt {a b : Span} : ¬ a < b ↔ b ≤ a := UInt64.not_lt

/-- The zero span, which no timer may have. -/
def zero : Span := ⟨0⟩

end Span

namespace Instant

instance : LE Instant := ⟨fun a b => a.ms ≤ b.ms⟩
instance : LT Instant := ⟨fun a b => a.ms < b.ms⟩
instance (a b : Instant) : Decidable (a ≤ b) := inferInstanceAs (Decidable (a.ms ≤ b.ms))
instance (a b : Instant) : Decidable (a < b) := inferInstanceAs (Decidable (a.ms < b.ms))

/-- The clock's origin. -/
def zero : Instant := ⟨0⟩

/-- The instant `d` after `t`, or the largest instant if that lies beyond it. -/
def after (t : Instant) (d : Span) : Instant :=
  ⟨UInt64.ofNat (min (t.ms.toNat + d.ms.toNat) (UInt64.size - 1))⟩

/-- The time elapsed at `now` since `start`, zero if `start` lies ahead. -/
def since (now start : Instant) : Span :=
  ⟨UInt64.ofNat (now.ms.toNat - start.ms.toNat)⟩

theorem toNat_after (t : Instant) (d : Span) :
    (t.after d).ms.toNat = min (t.ms.toNat + d.ms.toNat) (UInt64.size - 1) :=
  UInt64.toNat_ofNat_of_lt' (by simp only [UInt64.size]; omega)

theorem toNat_since (now start : Instant) :
    (now.since start).ms.toNat = now.ms.toNat - start.ms.toNat :=
  UInt64.toNat_ofNat_of_lt' (by have := now.ms.toNat_lt; simp only [UInt64.size]; omega)

/-- At the instant at which something begins no more than any span of it has passed. -/
theorem since_self_le (now : Instant) (span : Span) : now.since now ≤ span := by
  refine UInt64.le_iff_toNat_le.mpr ?_
  rw [toNat_since, Nat.sub_self]
  exact Nat.zero_le _

end Instant

/-- A length of time to the nanosecond, as it is handed to a clock from outside. -/
structure Duration where
  nanos : Nat
  deriving DecidableEq, Repr, Inhabited

namespace Duration

def ofParts (secs nanos : Nat) : Duration := ⟨secs * 1000000000 + nanos⟩

def ofMicros (micros : Nat) : Duration := ⟨micros * 1000⟩

def ofMillis (millis : Nat) : Duration := ⟨millis * 1000000⟩

/-- The whole milliseconds in it. -/
def wholeMillis (d : Duration) : Nat := d.nanos / 1000000

/-- Its whole milliseconds modulo the word, which is all that a clock keeps of it. -/
def toSpan (d : Duration) : Span := ⟨UInt64.ofNat d.wholeMillis⟩

end Duration

/-- A clock that moves only when it is told to. -/
structure Clock where
  now : Instant
  deriving DecidableEq, Repr, Inhabited

namespace Clock

/-- Move on by the whole milliseconds of `d`, modulo the word. -/
def advance (c : Clock) (d : Duration) : Clock := ⟨⟨c.now.ms + d.toSpan.ms⟩⟩

def set (_ : Clock) (t : Instant) : Clock := ⟨t⟩

end Clock

end BoothFloor
