import BoothFloor.Proofs.Checked.Arithmetic
import BoothFloor.Rules
import Mathlib.Algebra.GroupWithZero.Nat
import Mathlib.Tactic.SplitIfs

/-!
# What rules that can be played by promise

The faults of rules, read the other way round and as natural numbers: every bound on which the
nodes of a floor rely.
-/

namespace BoothFloor

namespace Rules

/-- The bounds within which rules without a fault lie. -/
structure Bounds (r : Rules) : Prop where
  hosts_pos : 0 < r.hosts.first.toNat
  hosts_ordered : r.hosts.first.toNat ≤ r.hosts.last.toNat
  hosts_lt : r.hosts.last.toNat < 255
  capacity_pos : 0 < r.boothCapacity.toNat
  maxUsers_le : r.maxUsers.toNat ≤ 255
  capacity_le : r.boothCapacity.toNat ≤ r.maxUsers.toNat
  selectionDwell_pos : 0 < r.selectionDwell.ms.toNat
  connectTimeout_pos : 0 < r.connectTimeout.ms.toNat
  registerTimeout_pos : 0 < r.registerTimeout.ms.toNat
  sessionDuration_pos : 0 < r.sessionDuration.ms.toNat
  queueReadyTimeout_pos : 0 < r.queueReadyTimeout.ms.toNat
  scanInterval_pos : 0 < r.scanInterval.toNat
  sweepInterval_pos : 0 < r.sweepInterval.toNat
  broadcastInterval_pos : 0 < r.broadcastInterval.toNat
  frameDepth_pos : 0 < r.frameDepth.toNat
  intentDepth_pos : 0 < r.intentDepth.toNat

/-- A word other than zero is positive as a number. -/
theorem toNat_pos_of_ne_zero {w : UInt64} (h : w ≠ 0) : 0 < w.toNat :=
  Nat.pos_of_ne_zero fun hzero => h (UInt64.toNat_inj.mp hzero)

/-- A span other than zero is positive as a number. -/
theorem ms_pos_of_ne_zero {d : Span} (h : d ≠ .zero) : 0 < d.ms.toNat :=
  toNat_pos_of_ne_zero fun hzero => h (congrArg Span.mk hzero)

/-- Rules without a fault lie within the bounds. -/
theorem Valid.bounds {r : Rules} (h : r.Valid) : r.Bounds := by
  unfold Valid fault? at h
  split_ifs at h with hrange hlast hcapacity hwide hfew hspan hinterval hdepth htemplate
  simp only [not_or] at hrange hwide hspan hinterval hdepth
  have hfirst : 0 < r.hosts.first.toNat :=
    Nat.pos_of_ne_zero fun hzero => hrange.1 (UInt8.toNat_inj.mp hzero)
  have hordered : r.hosts.first.toNat ≤ r.hosts.last.toNat := UInt8.not_lt.mp hrange.2
  have hlast : r.hosts.last.toNat ≠ 255 := fun heq => hlast (UInt8.toNat_inj.mp heq)
  have hlt := r.hosts.last.toNat_lt
  have hmax : r.maxUsers.toNat ≤ 255 := UInt64.not_lt.mp hwide.2
  have hcap : r.boothCapacity.toNat ≤ r.maxUsers.toNat := UInt64.not_lt.mp hfew
  exact {
    hosts_pos := hfirst
    hosts_ordered := hordered
    hosts_lt := by omega
    capacity_pos := toNat_pos_of_ne_zero hcapacity
    maxUsers_le := hmax
    capacity_le := hcap
    selectionDwell_pos := ms_pos_of_ne_zero hspan.1
    connectTimeout_pos := ms_pos_of_ne_zero hspan.2.1
    registerTimeout_pos := ms_pos_of_ne_zero hspan.2.2.1
    sessionDuration_pos := ms_pos_of_ne_zero hspan.2.2.2.1
    queueReadyTimeout_pos := ms_pos_of_ne_zero hspan.2.2.2.2
    scanInterval_pos := toNat_pos_of_ne_zero hinterval.1
    sweepInterval_pos := toNat_pos_of_ne_zero hinterval.2.1
    broadcastInterval_pos := toNat_pos_of_ne_zero hinterval.2.2
    frameDepth_pos := toNat_pos_of_ne_zero hdepth.1
    intentDepth_pos := toNat_pos_of_ne_zero hdepth.2 }

/-- The time after which a visitor leaves by itself is the sum of its parts, or a fault where the word does not hold
the sum. -/
theorem clientLimit_eq (r : Rules) :
    r.clientLimit =
      if r.sessionDuration.ms.toNat + r.sessionGrace.ms.toNat < 2 ^ 64 then
        .ok ⟨.ofNat (r.sessionDuration.ms.toNat + r.sessionGrace.ms.toNat)⟩
      else .error .overflow := by
  unfold clientLimit
  split
  · next fits =>
    rw [Checked.add_of_lt fits]
    rfl
  · next wide =>
    rw [Checked.add_of_le (Nat.not_lt.mp wide)]
    rfl

/-- The time after which a visitor leaves by itself is the sum of its parts as natural numbers. -/
theorem clientLimit_eq_ok_iff {r : Rules} {limit : Span} :
    r.clientLimit = .ok limit ↔ limit.ms.toNat = r.sessionDuration.ms.toNat + r.sessionGrace.ms.toNat := by
  rw [clientLimit_eq]
  constructor
  · intro holds
    split_ifs at holds with fits
    injection holds with holds
    rw [← holds, UInt64.toNat_ofNat_of_lt' fits]
  · intro hsum
    rw [if_pos (hsum ▸ limit.ms.toNat_lt), ← hsum, UInt64.ofNat_toNat]

/-- There is no time after which a visitor leaves by itself exactly if the word does not hold the sum. -/
theorem clientLimit_eq_error_iff {r : Rules} :
    r.clientLimit = .error .overflow ↔ 2 ^ 64 ≤ r.sessionDuration.ms.toNat + r.sessionGrace.ms.toNat := by
  rw [clientLimit_eq]
  split_ifs with fits
  · exact ⟨nofun, fun wide => absurd fits (Nat.not_lt.mpr wide)⟩
  · exact ⟨fun _ => Nat.not_lt.mp fits, fun _ => rfl⟩

/-- A session has lasted for the time after which a visitor leaves by itself exactly if the clock has moved on by as
much. -/
theorem clientLimit_le_since_iff {r : Rules} {limit : Span} (holds : r.clientLimit = .ok limit)
    (now start : Instant) :
    limit ≤ now.since start ↔
      r.sessionDuration.ms.toNat + r.sessionGrace.ms.toNat ≤ now.ms.toNat - start.ms.toNat := by
  rw [← clientLimit_eq_ok_iff.mp holds, ← Instant.toNat_since]
  exact UInt64.le_iff_toNat_le

/-- The time after which a visitor leaves by itself is not zero. -/
theorem clientLimit_pos {r : Rules} {limit : Span} (valid : r.Valid) (holds : r.clientLimit = .ok limit) :
    0 < limit.ms.toNat := by
  have hpos := valid.bounds.sessionDuration_pos
  rw [clientLimit_eq_ok_iff.mp holds]
  omega

end Rules

end BoothFloor
