import BoothFloor.Proofs.Node.Setup
import BoothFloor.Proofs.NodeId
import BoothFloor.Proofs.Rules
import BoothFloor.Settings

/-!
# What usable settings promise

Settings are looked at once, before any node is set up, and only the greatest id is held against the ports. That is
enough: every id of the link can be set up, has a port of its own, and no node is ever told to send to an id that the
link does not have.
-/

namespace BoothFloor

/-- Whether an id is one of the link's. -/
def LinkSettings.Covers (l : LinkSettings) (id : NodeId) : Prop := 1 ≤ id.toNat ∧ id.toNat ≤ l.maxNodeId.toNat

namespace Settings

variable {s : Settings} {id : NodeId}

/-- The bounds within which usable settings lie. -/
structure Bounds (s : Settings) : Prop where
  rules : s.rules.Valid
  maxNodeId_lt : s.link.maxNodeId.toNat < 255
  hosts_le : s.rules.hosts.last.toNat ≤ s.link.maxNodeId.toNat
  ports : s.link.basePort.toNat + s.link.maxNodeId.toNat < 65536

/-- No id of the link is reserved. -/
theorem Bounds.free (h : s.Bounds) (hid : s.link.Covers id) : id.isReserved = false := by
  obtain ⟨hfirst, hlast⟩ := hid
  have hmax := h.maxNodeId_lt
  refine Bool.or_eq_false_iff.mpr ⟨beq_eq_false_iff_ne.mpr ?_, beq_eq_false_iff_ne.mpr ?_⟩
  · intro hzero
    have hbyte : id.toNat = 0 := congrArg UInt8.toNat hzero
    omega
  · rintro rfl
    have hbyte : NodeId.broadcast.toNat = 255 := rfl
    omega

/-- Every id of the link has its port. -/
theorem Bounds.port (h : s.Bounds) (hid : s.link.Covers id) :
    s.link.port? id = some (s.link.basePort.toNat + id.toNat) := by
  have hports := h.ports
  have hlast := hid.2
  unfold LinkSettings.port?
  dsimp only
  rw [if_pos (by omega)]

end Settings

end BoothFloor
