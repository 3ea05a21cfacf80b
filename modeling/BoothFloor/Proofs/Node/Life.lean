import BoothFloor.Proofs.Mailbox
import BoothFloor.Proofs.Node.Setup
import BoothFloor.Proofs.Node.Step

/-!
# The life of a node

From outside four things can happen to a node: it is handed a frame, an intent or a confirmation, or it
takes a step. Its life is a row of such happenings, in any order and at any readings of the clock.
-/

namespace BoothFloor

/-- What can happen to a node. -/
inductive Happening where
  | deliver (f : Frame)
  | submit (i : Intent)
  | confirm
  /-- A step at a reading of the clock; the link takes its `i`th message iff `takes i`. -/
  | step (now : Instant) (takes : Nat → Bool)

/-- A machine keeps its role for a whole run. -/
theorem Machine.run_role (s : Machine) (events : List (Moment × Input)) : (s.run events).1.role = s.role := by
  cases s with
  | host h => rw [run_host]; rfl
  | visitor v => rw [run_visitor]; rfl

namespace Node

/-- The node after one happening. -/
def undergo (n : Node) : Happening → Node
  | .deliver f => n.deliver f
  | .submit i => n.submit i
  | .confirm => n.confirm
  | .step now takes => (n.step now takes).1

/-- The node after some happenings. -/
def live (n : Node) (past : List Happening) : Node := past.foldl undergo n

/-- What every happening keeps, a life keeps. -/
theorem live_keeps {P : Node → Prop} {n : Node} (hn : P n) (hundergo : ∀ n e, P n → P (n.undergo e))
    (past : List Happening) : P (n.live past) := by
  induction past generalizing n with
  | nil => exact hn
  | cons e rest ih => exact ih (hundergo n e hn)

/-- A node keeps its id and its role, plays by the same rules, and has the inbox with which it was set up. -/
structure SameMake (n later : Node) : Prop where
  id : later.id = n.id
  role : later.machine.role = n.machine.role
  rules : later.rules = n.rules
  depth : later.inbox.frames.depth = n.inbox.frames.depth
  frameEnds : later.inbox.frames.receivers = n.inbox.frames.receivers
  intentEnds : later.inbox.intents.receivers = n.inbox.intents.receivers

/-- Whatever happens to a node, its make stays the same. -/
theorem live_sameMake (n : Node) (past : List Happening) : n.SameMake (n.live past) := by
  apply live_keeps (P := fun later => n.SameMake later) ⟨rfl, rfl, rfl, rfl, rfl, rfl⟩
  rintro later e hlater
  cases e with
  | deliver f =>
    have hframes : (later.deliver f).inbox.frames = later.inbox.frames.push f := later.inbox.deliver_frames f
    have hintents : (later.deliver f).inbox.intents = later.inbox.intents := later.inbox.deliver_intents f
    refine { hlater with depth := ?_, frameEnds := ?_, intentEnds := ?_ }
    · rw [undergo, hframes, Mailbox.depth_push, hlater.depth]
    · rw [undergo, hframes, Mailbox.receivers_push, hlater.frameEnds]
    · rw [undergo, hintents, hlater.intentEnds]
  | submit i =>
    have hframes : (later.submit i).inbox.frames = later.inbox.frames := later.inbox.submit_frames i
    have hintents : (later.submit i).inbox.intents = later.inbox.intents.push i := later.inbox.submit_intents i
    refine { hlater with depth := ?_, frameEnds := ?_, intentEnds := ?_ }
    · rw [undergo, hframes, hlater.depth]
    · rw [undergo, hframes, hlater.frameEnds]
    · rw [undergo, hintents, Mailbox.receivers_push, hlater.intentEnds]
  | confirm => exact { hlater with }
  | step now takes =>
    have hmail := later.turn_sameMail now
    constructor
    case id => exact (later.step_id now takes).trans hlater.id
    case role => rw [undergo, step_machine, Machine.run_role, hlater.role]
    case rules => exact (later.step_rules now takes).trans hlater.rules
    case depth =>
      change (later.turn now).node.inbox.frames.depth = _
      rw [hmail.frames, Inbox.afterTurn_frames, ← hlater.depth]
      split <;> rfl
    case frameEnds =>
      change (later.turn now).node.inbox.frames.receivers = _
      rw [hmail.frames, Inbox.afterTurn_frames, ← hlater.frameEnds]
      split <;> rfl
    case intentEnds =>
      change (later.turn now).node.inbox.intents.receivers = _
      rw [hmail.intents, Inbox.afterTurn_intents, ← hlater.intentEnds]
      split <;> rfl

/-- Whatever happens to a node, its inbox takes in what it is handed. -/
theorem connected_live (r : Rules) (id : NodeId) (past : List Happening) :
    ((fresh r id).live past).inbox.Connected :=
  have hmake := (fresh r id).live_sameMake past
  ⟨Nat.lt_of_lt_of_eq Nat.zero_lt_two hmake.frameEnds.symm, Nat.lt_of_lt_of_eq Nat.zero_lt_two hmake.intentEnds.symm⟩

/-- The role of a node that has been set up is the one that its id calls for. -/
theorem role_fresh (r : Rules) (id : NodeId) : (fresh r id).machine.role = r.hosts.roleOf id := by
  unfold fresh Machine.ofRules
  cases r.hosts.roleOf id <;> rfl

/-- A node whose machine visits booths was set up with the id of a visitor. -/
theorem guest_of_live {r : Rules} {id : NodeId} {past : List Happening} {v : Visitor}
    (hmachine : ((fresh r id).live past).machine = .visitor v) : r.isHost id = false ∧ v.id = id := by
  have hmake := (fresh r id).live_sameMake past
  have hrole : r.hosts.roleOf id = .user := by
    rw [← role_fresh, ← hmake.role, hmachine]
    rfl
  refine ⟨?_, ?_⟩
  · rw [Bool.eq_false_iff]
    intro hhost
    have hadmin : r.hosts.roleOf id = .admin := if_pos hhost
    exact absurd (hadmin.symm.trans hrole) (by decide)
  · have hid := hmake.id.trans (id_fresh r id)
    rwa [Node.id, hmachine] at hid

end Node

end BoothFloor
