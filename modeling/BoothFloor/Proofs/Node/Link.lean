import BoothFloor.Proofs.Node.Books
import BoothFloor.Proofs.Node.Counters
import BoothFloor.Proofs.Node.History

/-!
# A link that fails

A node hands its messages to a link, and the link may fail to take any of them. All that a node keeps of this are two
counts. So what becomes of the messages makes no difference to what a node does: two lives that differ in it alone
lead to the same node but for the two counts, and step after step the same messages are handed to the link and the
same notices are given.
-/

namespace BoothFloor

/-- The same happening over a link that takes nothing. -/
def Happening.mute : Happening → Happening
  | step now _ => step now fun _ => false
  | e => e

/-- The messages, the notices and the fault of a step, whatever became of the messages. -/
def Outcome.attempts (o : Outcome) : List (NodeId × Message) × List Notice × Option Fault :=
  (o.sent.map fun d => (d.dest, d.message), o.notices, o.fault)

namespace Node

/-- A node with other counts of the messages that were taken and of those that were not. -/
def sending (n : Node) (taken failed : Nat) : Node :=
  { n with counters := { n.counters with messagesSent := taken, sendFailures := failed } }

variable (n : Node) {n' : Node} (now : Instant)

/-- The counts of the messages can be added to a node that has not counted any. -/
theorem sending_eq_booked (taken failed : Nat) : n.sending taken failed =
    (n.sending 0 0).booked { messagesSent := taken, sendFailures := failed } n.inbox.coalesced := by
  simp only [sending, booked, Counters.plus, Nat.zero_add, Nat.add_zero]

/-- A turn has no regard to the counts of the messages. -/
theorem turn_sending (taken failed : Nat) :
    let t := (n.sending taken failed).turn now
    t.node.sending 0 0 = (n.turn now).node.sending 0 0 ∧ t.sent = (n.turn now).sent ∧
      t.notices = (n.turn now).notices ∧ t.fault = (n.turn now).fault := by
  intro t
  have hother : t = _ := congrArg (turn · now) (n.sending_eq_booked taken failed)
  have hsame : n.turn now = _ :=
    congrArg (turn · now) (n.sending_eq_booked n.counters.messagesSent n.counters.sendFailures)
  rw [turn_booked] at hother hsame
  rw [hother, hsame]
  exact ⟨rfl, rfl, rfl, rfl⟩

/-- A step over another link, of a node with other counts of the messages, leads to the same node but for these
counts, hands the same messages to the link and gives the same notices. -/
theorem step_sending (taken failed : Nat) (takes takes' : Nat → Bool) :
    ((n.sending taken failed).step now takes).1.sending 0 0 = (n.step now takes').1.sending 0 0 ∧
      ((n.sending taken failed).step now takes).2.attempts = (n.step now takes').2.attempts := by
  obtain ⟨hnode, hsent, hnotices, hfault⟩ := n.turn_sending now taken failed
  refine ⟨hnode, ?_⟩
  simp only [Outcome.attempts, step, map_dispatch, hsent, hnotices, hfault]

variable {n}

/-- Nodes that differ in the counts of the messages undergo the same. -/
theorem undergo_sending (hsame : n.sending 0 0 = n'.sending 0 0) {e e' : Happening} (hmute : e.mute = e'.mute) :
    (n.undergo e).sending 0 0 = (n'.undergo e').sending 0 0 ∧
      (n.outcome? e).map Outcome.attempts = (n'.outcome? e').map Outcome.attempts := by
  have hmuted (n : Node) (e : Happening) : (n.undergo e).sending 0 0 = ((n.sending 0 0).undergo e.mute).sending 0 0 ∧
      (n.outcome? e).map Outcome.attempts = ((n.sending 0 0).outcome? e.mute).map Outcome.attempts := by
    cases e with
    | deliver | submit | confirm => exact ⟨rfl, rfl⟩
    | step now takes =>
      obtain ⟨hnode, hattempts⟩ := n.step_sending now 0 0 (fun _ => false) takes
      exact ⟨hnode.symm, congrArg some hattempts.symm⟩
  rw [(hmuted n e).1, (hmuted n e).2, (hmuted n' e').1, (hmuted n' e').2, hsame, hmute]
  exact ⟨rfl, rfl⟩

/-- Lives that differ in what becomes of the messages are the same but for the counts of these. -/
theorem live_sending (hsame : n.sending 0 0 = n'.sending 0 0) {past past' : List Happening}
    (hmute : past.map Happening.mute = past'.map Happening.mute) :
    (n.live past).sending 0 0 = (n'.live past').sending 0 0 ∧
      (n.outcomes past).map Outcome.attempts = (n'.outcomes past').map Outcome.attempts := by
  induction past generalizing n n' past' with
  | nil =>
    rw [List.map_nil, List.nil_eq, List.map_eq_nil_iff] at hmute
    subst hmute
    exact ⟨hsame, rfl⟩
  | cons e rest ih =>
    obtain ⟨e', rest', rfl, hfirst, hrest⟩ := List.map_eq_cons_iff.mp hmute.symm
    obtain ⟨hnode, hattempts⟩ := undergo_sending hsame hfirst.symm
    obtain ⟨hlater, hothers⟩ := ih hnode hrest.symm
    refine ⟨hlater, ?_⟩
    have htoList (o? : Option Outcome) : o?.toList.map Outcome.attempts = (o?.map Outcome.attempts).toList := by
      cases o? <;> rfl
    rw [outcomes, outcomes, List.map_append, List.map_append, htoList, htoList, hattempts, hothers]

/-- Every message of a life is counted, by whether the link took it. -/
theorem live_counts_messages (n : Node) (past : List Happening) :
    (n.live past).counters.messagesSent + (n.live past).counters.sendFailures =
      n.counters.messagesSent + n.counters.sendFailures + (n.messages past).length := by
  induction past generalizing n with
  | nil => rfl
  | cons e rest ih =>
    cases e with
    | deliver | submit | confirm => exact ih _
    | step now takes =>
      rw [messages_step, List.length_append, ← Nat.add_assoc, ← step_counts_messages n now takes]
      exact ih _

end Node

/-- A link with a state of its own, which takes a frame for a node or fails to. -/
structure Link (σ : Type) where
  send : σ → List UInt8 → NodeId → Bool × σ

namespace Link

variable {σ : Type} (l : Link σ)

/-- Hand some messages to the link, one after the other, whether or not it takes them. -/
def flush (s : σ) : List (NodeId × Message) → List Dispatch × σ
  | [] => ([], s)
  | (dest, message) :: rest =>
    let (taken, s) := l.send s (Wire.encode message) dest
    let (sent, s) := flush s rest
    (⟨dest, message, taken⟩ :: sent, s)

/-- A step of a node over the link. -/
def step (s : σ) (n : Node) (now : Instant) : (Node × Outcome) × σ :=
  let t := n.turn now
  let (sent, s) := l.flush s t.sent
  (({ t.node with counters := Node.countSends sent t.node.counters }, ⟨sent, t.notices, t.fault⟩), s)

/-- The life of a node over the link, with the outcomes of its steps. -/
def live (s : σ) (n : Node) : List Happening → Node × List Outcome
  | [] => (n, [])
  | .step now _ :: rest =>
    let ((n, o), s) := l.step s n now
    let (n, os) := live s n rest
    (n, o :: os)
  | e :: rest => live s (n.undergo e) rest

/-- What a link does with some messages is to take certain ones of them. -/
theorem exists_flush_eq (s : σ) (sent : List (NodeId × Message)) :
    ∃ takes, (l.flush s sent).1 = Node.dispatch takes sent := by
  induction sent generalizing s with
  | nil => exact ⟨fun _ => false, rfl⟩
  | cons first rest ih =>
    obtain ⟨dest, message⟩ := first
    obtain ⟨takes, hrest⟩ := ih (l.send s (Wire.encode message) dest).2
    refine ⟨fun i => i.casesOn (l.send s (Wire.encode message) dest).1 takes, ?_⟩
    rw [Node.dispatch, List.mapIdx_cons]
    exact congrArg (_ :: ·) hrest

/-- A step over a link is a step in which certain messages are taken. -/
theorem exists_step_eq (s : σ) (n : Node) (now : Instant) : ∃ takes, (l.step s n now).1 = n.step now takes := by
  obtain ⟨takes, hflush⟩ := l.exists_flush_eq s (n.turn now).sent
  refine ⟨takes, ?_⟩
  simp only [step, Node.step, hflush]

/-- A life over a link is a life in which certain messages are taken. -/
theorem exists_live_eq (s : σ) (n : Node) (past : List Happening) :
    ∃ past', past'.map Happening.mute = past.map Happening.mute ∧
      l.live s n past = (n.live past', n.outcomes past') := by
  induction past generalizing s n with
  | nil => exact ⟨[], rfl, rfl⟩
  | cons e rest ih =>
    cases e with
    | deliver | submit | confirm =>
      obtain ⟨rest', hmute, hlive⟩ := ih s (n.undergo _)
      exact ⟨_ :: rest', congrArg (_ :: ·) hmute, hlive⟩
    | step now takes =>
      obtain ⟨takes', hstep⟩ := l.exists_step_eq s n now
      rcases hover : l.step s n now with ⟨⟨next, o⟩, s'⟩
      obtain ⟨rest', hmute, hlive⟩ := ih s' next
      refine ⟨.step now takes' :: rest', congrArg (_ :: ·) hmute, ?_⟩
      rw [hover] at hstep
      dsimp only at hstep
      rw [live, hover]
      dsimp only
      rw [hlive]
      change (next.live rest', o :: next.outcomes rest') =
        ((n.step now takes').1.live rest', (n.step now takes').2 :: (n.step now takes').1.outcomes rest')
      rw [← hstep]

end Link

namespace Node

/-- Failures of the link are contained. Two lives that differ only in which messages the link takes lead to the same
node but for the two counts of that, so to equal snapshots, timers and inboxes, and step after step hand the same
messages to the link in the same order and give the same notices. The two counts add up to the number of the messages
handed to the link, and these are all that the machine has asked to be sent, each of them once. And a life over any
link, with a state of its own and failing as it will, is such a life. -/
theorem link_failures_contained {id : NodeId} {r : Rules} {new : Node} (hnew : ofRules id r = .ok new) :
    (∀ past past', past.map Happening.mute = past'.map Happening.mute →
      let n := new.live past
      n = (new.live past').sending n.counters.messagesSent n.counters.sendFailures ∧
        (new.outcomes past).map Outcome.attempts = (new.outcomes past').map Outcome.attempts) ∧
      (∀ past, let n := new.live past
        n.counters.messagesSent + n.counters.sendFailures = (new.messages past).length ∧
          new.messages past = Action.sent (new.machine.run (new.history past)).2) ∧
      ∀ {σ : Type} (l : Link σ) s past, ∃ past', past'.map Happening.mute = past.map Happening.mute ∧
        l.live s new past = (new.live past', new.outcomes past') := by
  obtain ⟨-, -, rfl⟩ := ofRules_eq_ok_iff.mp hnew
  refine ⟨fun past past' hmute => ?_, fun past => ⟨?_, ?_⟩, fun l s past => l.exists_live_eq s _ past⟩
  · intro n
    obtain ⟨hnode, hattempts⟩ := live_sending (n := fresh r id) rfl hmute
    have hcounted := congrArg (sending · n.counters.messagesSent n.counters.sendFailures) hnode
    exact ⟨hcounted, hattempts⟩
  · rw [live_counts_messages]
    exact Nat.zero_add _
  · exact ((fresh r id).live_run past).2.1

/-- A link that takes every other frame: its state tells whether it takes the next one. -/
def everyOther : Link Bool := ⟨fun takes _ _ => (takes, !takes)⟩

/-- The short visit sends the same over a link that takes nothing, and over one that takes every other frame. -/
theorem link_failures_contained_shortVisit :
    let new := fresh .brisk ⟨4⟩
    let mute := shortVisit.map Happening.mute
    let attempts := (new.outcomes shortVisit).map Outcome.attempts
    new.live mute = (new.live shortVisit).sending 0 7 ∧ (new.outcomes mute).map Outcome.attempts = attempts ∧
      (new.live mute).counters.messagesSent + (new.live mute).counters.sendFailures = (new.messages mute).length ∧
      (everyOther.live true new shortVisit).1.counters.messagesSent = 4 ∧
      (everyOther.live true new shortVisit).2.map Outcome.attempts = attempts := by
  intro new mute attempts
  have hnew : ofRules ⟨4⟩ .brisk = .ok new := ofRules_eq_ok_iff.mpr ⟨by decide, by decide, rfl⟩
  obtain ⟨hlives, hcounts, hlinks⟩ := link_failures_contained hnew
  obtain ⟨hnode, hattempts⟩ := hlives mute shortVisit rfl
  have hfailed : ((new.live mute).counters.messagesSent, (new.live mute).counters.sendFailures) = (0, 7) := by
    decide +kernel
  obtain ⟨hsent, hlost⟩ := Prod.mk.inj hfailed
  rw [hsent, hlost] at hnode
  obtain ⟨past, hmute, hover⟩ := hlinks everyOther true shortVisit
  refine ⟨hnode, hattempts, (hcounts mute).1, by decide +kernel, ?_⟩
  rw [hover]
  exact (hlives past shortVisit hmute).2

end Node

end BoothFloor
