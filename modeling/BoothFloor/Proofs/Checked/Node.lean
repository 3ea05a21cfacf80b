import BoothFloor.Proofs.Checked.Turn
import BoothFloor.Proofs.Node.History
import BoothFloor.Proofs.Node.Mail

/-!
# The arithmetic of a life

What a node counts is bounded by what has happened to it: its ticks by the steps, its frames by those handed in, its
messages by those that its steps have sent. So as long as the word holds these numbers nothing that a node counts
overflows, under any rules that can be played by. What is left is the time after which a visitor leaves a booth by
itself: the rules bound neither part of this sum, and if the word does not hold it, the first tick that finds the
visitor inside a booth is the end of the program.
-/

namespace BoothFloor

/-- Whether a step is taken. -/
def Happening.isStep : Happening → Bool
  | step .. => true
  | _ => false

namespace Node

/-- Write a message and count what becomes of it. -/
def countSendChecked (c : Counters) (d : Dispatch) : Except Fault Counters := do
  let _ ← Wire.encodeChecked d.message
  if d.taken then return { c with messagesSent := ← Checked.add 64 c.messagesSent 1 }
  else return { c with sendFailures := ← Checked.add 64 c.sendFailures 1 }

/-- One step at clock reading `now` over a link that takes the `i`th message iff `takes i`. -/
def stepChecked (n : Node) (now : Instant) (takes : Nat → Bool) : Except Fault (Node × Outcome) := do
  let t ← n.turnChecked now
  let sent := dispatch takes t.sent
  return ({ t.node with counters := ← sent.foldlM countSendChecked t.node.counters }, ⟨sent, t.notices, t.fault⟩)

/-- The node after one happening. -/
def undergoChecked (n : Node) : Happening → Except Fault Node
  | .step now takes => do return (← n.stepChecked now takes).1
  | e => .ok (n.undergo e)

/-- The node after some happenings. -/
def liveChecked (n : Node) (past : List Happening) : Except Fault Node := past.foldlM undergoChecked n

/-- The fault of the first step of a life that goes astray, if one does. -/
def fault? (n : Node) (past : List Happening) : Option Fault := (n.outcomes past).findSome? (·.fault)

/-- Whether a step of a life finds the visitor inside a booth at its tick. -/
def everInside (n : Node) : List Happening → Bool
  | [] => false
  | .step now takes :: rest => n.insideAtTick now || (n.undergo (.step now takes)).everInside rest
  | e :: rest => (n.undergo e).everInside rest

/-- What a node counts after so many steps, frames handed in and messages. -/
structure Tallies (n : Node) (steps frames messages : Nat) : Prop where
  tick : n.tick = steps
  ticks : n.counters.ticks = steps
  confirmations : n.counters.sendConfirmations ≤ steps
  accounts : n.Accounts frames
  dropped : n.counters.framesDropped ≤ n.counters.framesReceived
  sent : n.counters.messagesSent + n.counters.sendFailures = messages

variable {n : Node} {steps frames messages : Nat}

/-- A node that has just been set up has counted nothing. -/
theorem tallies_fresh (r : Rules) (id : NodeId) : (fresh r id).Tallies 0 0 0 :=
  ⟨rfl, rfl, Nat.le_refl 0, accounts_fresh r id, Nat.le_refl 0, rfl⟩

/-- A step counts its tick, the frames that it reads and the messages that it sends. -/
theorem Tallies.step (h : n.Tallies steps frames messages) (now : Instant) (takes : Nat → Bool) :
    (n.step now takes).1.Tallies (steps + 1) frames (messages + (n.turn now).sent.length) := by
  obtain ⟨confirmations, hle, hturn⟩ := n.exists_turn_counters now
  obtain ⟨received, dropped, hread⟩ := n.exists_read_counters now
  constructor
  case tick => exact (congrArg Moment.tick (n.turn_moment now)).trans (congrArg (· + 1) h.tick)
  case ticks =>
    change (n.turn now).node.counters.ticks = steps + 1
    rw [hturn, hread, ← h.ticks]
    rfl
  case confirmations =>
    have hbefore := h.confirmations
    rw [hread] at hle
    change (n.turn now).node.counters.sendConfirmations ≤ steps + 1
    rw [hturn]
    exact Nat.le_trans hle (Nat.succ_le_succ hbefore)
  case accounts => exact h.accounts.step now takes
  case dropped =>
    have hbefore := h.dropped
    have hillegible := n.inbox.frames.items.countP_le_length (p := fun f => (n.rules.hear f).isNone)
    change (n.turn now).node.counters.framesDropped ≤ (n.turn now).node.counters.framesReceived
    rw [turn_framesDropped, turn_framesReceived]
    split <;> omega
  case sent => rw [step_counts_messages, h.sent]

/-- A node that counts less than the word holds has room for a step. -/
theorem Tallies.hasRoom (h : n.Tallies steps frames messages) (hsteps : steps + 1 < 2 ^ 64)
    (hframes : frames < 2 ^ 64) : n.HasRoom where
  tick := h.tick ▸ hsteps
  ticks := h.ticks ▸ hsteps
  confirmations := Nat.lt_of_le_of_lt (Nat.succ_le_succ h.confirmations) hsteps
  received := by
    have hbalance := h.accounts.balance
    omega
  dropped := h.dropped

/-- A message is counted before those that come after it. -/
theorem countSends_cons (d : Dispatch) (rest : List Dispatch) (c : Counters) : countSends (d :: rest) c =
    countSends rest (if d.taken then { c with messagesSent := c.messagesSent + 1 }
      else { c with sendFailures := c.sendFailures + 1 }) := by
  have htaken := rest.countP_le_length (p := (·.taken))
  rw [countSends, List.length_cons]
  cases hd : d.taken with
  | true =>
    rw [List.countP_cons_of_pos hd, Nat.add_sub_add_right, Nat.add_comm _ 1, ← Nat.add_assoc]
    rfl
  | false =>
    rw [List.countP_cons_of_neg (by simp [hd]), Nat.succ_sub htaken, Nat.succ_eq_add_one, Nat.add_comm _ 1,
      ← Nat.add_assoc]
    rfl

/-- Messages are written and counted without a fault, if there is room for them. -/
theorem foldlM_countSendChecked_eq (sent : List Dispatch) (c : Counters)
    (hroom : c.messagesSent + c.sendFailures + sent.length < 2 ^ 64) :
    sent.foldlM countSendChecked c = .ok (countSends sent c) := by
  induction sent generalizing c with
  | nil => rfl
  | cons d rest ih =>
    rw [List.length_cons] at hroom
    rw [List.foldlM_cons, countSendChecked, Wire.encodeChecked_eq, Checked.ok_bind, countSends_cons]
    cases d.taken with
    | true =>
      rw [if_pos rfl, Checked.add_of_lt (by omega), Checked.ok_bind]
      exact ih { c with messagesSent := c.messagesSent + 1 } (by dsimp only; omega)
    | false =>
      rw [if_neg Bool.false_ne_true, Checked.add_of_lt (by omega), Checked.ok_bind]
      exact ih { c with sendFailures := c.sendFailures + 1 } (by dsimp only; omega)

variable {r : Rules}

/-- A step goes through unless it has a fault. -/
theorem Tallies.stepChecked_eq (h : n.Tallies steps frames messages) (hplays : n.machine.Plays r) (valid : r.Valid)
    (hsteps : steps + 1 < 2 ^ 64) (hframes : frames < 2 ^ 64) {now : Instant} {takes : Nat → Bool}
    (hmessages : messages + (n.turn now).sent.length < 2 ^ 64) :
    n.stepChecked now takes = Checked.result (n.step now takes).2.fault (n.step now takes) := by
  have hsends : (dispatch takes (n.turn now).sent).foldlM countSendChecked (n.turn now).node.counters =
      .ok (countSends (dispatch takes (n.turn now).sent) (n.turn now).node.counters) := by
    obtain ⟨confirmations, -, hturn⟩ := n.exists_turn_counters now
    obtain ⟨received, dropped, hread⟩ := n.exists_read_counters now
    refine foldlM_countSendChecked_eq _ _ ?_
    rw [hturn, hread, dispatch, List.length_mapIdx]
    change n.counters.messagesSent + n.counters.sendFailures + _ < _
    rw [h.sent]
    exact hmessages
  have hfault : (n.step now takes).2.fault = (n.turn now).fault := rfl
  rw [stepChecked, turnChecked_eq hplays valid (h.hasRoom hsteps hframes), hfault]
  cases (n.turn now).fault with
  | some fault => rfl
  | none =>
    rw [Checked.result, Checked.ok_bind]
    dsimp only
    rw [hsends]
    rfl

/-- A life goes through unless a step of it has a fault. -/
theorem Tallies.liveChecked_eq (h : n.Tallies steps frames messages) (hplays : n.machine.Plays r) (valid : r.Valid)
    {past : List Happening} (hsteps : steps + past.countP Happening.isStep < 2 ^ 64)
    (hframes : frames + past.countP Happening.isDelivery < 2 ^ 64)
    (hmessages : messages + (n.messages past).length < 2 ^ 64) :
    n.liveChecked past = Checked.result (n.fault? past) (n.live past) := by
  induction past generalizing n steps frames messages with
  | nil => rfl
  | cons e rest ih =>
    rw [liveChecked, List.foldlM_cons]
    cases e with
    | deliver f =>
      rw [List.countP_cons_of_neg (by simp [Happening.isStep])] at hsteps
      rw [List.countP_cons_of_pos rfl, ← Nat.add_assoc, Nat.add_right_comm] at hframes
      exact ih (n := n.deliver f) { h with accounts := h.accounts.deliver f } hplays hsteps hframes hmessages
    | submit i =>
      exact ih (n := n.submit i) { h with accounts := h.accounts.submit i } hplays hsteps hframes hmessages
    | confirm =>
      exact ih (n := n.confirm) { h with accounts := h.accounts.of_eq rfl rfl rfl } hplays hsteps hframes hmessages
    | step now takes =>
      rw [List.countP_cons_of_pos rfl, ← Nat.add_assoc, Nat.add_right_comm] at hsteps
      rw [List.countP_cons_of_neg (by simp [Happening.isDelivery])] at hframes
      rw [messages_step, List.length_append, ← Nat.add_assoc] at hmessages
      have hone : n.stepChecked now takes = _ := h.stepChecked_eq hplays valid
        (Nat.lt_of_le_of_lt (Nat.le_add_right _ _) hsteps) (Nat.lt_of_le_of_lt (Nat.le_add_right _ _) hframes)
        (Nat.lt_of_le_of_lt (Nat.le_add_right _ _) hmessages)
      have hplays' : (n.step now takes).1.machine.Plays r := by
        rw [step_machine]
        exact hplays.run _
      have hrest := ih (h.step now takes) hplays' hsteps hframes hmessages
      have hfirst : n.fault? (.step now takes :: rest) =
          (n.step now takes).2.fault.or ((n.step now takes).1.fault? rest) := by
        change List.findSome? _ ((n.step now takes).2 :: outcomes _ rest) = _
        rw [List.findSome?_cons]
        cases (n.step now takes).2.fault <;> rfl
      rw [undergoChecked, hone, hfirst]
      cases (n.step now takes).2.fault with
      | some fault => rfl
      | none => exact hrest

/-- A life has a fault exactly if a step of it finds the visitor inside a booth at its tick and the word does not hold
how long it may stay. -/
theorem fault?_eq (hplays : n.machine.Plays r) (past : List Happening) : n.fault? past =
    if n.everInside past = true ∧ ¬ r.sessionDuration.ms.toNat + r.sessionGrace.ms.toNat < 2 ^ 64 then some .overflow
    else none := by
  induction past generalizing n with
  | nil => exact (if_neg fun h => Bool.false_ne_true h.1).symm
  | cons e rest ih =>
    cases e with
    | deliver | submit | confirm => exact ih hplays
    | step now takes =>
      have hrest := ih (n := (n.step now takes).1) (by
        rw [step_machine]
        exact hplays.run _)
      have hfault : (n.step now takes).2.fault = _ := turn_fault_eq hplays now
      change List.findSome? _ ((n.step now takes).2 :: outcomes _ rest) = _
      rw [List.findSome?_cons, hfault, everInside]
      by_cases hastray : n.insideAtTick now = true ∧
          ¬ r.sessionDuration.ms.toNat + r.sessionGrace.ms.toNat < 2 ^ 64
      · rw [if_pos hastray, if_pos ⟨by rw [hastray.1, Bool.true_or], hastray.2⟩]
      · rw [if_neg hastray]
        refine hrest.trans (if_congr ?_ rfl rfl)
        rw [Bool.or_eq_true, or_and_right]
        exact (or_iff_right hastray).symm

/-- A node that visits no booths is never inside one. -/
theorem everInside_of_host (hhost : n.machine.role = .admin) (past : List Happening) : n.everInside past = false := by
  induction past generalizing n with
  | nil => rfl
  | cons e rest ih =>
    cases e with
    | deliver | submit | confirm => exact ih hhost
    | step now takes =>
      have hrole : (n.undergo (.step now takes)).machine.role = .admin := by
        rw [undergo, step_machine, Machine.run_role, hhost]
      have houtside : n.insideAtTick now = false := by
        have hrun := n.machine.run_role ((n.beforeTick now).map (n.moment now, ·))
        unfold insideAtTick
        generalize (n.machine.run ((n.beforeTick now).map (n.moment now, ·))).1 = s at hrun ⊢
        cases s with
        | host h => rfl
        | visitor v =>
          rw [hhost] at hrun
          cases hrun
      rw [everInside, houtside, ih hrole]
      rfl

/-- As long as the word holds the numbers of its steps, of the frames that it is handed and of the messages that it
sends, a node goes astray under rules that can be played by in one case only: the word does not hold the time after
which a visitor leaves by itself, and a step finds the visitor inside a booth at its tick. That step ends the program
with a fault. In every other life no sum overflows, no difference is below zero, nothing is divided by zero and every
place that is looked at is there. The time after which a visitor leaves by itself is never anything but the sum of its
parts. -/
theorem arithmetic_faultless {id : NodeId} {new : Node} (hnew : ofRules id r = .ok new) {past : List Happening}
    (hsteps : past.countP Happening.isStep < 2 ^ 64) (hframes : past.countP Happening.isDelivery < 2 ^ 64)
    (hmessages : (new.messages past).length < 2 ^ 64) :
    let limit := r.sessionDuration.ms.toNat + r.sessionGrace.ms.toNat
    (limit < 2 ^ 64 ∨ r.isHost id = true ∨ new.everInside past = false →
        new.liveChecked past = .ok (new.live past) ∧ ∀ o ∈ new.outcomes past, o.fault = none) ∧
      (2 ^ 64 ≤ limit → new.everInside past = true →
        new.liveChecked past = .error .overflow ∧ new.fault? past = some .overflow) ∧
      (∀ span, r.clientLimit = .ok span ↔ span.ms.toNat = limit) ∧
      (r.clientLimit = .error .overflow ↔ 2 ^ 64 ≤ limit) := by
  obtain ⟨valid, -, rfl⟩ := ofRules_eq_ok_iff.mp hnew
  intro limit
  have hplays := Machine.plays_ofRules id r
  have hlife := (tallies_fresh r id).liveChecked_eq hplays valid (by rwa [Nat.zero_add]) (by rwa [Nat.zero_add])
    (by rwa [Nat.zero_add])
  have hfault := fault?_eq (n := fresh r id) hplays past
  refine ⟨fun hsafe => ?_, fun hwide hinside => ?_, fun span => Rules.clientLimit_eq_ok_iff,
    Rules.clientLimit_eq_error_iff⟩
  · have hnone : (fresh r id).fault? past = none := by
      refine hfault.trans (if_neg fun hastray => ?_)
      rcases hsafe with hfits | hhost | houtside
      · exact hastray.2 hfits
      · have hrole : (fresh r id).machine.role = .admin := (role_fresh r id).trans (if_pos hhost)
        exact Bool.false_ne_true ((everInside_of_host hrole past).symm.trans hastray.1)
      · exact Bool.false_ne_true (houtside.symm.trans hastray.1)
    rw [hnone] at hlife
    exact ⟨hlife, List.findSome?_eq_none_iff.mp hnone⟩
  · rw [if_pos ⟨hinside, Nat.not_lt.mpr hwide⟩] at hfault
    rw [hfault] at hlife
    exact ⟨hlife, hfault⟩

/-- The short visit goes through, and takes the visitor inside. -/
theorem arithmetic_faultless_shortVisit :
    let n := fresh .brisk ⟨4⟩
    n.everInside shortVisit = true ∧ Rules.brisk.clientLimit = .ok ⟨5500⟩ ∧
      n.liveChecked shortVisit = .ok (n.live shortVisit) ∧ ∀ o ∈ n.outcomes shortVisit, o.fault = none := by
  intro n
  have hnew : ofRules ⟨4⟩ .brisk = .ok n := ofRules_eq_ok_iff.mpr ⟨by decide, by decide, rfl⟩
  have hsteps : shortVisit.countP Happening.isStep < 2 ^ 64 := by decide
  have hframes : shortVisit.countP Happening.isDelivery < 2 ^ 64 := by decide
  have hmessages : (n.messages shortVisit).length < 2 ^ 64 := by decide +kernel
  obtain ⟨hsafe, -, hlimit, -⟩ := arithmetic_faultless hnew hsteps hframes hmessages
  exact ⟨by decide +kernel, (hlimit ⟨5500⟩).mpr (by decide), hsafe (.inl (by decide))⟩

/-- Rules under which a visitor should never leave by itself. -/
def endlessRules : Rules := { Rules.brisk with sessionDuration := ⟨18446744073709551615⟩, sessionGrace := ⟨1⟩ }

/-- The rules can be played by and the word does not hold the sum of the endless times: the step in which the visitor
gets in is the end of the program. -/
theorem arithmetic_faulty_endlessRules :
    let n := fresh endlessRules ⟨4⟩
    let past := shortVisit.take 7
    endlessRules.Valid ∧ ofRules ⟨4⟩ endlessRules = .ok n ∧ n.liveChecked past = .error .overflow ∧
      endlessRules.clientLimit = .error .overflow ∧
      (n.outcomes past).map (·.fault) = [none, none, none, some .overflow] ∧
      (n.outcomes past).map (fun o => o.notices.filter Notice.isSession) = [[], [], [], [.sessionStarted ⟨1⟩]] := by
  decide +kernel

end Node

end BoothFloor
