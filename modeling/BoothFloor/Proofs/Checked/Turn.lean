import BoothFloor.Proofs.Checked.Frames
import BoothFloor.Proofs.Checked.Host
import BoothFloor.Proofs.Checked.Visitor
import BoothFloor.Proofs.Node.Counters
import BoothFloor.Proofs.Visitor.Visits

/-!
# The arithmetic of a turn

A turn counts its tick, the frames that it reads, those that it drops and a confirmation, and hands its inputs to the
machine. The counts stay within their word as long as there is room for one more of each. Then a turn can go astray
only at its end, when the visitor is inside a booth and adds up how long it may stay; that is the fault of the turn.
-/

namespace BoothFloor

namespace Machine

/-- The machine's reaction to an input. -/
def reactChecked (s : Machine) (m : Moment) (i : Input) : Except Fault (Machine × List Action) :=
  match s with
  | host h => do
    let (h, acts) ← h.reactChecked m i
    return (host h, acts)
  | visitor v => do
    let (v, acts) ← v.reactChecked m i
    return (visitor v, acts)

/-- Whether the machine is a visitor inside a booth. -/
def isInside : Machine → Bool
  | host _ => false
  | visitor v => v.stage = .inUse

/-- The machine plays by the rules. -/
def Plays (r : Rules) : Machine → Prop
  | host h => h.Plays r
  | visitor v => v.rules = r

variable {r : Rules} {s : Machine}

/-- A new machine plays by the rules. -/
theorem plays_ofRules (id : NodeId) (r : Rules) : (ofRules id r).Plays r := by
  unfold ofRules
  cases r.hosts.roleOf id with
  | admin => exact Host.plays_ofRules id r
  | user => rfl

/-- A machine goes on playing by the rules. -/
theorem Plays.run (hplays : s.Plays r) (events : List (Moment × Input)) : (s.run events).1.Plays r := by
  cases s with
  | host h =>
    rw [run_host]
    exact Host.Plays.run hplays events
  | visitor v =>
    rw [run_visitor]
    exact (v.run_rules events).trans hplays

/-- The machine goes astray at its tick only, and there as its fault says. -/
theorem Plays.reactChecked_eq (hplays : s.Plays r) (valid : r.Valid) (m : Moment) (i : Input) :
    s.reactChecked m i = Checked.result (s.fault? m i) (s.react m i) := by
  cases s with
  | host h =>
    rw [reactChecked, Host.Plays.reactChecked_eq hplays valid]
    rfl
  | visitor v =>
    rw [reactChecked, v.reactChecked_eq, fault?]
    cases Fault.of? (v.attempt m i) <;> rfl

/-- A tick goes astray exactly if the machine is a visitor inside a booth and the word does not hold how long it may
stay. -/
theorem Plays.fault?_tick (hplays : s.Plays r) (m : Moment) :
    s.fault? m .tick =
      if s.isInside = true ∧ ¬ r.sessionDuration.ms.toNat + r.sessionGrace.ms.toNat < 2 ^ 64 then some .overflow
      else none := by
  cases s with
  | host h => exact (if_neg fun hinside => Bool.false_ne_true hinside.1).symm
  | visitor v =>
    obtain rfl : v.rules = r := hplays
    simp only [isInside, decide_eq_true_eq]
    exact v.of?_onTick m

end Machine

namespace Turn

/-- Do what a reaction of the machine wants done. -/
def carry (t : Turn) (reaction : Machine × List Action) : Turn :=
  let alarms := Action.alarmsAfter t.node.now ⟨t.node.timers, t.node.inbox.signals⟩ reaction.2
  { node :=
      { t.node with
        machine := reaction.1
        timers := alarms.timers
        inbox := { t.node.inbox with signals := alarms.signals } }
    sent := t.sent ++ Action.sent reaction.2
    notices := t.notices ++ Action.emitted reaction.2
    fault := t.fault }

/-- Hand an input to the machine and do what it wants done. -/
def feedChecked (t : Turn) (i : Input) : Except Fault Turn := do
  return t.carry (← t.node.machine.reactChecked t.moment i)

/-- Do something if a signal is set, and clear the signal first. -/
def onSignalChecked (g : Signal) (act : Turn → Except Fault Turn) (t : Turn) : Except Fault Turn :=
  if t.node.inbox.signals.isSet g then
    act { t with node := { t.node with inbox := t.node.inbox.clear g } }
  else .ok t

def countTickChecked (c : Counters) : Except Fault Counters := do
  return { c with ticks := ← Checked.add 64 c.ticks 1 }

def countFrameChecked (c : Counters) : Except Fault Counters := do
  return { c with framesReceived := ← Checked.add 64 c.framesReceived 1 }

def countDropChecked (c : Counters) : Except Fault Counters := do
  return { c with framesDropped := ← Checked.add 64 c.framesDropped 1 }

def countConfirmationChecked (c : Counters) : Except Fault Counters := do
  return { c with sendConfirmations := ← Checked.add 64 c.sendConfirmations 1 }

def countingChecked (f : Counters → Except Fault Counters) (t : Turn) : Except Fault Turn := do
  return { t with node := { t.node with counters := ← f t.node.counters } }

/-- Read one frame. -/
def readFrameChecked (t : Turn) (f : Frame) : Except Fault Turn := do
  let t ← t.countingChecked countFrameChecked
  match ← Wire.decodeChecked f.bytes (t.node.rules.hosts.roleOf f.source) with
  | .ok m => t.feedChecked (.message f.source m f.rssi f.snr)
  | .error _ => t.countingChecked countDropChecked

/-- Read every frame in the inbox, in order of arrival. -/
def readFramesChecked (t : Turn) : Except Fault Turn :=
  let (frames, inbox) := t.node.inbox.drainFrames
  frames.foldlM readFrameChecked { t with node := { t.node with inbox := inbox } }

/-- Handle every intent in the inbox, in order. -/
def readIntentsChecked (t : Turn) : Except Fault Turn :=
  let (intents, inbox) := t.node.inbox.drainIntents
  intents.foldlM (fun t i => t.feedChecked (.intent i)) { t with node := { t.node with inbox := inbox } }

/-- The first step of a node starts its machine. -/
def beginChecked (t : Turn) : Except Fault Turn :=
  if t.node.started then .ok t else { t with node := { t.node with started := true } }.feedChecked .start

end Turn

/-- The turn of a step at clock reading `now`, before anything is sent. -/
def Node.turnChecked (n : Node) (now : Instant) : Except Fault Turn := do
  let woken : Turn := { node := { n with now := now, tick := ← Checked.add 64 n.tick 1 } }
  let counted ← (← woken.beginChecked).countingChecked Turn.countTickChecked
  let read ← counted.pollTimers.onSignalChecked .messageArrived Turn.readFramesChecked
  let selected ← read.onSignalChecked .selectionTimeout (·.feedChecked (.timer .selection))
  let retried ← selected.onSignalChecked .retryTimeout (·.feedChecked (.timer .retry))
  let heard ← retried.onSignalChecked .keyboardIntent Turn.readIntentsChecked
  let confirmed ← heard.onSignalChecked .sendConfirmed (Turn.countingChecked Turn.countConfirmationChecked)
  confirmed.feedChecked .tick

namespace Turn

variable {r : Rules} {t : Turn}

/-- A count goes up without a fault if there is room for one more. -/
theorem countingChecked_eq {f : Counters → Except Fault Counters} {plain : Counters → Counters}
    (hcount : f t.node.counters = .ok (plain t.node.counters)) : t.countingChecked f = .ok (t.counting plain) := by
  rw [countingChecked, hcount]
  rfl

/-- An input is handed over without a fault, unless the machine goes astray. -/
theorem feedChecked_eq (hplays : t.node.machine.Plays r) (valid : r.Valid) (i : Input) :
    t.feedChecked i = Checked.result (t.node.machine.fault? t.moment i) (t.feed i) := by
  have hfeed : t.feed i =
      { t.carry (t.node.machine.react t.moment i) with
        fault := t.fault.or (t.node.machine.fault? t.moment i) } := rfl
  rw [feedChecked, hplays.reactChecked_eq valid t.moment i, hfeed]
  cases t.node.machine.fault? t.moment i with
  | some fault => rfl
  | none =>
    rw [Option.or_none]
    rfl

/-- An input other than the tick is handed over without a fault. -/
theorem feedChecked_of_ne_tick (hplays : t.node.machine.Plays r) (valid : r.Valid) {i : Input} (hi : i ≠ .tick) :
    t.feedChecked i = .ok (t.feed i) := by
  rw [feedChecked_eq hplays valid, Machine.fault?_of_ne_tick _ _ hi]
  rfl

/-- Acting on a signal goes through if the act does: clearing the signal leaves the machine, the counts and the frames
as they are. -/
theorem onSignalChecked_eq {g : Signal} {act : Turn → Except Fault Turn} {plain : Turn → Turn}
    (hact : ∀ s : Turn, s.node.machine = t.node.machine → s.node.counters = t.node.counters →
      s.node.inbox.frames = t.node.inbox.frames → act s = .ok (plain s)) :
    t.onSignalChecked g act = .ok (t.onSignal g plain) := by
  unfold onSignalChecked onSignal
  split
  · exact hact _ rfl rfl rfl
  · rfl

/-- A frame is read without a fault, as long as the counts have room for it. -/
theorem readFrameChecked_eq (hplays : t.node.machine.Plays r) (valid : r.Valid)
    (hreceived : t.node.counters.framesReceived + 1 < 2 ^ 64)
    (hdropped : t.node.counters.framesDropped ≤ t.node.counters.framesReceived) (f : Frame) :
    t.readFrameChecked f = .ok (t.readFrame f) := by
  have hcounted : t.countingChecked countFrameChecked = .ok (t.counting countFrame) := by
    refine countingChecked_eq ?_
    rw [countFrameChecked, Checked.add_of_lt hreceived]
    rfl
  have hdrop : (t.counting countFrame).countingChecked countDropChecked =
      .ok ((t.counting countFrame).counting countDrop) := by
    -- the frame has been counted as received already, and no more frames are dropped than received
    have hroom : (t.counting countFrame).node.counters.framesDropped + 1 < 2 ^ 64 :=
      Nat.lt_of_le_of_lt (Nat.succ_le_succ hdropped) hreceived
    refine countingChecked_eq ?_
    rw [countDropChecked, Checked.add_of_lt hroom]
    rfl
  unfold readFrameChecked readFrame
  rw [hcounted, Checked.ok_bind, Wire.decodeChecked_eq, Checked.ok_bind]
  dsimp only
  cases Wire.decode f.bytes ((t.counting countFrame).node.rules.hosts.roleOf f.source) with
  | ok m => exact feedChecked_of_ne_tick (t := t.counting countFrame) hplays valid nofun
  | error e => exact hdrop

/-- Some frames are read without a fault, as long as the counts have room for them. -/
theorem foldlM_readFrameChecked_eq (hplays : t.node.machine.Plays r) (valid : r.Valid) {frames : List Frame}
    (hreceived : t.node.counters.framesReceived + frames.length < 2 ^ 64)
    (hdropped : t.node.counters.framesDropped ≤ t.node.counters.framesReceived) :
    frames.foldlM readFrameChecked t = .ok (frames.foldl readFrame t) := by
  refine Checked.foldlM_eq_ok
    (P := fun rest t => t.node.machine.Plays r ∧ t.node.counters.framesReceived + rest.length < 2 ^ 64 ∧
      t.node.counters.framesDropped ≤ t.node.counters.framesReceived)
    ⟨hplays, hreceived, hdropped⟩ fun f rest t ht => ?_
  obtain ⟨hone, hroom, hle⟩ := ht
  rw [List.length_cons] at hroom
  refine ⟨readFrameChecked_eq hone valid (by omega) hle f, ?_, ?_, ?_⟩
  · rw [(t.readFrame_follows f).machine]
    exact hone.run _
  · rw [readFrame_counters]
    dsimp only
    omega
  · rw [readFrame_counters]
    dsimp only
    split <;> omega

/-- The frames of the inbox are read without a fault, as long as the counts have room for them. -/
theorem readFramesChecked_eq (hplays : t.node.machine.Plays r) (valid : r.Valid)
    (hreceived : t.node.counters.framesReceived + t.node.inbox.frames.items.length < 2 ^ 64)
    (hdropped : t.node.counters.framesDropped ≤ t.node.counters.framesReceived) :
    t.readFramesChecked = .ok t.readFrames :=
  foldlM_readFrameChecked_eq (t := { t with node := { t.node with inbox := t.node.inbox.drainFrames.2 } })
    hplays valid hreceived hdropped

/-- The intents of the inbox are handled without a fault. -/
theorem readIntentsChecked_eq (hplays : t.node.machine.Plays r) (valid : r.Valid) :
    t.readIntentsChecked = .ok t.readIntents := by
  refine Checked.foldlM_eq_ok (P := fun _ t => t.node.machine.Plays r) hplays fun i _ t hone => ⟨?_, ?_⟩
  · exact feedChecked_of_ne_tick hone valid nofun
  · rw [(t.feed_follows (.intent i)).machine]
    exact hone.run _

/-- The first step of a node starts its machine without a fault. -/
theorem beginChecked_eq (hplays : t.node.machine.Plays r) (valid : r.Valid) : t.beginChecked = .ok t.begin := by
  unfold beginChecked begin
  split
  · rfl
  · exact feedChecked_of_ne_tick (t := { t with node := { t.node with started := true } }) hplays valid nofun

/-- A machine plays on by the rules from one moment of a turn to a later one. -/
theorem Follows.plays {u : Turn} {inputs : List Input} (hfollows : Follows t u inputs)
    (hplays : t.node.machine.Plays r) : u.node.machine.Plays r :=
  hfollows.machine ▸ hplays.run _

end Turn

namespace Node

/-- Whether the next turn finds its machine to be a visitor inside a booth when it hands over the tick. -/
def insideAtTick (n : Node) (now : Instant) : Bool :=
  (n.machine.run ((n.beforeTick now).map (n.moment now, ·))).1.isInside

/-- There is room for one more tick, for a confirmation and for the frames in the inbox. -/
structure HasRoom (n : Node) : Prop where
  tick : n.tick + 1 < 2 ^ 64
  ticks : n.counters.ticks + 1 < 2 ^ 64
  confirmations : n.counters.sendConfirmations + 1 < 2 ^ 64
  received : n.counters.framesReceived + n.inbox.frames.items.length < 2 ^ 64
  dropped : n.counters.framesDropped ≤ n.counters.framesReceived

/-- Up to its tick a turn hands over the inputs before it. -/
theorem intended_machine (n : Node) (now : Instant) :
    (n.intended now).node.machine = (n.machine.run ((n.beforeTick now).map (n.moment now, ·))).1 := by
  obtain ⟨hmachine, -, -, -, hmoment, -⟩ := n.polled_machine now
  have hrow : (n.beforeTick now).map (n.moment now, ·) = n.opening.map (n.moment now, ·) ++
      (n.news now ++ ((if n.retries now then [Input.timer .retry] else []) ++ n.asked)).map (n.moment now, ·) :=
    List.map_append
  rw [((n.selected_follows now).trans (n.intended_follows now)).machine, hmachine, hmoment, hrow, Machine.run_append]

/-- At its tick a turn finds the machine that has run over the inputs before it. -/
theorem confirmed_machine (n : Node) (now : Instant) :
    ((n.intended now).onSignal .sendConfirmed (Turn.counting Turn.countConfirmation)).node.machine =
      (n.machine.run ((n.beforeTick now).map (n.moment now, ·))).1 := by
  rw [← intended_machine]
  unfold Turn.onSignal
  split <;> rfl

variable {r : Rules} {n : Node} {now : Instant}

/-- The tick of a turn is counted without a fault, if there is room for it. -/
theorem countTickChecked_eq (hroom : n.HasRoom) {woken : Turn} (hcounters : woken.node.counters = n.counters) :
    woken.begin.countingChecked Turn.countTickChecked = .ok (woken.begin.counting Turn.countTick) := by
  refine Turn.countingChecked_eq ?_
  rw [Turn.begin_counters, hcounters, Turn.countTickChecked, Checked.add_of_lt hroom.ticks]
  rfl

/-- The frames are read without a fault, if there is room for them. -/
theorem readChecked_eq (hplays : (n.polled now).node.machine.Plays r) (valid : r.Valid) (hroom : n.HasRoom) :
    (n.polled now).onSignalChecked .messageArrived Turn.readFramesChecked = .ok (n.read now) := by
  have hcounters := n.polled_counters now
  refine Turn.onSignalChecked_eq fun s hmachine hcounts hframes =>
    Turn.readFramesChecked_eq (hmachine ▸ hplays) valid ?_ ?_
  · rw [hcounts, hcounters, hframes, (n.polled_sameMail now).frames]
    exact hroom.received
  · rw [hcounts, hcounters]
    exact hroom.dropped

/-- A confirmation is counted without a fault, if there is room for it. -/
theorem confirmedChecked_eq (hroom : n.HasRoom) :
    (n.intended now).onSignalChecked .sendConfirmed (Turn.countingChecked Turn.countConfirmationChecked) =
      .ok ((n.intended now).onSignal .sendConfirmed (Turn.counting Turn.countConfirmation)) := by
  refine Turn.onSignalChecked_eq fun s _ hcounts _ => Turn.countingChecked_eq ?_
  obtain ⟨received, dropped, hcounters⟩ := n.exists_read_counters now
  have hconfirmations : s.node.counters.sendConfirmations + 1 < 2 ^ 64 := by
    rw [hcounts, intended_counters, hcounters]
    exact hroom.confirmations
  rw [Turn.countConfirmationChecked, Checked.add_of_lt hconfirmations]
  rfl

/-- A turn goes astray exactly if at its tick the visitor is inside a booth and the word does not hold how long it may
stay. -/
theorem turn_fault_eq (hplays : n.machine.Plays r) (now : Instant) :
    (n.turn now).fault =
      if n.insideAtTick now = true ∧ ¬ r.sessionDuration.ms.toNat + r.sessionGrace.ms.toNat < 2 ^ 64 then some .overflow
      else none := by
  rw [turn_fault]
  exact (hplays.run _).fault?_tick _

/-- A turn goes through unless it has a fault. -/
theorem turnChecked_eq (hplays : n.machine.Plays r) (valid : r.Valid) (hroom : n.HasRoom) (now : Instant) :
    n.turnChecked now = Checked.result (n.turn now).fault (n.turn now) := by
  let woken : Turn := { node := { n with now := now, tick := n.tick + 1 } }
  have hbegin : woken.beginChecked = .ok woken.begin := Turn.beginChecked_eq hplays valid
  have hpolled : (n.polled now).node.machine.Plays r := (n.polled_machine now).1 ▸ hplays.run _
  have hread := (n.read_follows now).plays hpolled
  have hselected := (n.selected_follows now).plays hpolled
  have hretried := (n.retried_follows now).plays hselected
  have hselects : (n.read now).onSignalChecked .selectionTimeout (·.feedChecked (.timer .selection)) =
      .ok (n.selected now) :=
    Turn.onSignalChecked_eq fun s hmachine _ _ => Turn.feedChecked_of_ne_tick (hmachine ▸ hread) valid nofun
  have hretries : (n.selected now).onSignalChecked .retryTimeout (·.feedChecked (.timer .retry)) =
      .ok (n.retried now) :=
    Turn.onSignalChecked_eq fun s hmachine _ _ => Turn.feedChecked_of_ne_tick (hmachine ▸ hselected) valid nofun
  have hasks : (n.retried now).onSignalChecked .keyboardIntent Turn.readIntentsChecked = .ok (n.intended now) :=
    Turn.onSignalChecked_eq fun s hmachine _ _ => Turn.readIntentsChecked_eq (hmachine ▸ hretried) valid
  have hlast := hplays.run ((n.beforeTick now).map (n.moment now, ·))
  rw [← confirmed_machine] at hlast
  have hmoment : ((n.intended now).onSignal .sendConfirmed (Turn.counting Turn.countConfirmation)).moment =
      n.moment now := n.turn_moment now
  unfold turnChecked
  rw [Checked.add_of_lt hroom.tick, Checked.ok_bind]
  change (woken.beginChecked >>= _) = _
  rw [hbegin, Checked.ok_bind, countTickChecked_eq hroom rfl, Checked.ok_bind]
  change ((n.polled now).onSignalChecked .messageArrived Turn.readFramesChecked >>= _) = _
  rw [readChecked_eq hpolled valid hroom, Checked.ok_bind, hselects, Checked.ok_bind, hretries, Checked.ok_bind,
    hasks, Checked.ok_bind, confirmedChecked_eq hroom, Checked.ok_bind, Turn.feedChecked_eq hlast valid,
    confirmed_machine, hmoment, ← turn_fault]
  rfl

end Node

end BoothFloor
