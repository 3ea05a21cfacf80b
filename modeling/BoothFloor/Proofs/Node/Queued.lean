import BoothFloor.Proofs.Floor.Delivery
import BoothFloor.Proofs.Host.Replies
import BoothFloor.Proofs.Message.Wire
import BoothFloor.Proofs.Node.Life
import BoothFloor.Proofs.Visitor.Queue

/-!
# A queued visitor learns its place

The answer to a request that is queued is two frames: the visitor is told to wait, and then what its
place is. Only a visitor that waits takes note of a place, so it needs both. An inbox for two frames keeps
them until the visitor's next step; an inbox for one frame is left with the later one, of which the
visitor can make nothing.
-/

namespace BoothFloor

/-- The phase of a visitor's machine. -/
def Machine.phase? : Machine → Option Phase
  | host _ => none
  | visitor v => some v.phase

/-- A machine with a phase is a visitor's. -/
theorem Machine.visitor_of_phase? {s : Machine} {phase : Phase} (h : s.phase? = some phase) :
    ∃ v, s = .visitor v ∧ v.phase = phase := by
  cases s with
  | host => cases h
  | visitor v => exact ⟨v, rfl, Option.some.inj h⟩

namespace Node

variable {n : Node}

/-- A frame with a message without text is heard as that message. -/
theorem hear_of_isPlain (r : Rules) {f : Frame} {msg : Message} (hbytes : f.bytes = Wire.encode msg)
    (hplain : msg.isPlain = true) : r.hear f = some (.message f.source msg f.rssi f.snr) := by
  rw [Rules.hear, hbytes, Wire.decode_encode_of_isPlain _ hplain]

/-- A node into whose inbox some frames were handed hears those that are still there. -/
theorem heard_deliver {frames : List Frame} (hends : 0 < n.inbox.frames.receivers) (hne : frames ≠ []) :
    (frames.foldl deliver n).heard =
      (frames.foldl Mailbox.push n.inbox.frames).items.filterMap n.rules.hear := by
  rw [foldl_deliver, heard, if_pos (foldl_deliver_announced hends (.inl hne)), foldl_deliver_frames]

variable {told placed : Frame} {first second : Message}

/-- An empty inbox with room for two frames lets both be heard. -/
theorem heard_both (hends : 0 < n.inbox.frames.receivers) (hempty : n.inbox.frames.items = [])
    (hroom : 1 < n.inbox.frames.depth) (htold : told.bytes = Wire.encode first) (hfirst : first.isPlain = true)
    (hplaced : placed.bytes = Wire.encode second) (hsecond : second.isPlain = true) :
    ([told, placed].foldl deliver n).heard =
      [.message told.source first told.rssi told.snr, .message placed.source second placed.rssi placed.snr] := by
  rw [heard_deliver hends (List.cons_ne_nil _ _), Mailbox.items_foldl_push_of_le hends (by rwa [hempty]), hempty,
    List.nil_append, List.filterMap_cons_some (hear_of_isPlain n.rules htold hfirst),
    List.filterMap_cons_some (hear_of_isPlain n.rules hplaced hsecond), List.filterMap_nil]

/-- An inbox with room for one frame lets only the later one be heard. -/
theorem heard_later (hends : 0 < n.inbox.frames.receivers) (hempty : n.inbox.frames.items = [])
    (hsingle : n.inbox.frames.depth = 1) (hplaced : placed.bytes = Wire.encode second)
    (hsecond : second.isPlain = true) :
    ([told, placed].foldl deliver n).heard = [.message placed.source second placed.rssi placed.snr] := by
  have hitems : ([told, placed].foldl Mailbox.push n.inbox.frames).items = [placed] := by
    simp [Mailbox.push, Mailbox.send, Nat.ne_of_gt hends, hempty, hsingle]
  rw [heard_deliver hends (List.cons_ne_nil _ _), hitems,
    List.filterMap_cons_some (hear_of_isPlain n.rules hplaced hsecond), List.filterMap_nil]

/-- The start leaves a visitor in its phase. -/
theorem run_opening (n : Node) (v : Visitor) (m : Moment) :
    (v.run (n.opening.map (m, ·))).1.phase = v.phase := by
  unfold opening
  split <;> rfl

/-- The phase of a visitor after a step of its node. -/
theorem step_phase {v : Visitor} (hmachine : n.machine = .visitor v) (now : Instant) (takes : Nat → Bool) :
    (n.step now takes).1.machine.phase? = some (v.run (n.events now)).1.phase := by
  rw [step_machine, hmachine, Machine.run_visitor]
  rfl

/-- A visitor that reads both parts of the answer waits in its place after the step. -/
theorem step_waiting {v : Visitor} (hmachine : n.machine = .visitor v) {booth : NodeId}
    (hphase : v.phase = .connected booth .registration) {position total : UInt8} (hposition : position ≠ 0)
    (htotal : total ≠ 0) {rssi rssi' : Int16} {snr snr' : Int8}
    (hheard : n.heard = [.message booth (.registerResponse false .fullWaiting) rssi snr,
      .message booth (.queueInfo position total) rssi' snr'])
    (hstays : .leaveQueue ∉ n.inbox.intents.items) (now : Instant) (takes : Nat → Bool) :
    (n.step now takes).1.machine.phase? = some (.waiting booth false (some ⟨position, total⟩)) := by
  obtain ⟨later, hinputs, hquiet, hintents⟩ := n.exists_later now
  let m := n.moment now
  let opened := (v.run (n.opening.map (m, ·))).1
  let told := (opened.react m (.message booth (.registerResponse false .fullWaiting) rssi snr)).1
  let placed := (told.react m (.message booth (.queueInfo position total) rssi' snr')).1
  have hopened : opened.phase = .connected booth .registration := (n.run_opening v m).trans hphase
  have htold : told.phase = .waiting booth false none := Visitor.react_fullWaiting hopened m rssi snr
  have hplaced : placed.phase = .waiting booth false (some ⟨position, total⟩) :=
    Visitor.react_queueInfo htold hposition htotal m rssi' snr'
  have hrun : (v.run (n.events now)).1 = (placed.run (later.map (m, ·))).1 := by
    rw [events, hinputs, hheard, List.map_append, Visitor.run, runWith_append]
    rfl
  rw [step_phase hmachine, hrun]
  exact congrArg some (Visitor.run_waiting hplaced hquiet fun hleave => hstays (hintents _ hleave))

/-- A visitor that hears no answer to its registration does not wait after the step. -/
theorem step_not_waiting {v : Visitor} (hmachine : n.machine = .visitor v) (hstage : v.stage ≠ .waiting)
    (hheard : ∀ source success reason rssi snr,
      .message source (.registerResponse success reason) rssi snr ∉ n.heard)
    (now : Instant) (takes : Nat → Bool) :
    (n.step now takes).1.machine.phase?.map Phase.stage ≠ some .waiting := by
  obtain ⟨later, hinputs, hquiet, -⟩ := n.exists_later now
  rw [step_phase hmachine, Option.map_some, ne_eq, Option.some.injEq, events]
  refine Visitor.run_not_waiting hstage fun source success reason rssi snr hmem => ?_
  rw [hinputs, List.mem_append, List.mem_append] at hmem
  rcases hmem with hmem | hmem | hmem
  · cases mem_opening hmem
  · exact hheard _ _ _ _ _ hmem
  · exact hquiet _ _ _ _ hmem

/-- Frames that carry the answer to a request that is queued: there are two, in this order. -/
theorem queued_frames {u booth : NodeId} {position total : UInt8} {frames : List Frame}
    (hframes : frames.map (fun f => (f.source, f.bytes)) =
      ([(u, .registerResponse false .fullWaiting), (u, .queueInfo position total)].filter (·.1 = u)).map
        fun x => (booth, Wire.encode x.2)) :
    ∃ first second, frames = [first, second] ∧ first.source = booth ∧ second.source = booth ∧
      first.bytes = Wire.encode (.registerResponse false .fullWaiting) ∧
      second.bytes = Wire.encode (.queueInfo position total) := by
  simp only [List.filter_cons_of_pos, List.filter_nil, decide_true, List.map_cons, List.map_nil] at hframes
  obtain ⟨first, rest, rfl, hfirst, hrest⟩ := List.map_eq_cons_iff.mp hframes
  obtain ⟨second, rest, rfl, hsecond, hnil⟩ := List.map_eq_cons_iff.mp hrest
  obtain rfl := List.map_eq_nil_iff.mp hnil
  obtain ⟨hsource, hbytes⟩ := Prod.mk.inj hfirst
  obtain ⟨hsource', hbytes'⟩ := Prod.mk.inj hsecond
  exact ⟨first, second, rfl, hsource, hsource', hbytes, hbytes'⟩

/-- A visitor that has asked a booth for admission and is put on its queue knows its place after its next
step, if both frames of the answer arrive before that and nothing else does. So it is with every inbox
for two frames or more. An inbox for one frame keeps the place but not the news that there is one, and
the visitor does not wait. -/
theorem queued_visitor_placed {u : NodeId} {r : Rules} {new : Node} (hnew : ofRules u r = .ok new)
    (past : List Happening) (booth : NodeId) (events : List (Moment × Input)) :
    let n := new.live past
    let h := ((Host.ofRules booth r).run events).1
    n.machine.phase? = some (.connected booth .registration) → n.inbox.frames.items = [] →
    .leaveQueue ∉ n.inbox.intents.items →
    ∀ m rssi snr position total, (h.booth.register u m.now).1 = .queued position total →
    ∀ frames : List Frame, frames.map (fun f => (f.source, f.bytes)) =
      ((Action.sent (h.react m (.message u .registerRequest rssi snr)).2).filter (·.1 = u)).map
        (fun x => (booth, Wire.encode x.2)) →
    ∀ now takes,
      let after := ((frames.foldl deliver n).step now takes).1
      (1 < r.frameDepth.toNat →
        ∃ place, after.machine.phase? = some (.waiting booth false (some place)) ∧
          place.position.toNat = position ∧ place.total.toNat = total) ∧
      (r.frameDepth.toNat = 1 → after.machine.phase?.map Phase.stage ≠ some .waiting) := by
  intro n h hconnected hempty hstays m rssi snr position total hqueued frames hframes now takes
  obtain ⟨hvalid, -, rfl⟩ := ofRules_eq_ok_iff.mp hnew
  have hmake := (fresh r u).live_sameMake past
  have hbounds := hvalid.bounds
  obtain ⟨v, hmachine, hphase⟩ := Machine.visitor_of_phase? hconnected
  have hrules : h.rules = r := (Host.ofRules booth r).run_rules events
  have hguest : h.rules.isHost u = false := by
    rw [hrules]
    exact (guest_of_live hmachine).1
  have horderly : h.booth.Orderly := Host.run_orderly (Booth.orderly_ofRules booth r) events
  have hmax : h.booth.maxUsers = r.maxUsers.toNat := ((Host.ofRules booth r).run_sameFixtures events).maxUsers
  obtain ⟨hfirst, hlast, hlimit⟩ := horderly.queued_bounds hqueued
  have hbyte := hbounds.maxUsers_le
  have hplace : (clampByte position).toNat = position := Host.clampByte_toNat (by omega)
  have hcount : (clampByte total).toNat = total := Host.clampByte_toNat (by omega)
  have hdepth : n.inbox.frames.depth = r.frameDepth.toNat :=
    hmake.depth.trans (Nat.max_eq_left hbounds.frameDepth_pos)
  have hends : 0 < n.inbox.frames.receivers := (connected_live r u past).frames
  rw [Host.queued_sent hguest hqueued] at hframes
  obtain ⟨told, placed, rfl, rfl, hsource, htold, hplaced⟩ := queued_frames hframes
  have hmachine' : ([told, placed].foldl deliver n).machine = .visitor v := hmachine
  constructor
  · intro hroom
    have hheard := heard_both hends hempty (by rwa [hdepth]) htold rfl hplaced rfl
    rw [hsource] at hheard
    have hstays' : .leaveQueue ∉ ([told, placed].foldl deliver n).inbox.intents.items := by
      rwa [foldl_deliver, foldl_deliver_intents]
    refine ⟨⟨clampByte position, clampByte total⟩, ?_, hplace, hcount⟩
    refine step_waiting hmachine' hphase (fun hzero => ?_) (fun hzero => ?_) hheard hstays' now takes
    · rw [hzero] at hplace
      exact absurd hplace (Nat.ne_of_lt hfirst)
    · rw [hzero] at hcount
      exact absurd hcount (Nat.ne_of_lt (Nat.lt_of_lt_of_le hfirst hlast))
  · intro hsingle
    refine step_not_waiting hmachine' ?_ ?_ now takes
    · simp [Visitor.stage, hphase, Phase.stage]
    · rw [heard_later hends hempty (by rwa [hdepth]) hplaced rfl]
      simp

/-- A booth for one visitor, and inboxes for some frames. -/
def oneSlot (depth : UInt64) : Rules := { Rules.brisk with boothCapacity := 1, frameDepth := depth }

/-- A visitor finds a booth, hears its introduction and asks for admission. -/
def registering : List Happening :=
  [.step ⟨0⟩ fun _ => true,
    .deliver ⟨⟨1⟩, Wire.encode (.boothAnnounce ⟨⟨1⟩, 0, 1, 0⟩), -50, 5⟩,
    .step ⟨300⟩ fun _ => true,
    .deliver ⟨⟨1⟩, Wire.encode (.boothInfo 0 1 0 "Booth 1"), -50, 5⟩,
    .step ⟨350⟩ fun _ => true]

/-- Meanwhile another visitor has entered the booth. -/
def taken : List (Moment × Input) := [(⟨⟨10⟩, 1⟩, .message ⟨4⟩ .registerRequest 0 0)]

/-- The two frames by which a visitor learns that it is the first to wait. -/
def firstInLine : List Frame :=
  [⟨⟨1⟩, Wire.encode (.registerResponse false .fullWaiting), -50, 5⟩,
    ⟨⟨1⟩, Wire.encode (.queueInfo 1 1), -50, 5⟩]

/-- With room for two frames the second visitor learns that it is the first to wait. -/
theorem queued_visitor_placed_twoFrames :
    let n := (fresh (oneSlot 2) ⟨5⟩).live registering
    let h := ((Host.ofRules ⟨1⟩ (oneSlot 2)).run taken).1
    (h.booth.register ⟨5⟩ ⟨400⟩).1 = .queued 1 1 ∧
      ∃ place, ((firstInLine.foldl deliver n).step ⟨400⟩ fun _ => true).1.machine.phase? =
          some (.waiting ⟨1⟩ false (some place)) ∧
        place.position.toNat = 1 ∧ place.total.toNat = 1 := by
  intro n h
  have hnew : ofRules ⟨5⟩ (oneSlot 2) = .ok (fresh (oneSlot 2) ⟨5⟩) :=
    ofRules_eq_ok_iff.mpr ⟨by decide, by decide, rfl⟩
  have hqueued : (h.booth.register ⟨5⟩ ⟨400⟩).1 = .queued 1 1 := by decide
  have hconnected : n.machine.phase? = some (.connected ⟨1⟩ .registration) := by decide
  have hframes : firstInLine.map (fun f => (f.source, f.bytes)) =
      ((Action.sent (h.react ⟨⟨400⟩, 1⟩ (.message ⟨5⟩ .registerRequest 0 0)).2).filter (·.1 = ⟨5⟩)).map
        (fun x => (⟨1⟩, Wire.encode x.2)) := by decide
  have hplaced := queued_visitor_placed hnew registering ⟨1⟩ taken hconnected (by decide) (by decide)
    ⟨⟨400⟩, 1⟩ 0 0 1 1 hqueued firstInLine hframes ⟨400⟩ fun _ => true
  exact ⟨hqueued, hplaced.1 (by decide)⟩

/-- With room for one frame only, the second visitor still waits for the answer to its registration when it
has been answered. -/
theorem queued_visitor_unaware_oneFrame :
    let n := (fresh (oneSlot 1) ⟨5⟩).live registering
    let h := ((Host.ofRules ⟨1⟩ (oneSlot 1)).run taken).1
    (oneSlot 1).Valid ∧ n.machine.phase? = some (.connected ⟨1⟩ .registration) ∧
      n.inbox.frames.items = [] ∧ n.inbox.intents.items = [] ∧
      (h.booth.register ⟨5⟩ ⟨400⟩).1 = .queued 1 1 ∧
      firstInLine.map (fun f => (f.source, f.bytes)) =
        ((Action.sent (h.react ⟨⟨400⟩, 1⟩ (.message ⟨5⟩ .registerRequest 0 0)).2).filter (·.1 = ⟨5⟩)).map
          (fun x => (⟨1⟩, Wire.encode x.2)) ∧
      ((firstInLine.foldl deliver n).step ⟨400⟩ fun _ => true).1.machine.phase? =
        some (.connected ⟨1⟩ .registration) := by decide

end Node

end BoothFloor
