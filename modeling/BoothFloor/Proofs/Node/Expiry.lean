import BoothFloor.Proofs.Node.History
import BoothFloor.Proofs.Visitor.Session

/-!
# Sessions that end without an alert

A visitor looks at the length of its session at the tick only, after everything else that a step brings, and any
of that may have ended a session or begun one. A session that has begun in the step is too young to end at its
tick, and a session that something has ended is not there any more; so at the tick exactly those sessions end
that have lasted for the limit and that nothing else has ended.
-/

namespace BoothFloor

namespace Visitor

variable {v : Visitor} {m : Moment} {i : Input} {b : NodeId} {start : Instant} {limit : Span}

/-- Whatever a visitor inside is given before the tick, it stays inside, asks nobody to let it out and reports
neither the start nor the end of a session, unless it is told or asked to leave. -/
theorem react_inside (h : v.phase = .inUse b start) (halert : ∀ rssi snr, i ≠ .message b .timeoutAlert rssi snr)
    (hexit : i ≠ .intent .exit) (htick : i ≠ .tick) :
    (v.react m i).1.phase = .inUse b start ∧
      (Action.sent (v.react m i).2).filter (·.2 = .exitRequest) = [] ∧
      (Action.emitted (v.react m i).2).filter Notice.isSession = [] := by
  have hreaction := v.react_reaction m i
  generalize v.react m i = outcome at hreaction
  cases hreaction with
  | idle | chats | answers | showsText | showsChat | showsExit => simp_all [Notice.isSession]
  | starts =>
    rw [startScan_sent, startScan_emitted]
    simp [startScan, h, Notice.isSession]
  -- the other reactions are those of another phase, or to what would have the visitor leave
  | _ => simp_all [registering?]

/-- A visitor inside stays there for all that comes before a tick, silent about its session, unless it is told or
asked to leave. -/
theorem run_inside (h : v.phase = .inUse b start) {inputs : List Input}
    (halert : ∀ rssi snr, .message b .timeoutAlert rssi snr ∉ inputs) (hexit : .intent .exit ∉ inputs)
    (htick : .tick ∉ inputs) (m : Moment) :
    (v.run (inputs.map (m, ·))).1.phase = .inUse b start ∧
      (Action.sent (v.run (inputs.map (m, ·))).2).filter (·.2 = .exitRequest) = [] ∧
      (Action.emitted (v.run (inputs.map (m, ·))).2).filter Notice.isSession = [] := by
  induction inputs generalizing v with
  | nil => exact ⟨h, rfl, rfl⟩
  | cons i rest ih =>
    simp only [List.mem_cons, not_or] at halert hexit htick
    obtain ⟨hphase, hsent, hreported⟩ := react_inside (m := m) h (fun rssi snr heq => (halert rssi snr).1 heq.symm)
      (fun heq => hexit.1 heq.symm) fun heq => htick.1 heq.symm
    obtain ⟨hphase', hsent', hreported'⟩ := ih hphase (fun rssi snr => (halert rssi snr).2) hexit.2 htick.2
    rw [List.map_cons, run_cons, Action.sent_append, Action.emitted_append, List.filter_append, List.filter_append,
      hsent, hreported]
    exact ⟨hphase', hsent', hreported'⟩

/-- Whoever is inside after some inputs of one moment was so before and was neither told nor asked to leave, or has
come in at this moment. -/
theorem inUse_of_run_at {inputs : List Input} (h : (v.run (inputs.map (m, ·))).1.phase = .inUse b start) :
    (v.phase = .inUse b start ∧ (∀ rssi snr, .message b .timeoutAlert rssi snr ∉ inputs) ∧
      .intent .exit ∉ inputs) ∨ start = m.now := by
  induction inputs generalizing v with
  | nil => exact .inl ⟨h, fun _ _ => List.not_mem_nil, List.not_mem_nil⟩
  | cons i rest ih =>
    rcases ih h with ⟨hnext, halert, hexit⟩ | hbegun
    · rcases inUse_of_react hnext with ⟨hphase, hnow, hnow'⟩ | ⟨hbegun, -⟩
      · simp only [List.mem_cons, not_or]
        exact .inl ⟨hphase, fun rssi snr => ⟨(hnow rssi snr).symm, halert rssi snr⟩, hnow'.symm, hexit⟩
      · exact .inr hbegun
    · exact .inr hbegun

/-- At the tick a visitor inside leaves by itself if its session has lasted for the limit, and does nothing
otherwise. -/
theorem react_tick_inside (h : v.phase = .inUse b start) (holds : v.rules.clientLimit = .ok limit) (m : Moment) :
    v.react m .tick =
      if limit ≤ m.now.since start then
        (v.freed m.tick,
          .send b .exitRequest :: .emit (.sessionEnded b .forcedExpiry) :: v.freedActions)
      else (v, []) := by
  have hstage : v.stage ≠ .scanning := stage_ne_scanning (by rw [booth?, h]; rfl)
  simp only [react, attempt, onTick, h, holds, Checked.ok_bind, endSession, andThen, backToScanning_eq m.tick hstage]
  split <;> rfl

/-- A session ends by itself at a tick only, and only if it has lasted for the limit. -/
theorem overdue_of_forced (h : .sessionEnded b .forcedExpiry ∈ Action.emitted (v.react m i).2) :
    i = .tick ∧ ∃ start limit, v.phase = .inUse b start ∧ v.rules.clientLimit = .ok limit ∧
      limit ≤ m.now.since start := by
  have hreaction := v.react_reaction m i
  generalize v.react m i = outcome at hreaction h
  cases hreaction with
  | expires booth start hphase limit hholds hlimit =>
    simp only [Action.emitted_cons_send, Action.emitted_cons_emit, freedActions_emitted, List.mem_cons,
      Notice.sessionEnded.injEq, and_true, reduceCtorEq, List.not_mem_nil, or_false] at h
    exact ⟨rfl, start, limit, h ▸ hphase, hholds, hlimit⟩
  | queues =>
    dsimp only at h
    split at h <;> simp at h
  | connects => simp [Action.emitted_append] at h
  | _ => simp at h

/-- No session ends by itself before the tick. -/
theorem not_forced_of_run {inputs : List Input} (htick : .tick ∉ inputs) (m : Moment) :
    .sessionEnded b .forcedExpiry ∉ Action.emitted (v.run (inputs.map (m, ·))).2 := by
  induction inputs generalizing v with
  | nil => exact List.not_mem_nil
  | cons i rest ih =>
    simp only [List.mem_cons, not_or] at htick
    rw [List.map_cons, run_cons, Action.emitted_append, List.mem_append]
    rintro (hfirst | hrest)
    · exact htick.1 (overdue_of_forced hfirst).1.symm
    · exact ih htick.2 hrest

/-- A session ends by itself in a turn exactly if it was open before, has lasted for the limit and nothing in the
turn has ended it. -/
theorem forced_iff {inputs : List Input} (htick : .tick ∉ inputs) (holds : v.rules.clientLimit = .ok limit)
    (hpos : 0 < limit.ms.toNat) :
    .sessionEnded b .forcedExpiry ∈ Action.emitted (v.run ((inputs ++ [Input.tick]).map (m, ·))).2 ↔
      ∃ start, v.phase = .inUse b start ∧ limit ≤ m.now.since start ∧
        (∀ rssi snr, .message b .timeoutAlert rssi snr ∉ inputs) ∧ .intent .exit ∉ inputs := by
  rw [run_concat, Action.emitted_append, List.mem_append, or_iff_right (not_forced_of_run htick m)]
  constructor
  · intro hforced
    obtain ⟨-, start, _, hphase, hholds, hlimit⟩ := overdue_of_forced hforced
    rw [run_rules, holds] at hholds
    injection hholds with hspan
    rw [← hspan] at hlimit
    rcases inUse_of_run_at hphase with ⟨hbefore, halert, hexit⟩ | rfl
    · exact ⟨start, hbefore, hlimit, halert, hexit⟩
    · -- a session of this moment has not lasted at all
      have hle : limit.ms.toNat ≤ (m.now.since m.now).ms.toNat := hlimit
      rw [Instant.toNat_since] at hle
      omega
  · rintro ⟨start, hphase, hlimit, halert, hexit⟩
    have hinside := (run_inside hphase halert hexit htick m).1
    rw [react_tick_inside hinside ((congrArg Rules.clientLimit (v.run_rules _)).trans holds), if_pos hlimit]
    simp

/-- A session that ends by itself does so in one way: the visitor asks its booth to let it out, once, reports this
end of a session and nothing else of one, and scans. -/
theorem forced_ends {inputs : List Input} (h : v.phase = .inUse b start)
    (halert : ∀ rssi snr, .message b .timeoutAlert rssi snr ∉ inputs) (hexit : .intent .exit ∉ inputs)
    (htick : .tick ∉ inputs) (holds : v.rules.clientLimit = .ok limit) (hlimit : limit ≤ m.now.since start) :
    let run := v.run ((inputs ++ [Input.tick]).map (m, ·))
    run.1.phase = .scanning ∧ (Action.sent run.2).filter (·.2 = .exitRequest) = [(b, .exitRequest)] ∧
      (Action.emitted run.2).filter Notice.isSession = [.sessionEnded b .forcedExpiry] := by
  obtain ⟨hinside, hsent, hreported⟩ := run_inside h halert hexit htick m
  intro run
  have hrun : run = _ := run_concat ..
  rw [react_tick_inside hinside ((congrArg Rules.clientLimit (v.run_rules _)).trans holds), if_pos hlimit] at hrun
  rw [hrun, Action.sent_append, Action.emitted_append, List.filter_append, List.filter_append, hsent, hreported]
  exact ⟨rfl, rfl, rfl⟩

/-- Whoever is inside after a turn has not been there for the limit. -/
theorem lt_limit_of_inUse {inputs : List Input} (holds : v.rules.clientLimit = .ok limit)
    (h : (v.run ((inputs ++ [Input.tick]).map (m, ·))).1.phase = .inUse b start) : m.now.since start < limit := by
  rw [run_concat] at h
  rcases inUse_of_react h with ⟨hbefore, -⟩ | ⟨-, _, _, _, heq⟩
  · rw [react_tick_inside hbefore ((congrArg Rules.clientLimit (v.run_rules _)).trans holds)] at h
    split at h
    · cases h
    · next hyoung => exact Span.not_le.mp hyoung
  · cases heq

end Visitor

namespace Node

variable {id : NodeId} {r : Rules}

/-- Whatever happens to the node of a visitor and whatever its clock reads, after a step its session, if it has one,
is younger than the limit that the visitor keeps to by itself. In a step a session ends by itself exactly if it was
open before, has reached the limit and is ended by nothing else that the step brings, be it an alert or the wish to
leave; and then the step asks the booth to let the visitor out, once, reports this one end of a session and leaves
the visitor scanning. -/
theorem live_sessions_end {new : Node} (hnew : ofRules id r = .ok new) (hguest : r.isHost id = false)
    (hfits : r.sessionDuration.ms.toNat + r.sessionGrace.ms.toNat < 2 ^ 64) (past : List Happening) (now : Instant)
    (takes : Nat → Bool) :
    let n := new.live past
    let next := n.step now takes
    let limit := r.sessionDuration.ms.toNat + r.sessionGrace.ms.toNat
    ∃ before after : Visitor, n.machine = .visitor before ∧ next.1.machine = .visitor after ∧
      (∀ booth start, after.phase = .inUse booth start → now.ms.toNat - start.ms.toNat < limit) ∧
      ∀ booth,
        (.sessionEnded booth .forcedExpiry ∈ next.2.notices ↔ ∃ start, before.phase = .inUse booth start ∧
          limit ≤ now.ms.toNat - start.ms.toNat ∧
          (∀ rssi snr, .message booth .timeoutAlert rssi snr ∉ n.inputs now) ∧ .intent .exit ∉ n.inputs now) ∧
        (.sessionEnded booth .forcedExpiry ∈ next.2.notices →
          (next.2.sent.filter (·.message = .exitRequest)).map (·.dest) = [booth] ∧
          next.2.notices.filter Notice.isSession = [.sessionEnded booth .forcedExpiry] ∧
          after.phase = .scanning) := by
  intro n next limit
  obtain ⟨hvalid, -, rfl⟩ := ofRules_eq_ok_iff.mp hnew
  obtain ⟨before, hbefore, hrules⟩ := visitor_of_live hguest past
  have htick : .tick ∉ n.beforeTick now := fun hmem => n.tick_not_mem now _ hmem rfl
  let run := before.run ((n.beforeTick now ++ [Input.tick]).map (n.moment now, ·))
  have hrun : n.machine.run (n.events now) = (.visitor run.1, run.2) := by
    rw [events, inputs_eq, hbefore, Machine.run_visitor]
  have hmachine : next.1.machine = .visitor run.1 := by rw [step_machine, hrun]
  have hnotices : next.2.notices = Action.emitted run.2 := by
    rw [step_notices, hrun]
  have hsent : next.2.sent.map (fun d => (d.dest, d.message)) = Action.sent run.2 := by
    rw [step_sent, hrun]
  obtain ⟨span, holds⟩ : ∃ span, r.clientLimit = .ok span := ⟨_, (r.clientLimit_eq).trans (if_pos hfits)⟩
  have hown : before.rules.clientLimit = .ok span := hrules ▸ holds
  have hlasted (start : Instant) : span ≤ now.since start ↔ limit ≤ now.ms.toNat - start.ms.toNat :=
    Rules.clientLimit_le_since_iff holds now start
  have hforced (booth : NodeId) : .sessionEnded booth .forcedExpiry ∈ next.2.notices ↔ ∃ start,
      before.phase = .inUse booth start ∧ span ≤ now.since start ∧
        (∀ rssi snr, .message booth .timeoutAlert rssi snr ∉ n.beforeTick now) ∧
          .intent .exit ∉ n.beforeTick now := by
    rw [hnotices]
    exact Visitor.forced_iff htick hown (Rules.clientLimit_pos hvalid holds)
  refine ⟨before, run.1, hbefore, hmachine, fun booth start hinside => ?_, fun booth => ⟨?_, fun hends => ?_⟩⟩
  · exact Nat.lt_of_not_le fun hle => Span.not_le.mpr (Visitor.lt_limit_of_inUse hown hinside) ((hlasted start).mpr hle)
  · simp only [hforced, hlasted, inputs_eq, List.mem_append, List.mem_singleton, reduceCtorEq, or_false]
  · obtain ⟨start, hphase, hlimit, halert, hexit⟩ := (hforced booth).mp hends
    obtain ⟨hscanning, hasked, hreported⟩ :=
      Visitor.forced_ends (m := n.moment now) hphase halert hexit htick hown hlimit
    refine ⟨?_, hnotices ▸ hreported, hscanning⟩
    have hdests : (next.2.sent.filter (·.message = .exitRequest)).map (·.dest) =
        ((Action.sent run.2).filter (·.2 = .exitRequest)).map (·.1) := by
      rw [← hsent, List.filter_map, List.map_map]
      rfl
    rw [hdests, hasked]
    rfl

/-- A visitor that is let in at 400 and neither hears an alert nor leaves, up to its last millisecond inside. -/
def overstay : List Happening := shortVisit.take 7 ++ [.step ⟨5899⟩ fun _ => true]

/-- The visitor is still inside at 5899 and leaves by itself at 5900. -/
theorem live_sessions_end_overstay :
    let n := (fresh .brisk ⟨4⟩).live overstay
    let next := n.step ⟨5900⟩ fun _ => true
    (∃ v, n.machine = .visitor v ∧ v.phase = .inUse ⟨1⟩ ⟨400⟩) ∧
      (next.2.sent.filter (·.message = .exitRequest)).map (·.dest) = [⟨1⟩] ∧
      next.2.notices.filter Notice.isSession = [.sessionEnded ⟨1⟩ .forcedExpiry] := by
  intro n next
  have hnew : ofRules ⟨4⟩ .brisk = .ok (fresh .brisk ⟨4⟩) := ofRules_eq_ok_iff.mpr ⟨by decide, by decide, rfl⟩
  obtain ⟨before, after, hbefore, -, -, hends⟩ :=
    live_sessions_end hnew (by decide) (by decide) overstay ⟨5900⟩ fun _ => true
  have hphase : (match n.machine with | .visitor v => v.phase | .host _ => .scanning) = .inUse ⟨1⟩ ⟨400⟩ := by
    decide +kernel
  obtain ⟨hasked, hreported, -⟩ := (hends ⟨1⟩).2 (by decide +kernel)
  change n.machine = .visitor before at hbefore
  rw [hbefore] at hphase
  exact ⟨⟨before, hbefore, hphase⟩, hasked, hreported⟩

end Node

end BoothFloor
