import BoothFloor.Proofs.Run
import BoothFloor.Proofs.Visitor.Spoken

/-!
# The cadence of scans

A visitor notes the tick at which a scan starts, a scan ends or it comes back to scanning, and each of these it
reports. It looks at the tick noted last at the end of a turn only, and scans again once an interval has passed. So
within a turn the note is either that of an earlier turn or too fresh for a scan, and a visitor at rest stays as it
is until a tick is due.
-/

namespace BoothFloor

/-- Whether a notice says that a scan has started, that one has ended or that the visitor is back to scanning. -/
def Notice.isScanMark : Notice → Bool
  | .scanStarted | .noBoothFound | .boothSelected .. | .stateChanged _ .scanning => true
  | _ => false

/-- Whether a notice says that a scan has ended, with a booth or without. -/
def Notice.endsScan : Notice → Bool
  | .noBoothFound | .boothSelected .. => true
  | _ => false

namespace Visitor

variable {v : Visitor} {m : Moment} {i : Input} {inputs : List Input}

/-- The tick noted is that of the last mark. -/
theorem react_lastScan (v : Visitor) (m : Moment) (i : Input) : (v.react m i).1.lastScan =
    if (Action.emitted (v.react m i).2).any Notice.isScanMark then m.tick else v.lastScan := by
  have hreaction := v.react_reaction m i
  generalize v.react m i = outcome at hreaction
  cases hreaction with
  | starts | rescans =>
    rw [startScan_emitted]
    rfl
  | enters => rw [markSpent_eq]; rfl
  | queues =>
    dsimp only
    split <;> rfl
  | _ => rfl

/-- A visitor notes the tick of a turn if the turn brings a mark, and otherwise keeps its note. -/
theorem run_lastScan (v : Visitor) (m : Moment) (inputs : List Input) :
    (v.run (inputs.map (m, ·))).1.lastScan =
      if (Action.emitted (v.run (inputs.map (m, ·))).2).any Notice.isScanMark then m.tick else v.lastScan := by
  induction inputs generalizing v with
  | nil => rfl
  | cons i rest ih =>
    rw [List.map_cons, run_cons, Action.emitted_append, List.any_append, ih, react_lastScan]
    cases (Action.emitted (v.react m i).2).any Notice.isScanMark <;> simp

/-- With each scan that starts every host is asked to announce itself, and at no other time. -/
theorem react_scans (v : Visitor) (m : Moment) (i : Input) :
    (Action.sent (v.react m i).2).filter (·.2 = .boothScan) =
      ((Action.emitted (v.react m i).2).filter (· = .scanStarted)).flatMap
        fun _ => v.rules.hosts.ids.map (·, .boothScan) := by
  have hreaction := v.react_reaction m i
  generalize v.react m i = outcome at hreaction
  cases hreaction with
  | starts | rescans =>
    rw [startScan_sent, startScan_emitted, List.filter_eq_self.mpr (by simp)]
    simp
  | queues =>
    dsimp only
    split <;> rfl
  | _ => simp [Action.sent_append, Action.emitted_append]

/-- In a run every host is asked to announce itself with each scan that starts, and at no other time. -/
theorem run_scans (v : Visitor) (events : List (Moment × Input)) :
    (Action.sent (v.run events).2).filter (·.2 = .boothScan) =
      ((Action.emitted (v.run events).2).filter (· = .scanStarted)).flatMap
        fun _ => v.rules.hosts.ids.map (·, .boothScan) := by
  induction events generalizing v with
  | nil => rfl
  | cons e rest ih =>
    rw [run_cons, Action.sent_append, Action.emitted_append, List.filter_append, List.filter_append,
      List.flatMap_append, react_scans, ih, react_rules]

/-- A scan starts with the visitor, or at a tick that is due. -/
theorem scanStarted_of_react (h : .scanStarted ∈ Action.emitted (v.react m i).2) :
    i = .start ∨ i = .tick ∧ v.rules.scanInterval.toNat ≤ m.tick - v.lastScan := by
  have hreaction := v.react_reaction m i
  generalize v.react m i = outcome at hreaction h
  cases hreaction with
  | starts => exact .inl rfl
  | rescans _ _ hdue => exact .inr ⟨rfl, hdue⟩
  | queues =>
    dsimp only at h
    split at h <;> simp at h
  | _ => simp [Action.emitted_append] at h

/-- No reaction reports two scans. -/
theorem count_scanStarted_react_le (v : Visitor) (m : Moment) (i : Input) :
    (Action.emitted (v.react m i).2).count .scanStarted ≤ 1 := by
  have hreaction := v.react_reaction m i
  generalize v.react m i = outcome at hreaction
  cases hreaction with
  | starts | rescans =>
    rw [startScan_emitted]
    exact Nat.le_refl 1
  | queues =>
    dsimp only
    split <;> simp
  | _ => simp [Action.emitted_append]

/-- Between the start and the tick no scan starts. -/
theorem scanStarted_not_mem_run (v : Visitor) (m : Moment) (hinner : ∀ i ∈ inputs, i ≠ .start ∧ i ≠ .tick) :
    .scanStarted ∉ Action.emitted (v.run (inputs.map (m, ·))).2 := by
  induction inputs generalizing v with
  | nil => exact List.not_mem_nil
  | cons i rest ih =>
    rw [List.map_cons, run_cons, Action.emitted_append, List.mem_append, not_or]
    refine ⟨fun h => ?_, ih _ fun j hj => hinner j (List.mem_cons_of_mem _ hj)⟩
    obtain ⟨hstart, htick⟩ := hinner i List.mem_cons_self
    rcases scanStarted_of_react h with hi | ⟨hi, -⟩
    · exact hstart hi
    · exact htick hi

/-- At the tick a scanning visitor scans again if its window is closed and the interval has passed. -/
theorem react_tick_scanning (h : v.phase = .scanning) (m : Moment) : v.react m .tick =
    if !v.scanOpen ∧ v.rules.scanInterval.toNat ≤ m.tick - v.lastScan then startScan m.tick v else (v, []) := by
  change settle v (v.onTick m) = _
  rw [onTick, h]
  dsimp only
  split <;> rfl

/-- After the tick of a turn a scanning visitor has its window open or is not due for another scan. -/
theorem open_or_not_due (h : (v.react m .tick).1.phase = .scanning) (interval : 0 < v.rules.scanInterval.toNat) :
    (v.react m .tick).1.scanOpen = true ∨ m.tick - (v.react m .tick).1.lastScan < v.rules.scanInterval.toNat := by
  cases hphase : v.phase with
  | scanning =>
    rw [react_tick_scanning hphase]
    split
    · exact .inl rfl
    · next hnot =>
      rw [not_and, Bool.not_eq_true', Nat.not_le] at hnot
      exact (Bool.eq_false_or_eq_true v.scanOpen).imp_right hnot
  | _ =>
    -- a visitor that has just come back to scanning has noted this very tick
    have hreaction := v.react_reaction m .tick
    generalize v.react m .tick = outcome at hreaction h
    cases hreaction with
    | idle => simp [hphase] at h
    | rescans hscanning => simp [hphase] at hscanning
    | expires =>
      right
      change m.tick - m.tick < _
      rwa [Nat.sub_self]

/-- What a turn does about scanning, from the start on: at most one scan starts, and only if an interval has passed
since the tick noted before; and if the visitor is scanning in the end its window is open or it is not due. -/
theorem turn_scans (v : Visitor) (m : Moment) (hinner : ∀ i ∈ inputs, i ≠ .start ∧ i ≠ .tick)
    (interval : 0 < v.rules.scanInterval.toNat) :
    let run := v.run ((inputs ++ [Input.tick]).map (m, ·))
    (Action.emitted run.2).count .scanStarted ≤ 1 ∧
      (.scanStarted ∈ Action.emitted run.2 → v.rules.scanInterval.toNat ≤ m.tick - v.lastScan) ∧
      (run.1.phase = .scanning → run.1.scanOpen = true ∨ m.tick - run.1.lastScan < v.rules.scanInterval.toNat) := by
  have hquiet := v.scanStarted_not_mem_run m hinner
  have hnote := v.run_lastScan m inputs
  have hrules := v.run_rules (inputs.map (m, ·))
  intro run
  have hrun : run = _ := runWith_concat ..
  change run = andThen (v.run (inputs.map (m, ·))) (react · m .tick) at hrun
  generalize v.run (inputs.map (m, ·)) = before at hquiet hnote hrules hrun
  rw [hrun, andThen]
  dsimp only
  rw [Action.emitted_append, List.count_append, List.count_eq_zero.mpr hquiet, Nat.zero_add, List.mem_append,
    or_iff_right hquiet]
  refine ⟨count_scanStarted_react_le _ m _, fun hstarts => ?_, fun hphase => ?_⟩
  · rcases scanStarted_of_react hstarts with hi | ⟨-, hdue⟩
    · cases hi
    · rw [hrules, hnote] at hdue
      split at hdue
      · omega
      · exact hdue
  · rw [← hrules] at interval ⊢
    exact open_or_not_due hphase interval

/-- The first turn starts one scan, which is under way in the end or too fresh for another. -/
theorem first_turn_scans (v : Visitor) (m : Moment) (hinner : ∀ i ∈ inputs, i ≠ .start ∧ i ≠ .tick)
    (interval : 0 < v.rules.scanInterval.toNat) :
    let run := v.run ((.start :: (inputs ++ [Input.tick])).map (m, ·))
    (Action.emitted run.2).count .scanStarted = 1 ∧
      (run.1.phase = .scanning → run.1.scanOpen = true ∨ m.tick - run.1.lastScan < v.rules.scanInterval.toNat) := by
  intro run
  have hrun : run = (_, _) := run_cons v (m, .start) ((inputs ++ [Input.tick]).map (m, ·))
  obtain ⟨-, hagain, hdue⟩ := turn_scans (v.react m .start).1 m hinner (by rwa [react_rules])
  rw [react_rules] at hagain hdue
  have hnone : .scanStarted ∉
      Action.emitted ((v.react m .start).1.run ((inputs ++ [Input.tick]).map (m, ·))).2 := fun hmem => by
    have hfresh : (v.react m .start).1.lastScan = m.tick := rfl
    have hpassed := hagain hmem
    rw [hfresh, Nat.sub_self] at hpassed
    exact Nat.not_le.mpr interval hpassed
  rw [hrun]
  refine ⟨?_, hdue⟩
  change (Action.emitted ((startScan m.tick v).2 ++ _)).count .scanStarted = 1
  rw [Action.emitted_append, startScan_emitted, List.count_append, List.count_eq_zero.mpr hnone]
  rfl

/-- Whether a scan is under way. -/
def Scanning (v : Visitor) : Prop := v.phase = .scanning ∧ v.scanOpen = true

/-- Nothing but its timeout ends a scan, and nothing but the start touches the timer meanwhile. -/
theorem Scanning.react (h : v.Scanning) (hstart : i ≠ .start) (htimer : i ≠ .timer .selection) :
    (v.react m i).1.Scanning ∧ ∀ act ∈ (v.react m i).2, act.settles .selectionTimeout = false := by
  obtain ⟨hphase, hopen⟩ := h
  have hreaction := v.react_reaction m i
  generalize v.react m i = outcome at hreaction
  cases hreaction with
  | idle => exact ⟨⟨hphase, hopen⟩, fun _ h => absurd h List.not_mem_nil⟩
  | hears | answers | showsText | showsChat | showsExit => exact ⟨⟨hphase, hopen⟩, by simp [Action.settles]⟩
  | starts => exact absurd rfl hstart
  | findsNone | connects => exact absurd rfl htimer
  | _ => simp_all [registering?]

/-- When its time is up a scan ends. -/
theorem Scanning.ends (h : v.Scanning) (m : Moment) :
    ∃ x ∈ Action.emitted (v.react m (.timer .selection)).2, x.endsScan = true := by
  obtain ⟨hphase, hopen⟩ := h
  have hstage : v.stage = .scanning := by rw [stage, hphase]; rfl
  change ∃ x ∈ Action.emitted (v.onSelectionTimeout m.tick).2, x.endsScan = true
  rw [onSelectionTimeout, if_pos ⟨hstage, hopen⟩]
  dsimp only
  split <;> exact ⟨_, List.mem_cons_self, rfl⟩

end Visitor

end BoothFloor
