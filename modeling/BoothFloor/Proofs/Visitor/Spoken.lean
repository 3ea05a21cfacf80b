import BoothFloor.Proofs.Visitor.Visits

/-!
# A visitor that has spoken

Whoever has sent something in a turn has nothing more to say in it. Such a visitor is `Spoken`: it has
no scan to begin and no session to end, and since it has dealt with the retry timer no overdue answer
is handled either. A visitor at rest stays so until the tick.
-/

namespace BoothFloor

namespace Visitor

/-- A visitor that waits for its next scan. -/
def Resting (v : Visitor) : Prop := v.phase = .scanning ∧ v.scanOpen = false

/-- A visitor that has nothing more to say by itself in the turn: it has no scan to begin and no session
to end. -/
structure Spoken (m : Moment) (v : Visitor) : Prop where
  closed : v.phase = .scanning → v.scanOpen = false
  scanned : v.phase = .scanning → v.lastScan = m.tick
  entered : ∀ b start, v.phase = .inUse b start → start = m.now

variable {v : Visitor} {m : Moment} {i : Input}

/-- A visitor that drops its booth has nothing more to say. -/
theorem spoken_freed (v : Visitor) (m : Moment) : (v.freed m.tick).Spoken m where
  closed := fun _ => rfl
  scanned := fun _ => rfl
  entered := fun _ _ h => by cases h

/-- A visitor that neither scans nor is inside has nothing more to say. -/
theorem spoken_of_stage (hscanning : v.stage ≠ .scanning) (hinside : v.stage ≠ .inUse) : v.Spoken m where
  closed := fun h => absurd (congrArg Phase.stage h) hscanning
  scanned := fun h => absurd (congrArg Phase.stage h) hscanning
  entered := fun _ _ h => absurd (congrArg Phase.stage h) hinside

/-- Nothing from the air or from the timers makes a visitor speak up again. -/
theorem react_spoken (h : v.Spoken m) (hi : i.isExternal = true) : (v.react m i).1.Spoken m := by
  have hreaction := v.react_reaction m i
  generalize v.react m i = outcome at hreaction
  cases hreaction with
  | idle | showsText | showsChat | showsExit => exact h
  | hears _ _ _ _ _ hphase hopen | connects _ _ hphase hopen =>
    rw [h.closed hphase] at hopen
    cases hopen
  | findsNone hphase hopen =>
    rw [h.closed hphase] at hopen
    cases hopen
  | reconnects | reaffirms | reclaims => exact ⟨h.closed, h.scanned, h.entered⟩
  | enters booth =>
    refine ⟨nofun, nofun, fun b start hphase => ?_⟩
    cases hphase
    rfl
  | accepts | consults | claims | queues | placed => exact spoken_of_stage nofun nofun
  | refused booth => exact spoken_freed _ m
  | losesBooth | givesUp | abandons | dropped | timesOut => exact spoken_freed v m
  | starts | rescans | affirms | declines | leaves | expires | exits | chats | answers => cases hi

/-- A visitor that has spoken on account of the air or of a timer has nothing more to say. -/
theorem spoken_of_sent (hi : i.isExternal = true) (hsent : Action.sent (v.react m i).2 ≠ []) :
    (v.react m i).1.Spoken m := by
  have hreaction := v.react_reaction m i
  generalize v.react m i = outcome at hreaction hsent
  cases hreaction with
  | accepts | claims | connects => exact spoken_of_stage nofun nofun
  | reconnects _ hphase | reaffirms _ hphase | reclaims _ _ hphase =>
    have hstage := congrArg Phase.stage hphase
    refine spoken_of_stage ?_ ?_ <;>
    · change ¬ v.phase.stage = _
      rw [hstage]
      nofun
  | abandons => exact spoken_freed v m
  | starts | rescans | affirms | declines | leaves | expires | exits | chats | answers => cases hi
  | queues =>
    dsimp only at hsent
    split at hsent <;> exact absurd rfl hsent
  | _ => exact absurd rfl hsent

/-- At the tick of a turn in which the visitor has spoken, nothing happens. -/
theorem react_tick_of_spoken (h : v.Spoken m) (interval : 0 < v.rules.scanInterval.toNat) {limit : Span}
    (holds : v.rules.clientLimit = .ok limit) (pos : 0 < limit.ms.toNat) : v.react m .tick = (v, []) := by
  have hreaction := v.react_reaction m .tick
  generalize v.react m .tick = outcome at hreaction
  cases hreaction with
  | idle => rfl
  | rescans hphase _ hdue =>
    rw [h.scanned hphase] at hdue
    omega
  | expires booth start hphase span hholds hlimit =>
    obtain rfl := h.entered booth start hphase
    obtain rfl := Except.ok.inj (hholds.symm.trans holds)
    have hle : span.ms.toNat ≤ (m.now.since m.now).ms.toNat := hlimit
    rw [Instant.toNat_since] at hle
    omega

/-- Whoever speaks on account of a message or of the end of a scan deals with the retry timer. -/
theorem settles_of_sent (hi : i.isExternal = true) (hretry : i ≠ .timer .retry)
    (hsent : Action.sent (v.react m i).2 ≠ []) :
    ∃ act ∈ (v.react m i).2, act.settles .retryTimeout = true := by
  have hreaction := v.react_reaction m i
  generalize v.react m i = outcome at hreaction hsent
  cases hreaction with
  | accepts => exact ⟨.stopTimer .retry, List.mem_cons_self, rfl⟩
  | claims => exact ⟨.startTimer .retry v.rules.registerTimeout, by simp [registerActions], rfl⟩
  | connects => exact ⟨.startTimer .retry v.rules.connectTimeout, by simp [connectActions], rfl⟩
  | reconnects | reaffirms | reclaims | abandons => exact absurd rfl hretry
  | starts | rescans | affirms | declines | leaves | expires | exits | chats | answers => cases hi
  | queues =>
    dsimp only at hsent
    split at hsent <;> exact absurd rfl hsent
  | _ => exact absurd rfl hsent

/-- The end of a scan means nothing to a visitor that has spoken. -/
theorem sent_selection_of_spoken (h : v.Spoken m) :
    Action.sent (v.react m (.timer .selection)).2 = [] := by
  have hreaction := v.react_reaction m (.timer .selection)
  generalize v.react m (.timer .selection) = outcome at hreaction
  cases hreaction with
  | idle | findsNone => rfl
  | connects _ _ hphase hopen =>
    rw [h.closed hphase] at hopen
    cases hopen

/-- Once a visitor has spoken, nothing from the air or from the timers changes that. -/
theorem run_spoken (h : v.Spoken m) {inputs : List Input} (hinputs : ∀ i ∈ inputs, i.isExternal = true) :
    (v.run (inputs.map (m, ·))).1.Spoken m := by
  apply runWith_keeps_at (P := fun w : Visitor => w.Spoken m) h
  exact fun w i hi hw => react_spoken hw (hinputs i hi)

/-- Whoever has spoken on account of the air or of the timers has nothing more to say. -/
theorem run_spoken_of_sent (v : Visitor) {inputs : List Input}
    (hinputs : ∀ i ∈ inputs, i.isExternal = true)
    (hsent : Action.sent (v.run (inputs.map (m, ·))).2 ≠ []) :
    (v.run (inputs.map (m, ·))).1.Spoken m := by
  induction inputs generalizing v with
  | nil => exact absurd rfl hsent
  | cons i rest ih =>
    have hrest : ∀ j ∈ rest, j.isExternal = true := fun j hj => hinputs j (List.mem_cons_of_mem _ hj)
    by_cases hlater : Action.sent ((v.react m i).1.run (rest.map (m, ·))).2 = []
    · change Action.sent ((v.react m i).2 ++ ((v.react m i).1.run (rest.map (m, ·))).2) ≠ [] at hsent
      rw [Action.sent_append, hlater, List.append_nil] at hsent
      exact run_spoken (spoken_of_sent (hinputs i List.mem_cons_self) hsent) hrest
    · exact ih _ hrest hlater

/-- Whoever has spoken on account of messages or of the end of a scan has dealt with the retry timer. -/
theorem run_settles_of_sent (v : Visitor) {inputs : List Input}
    (hinputs : ∀ i ∈ inputs, i.isExternal = true ∧ i ≠ .timer .retry)
    (hsent : Action.sent (v.run (inputs.map (m, ·))).2 ≠ []) :
    ∃ act ∈ (v.run (inputs.map (m, ·))).2, act.settles .retryTimeout = true := by
  induction inputs generalizing v with
  | nil => exact absurd rfl hsent
  | cons i rest ih =>
    have hrest : ∀ j ∈ rest, j.isExternal = true ∧ j ≠ .timer .retry :=
      fun j hj => hinputs j (List.mem_cons_of_mem _ hj)
    change Action.sent ((v.react m i).2 ++ ((v.react m i).1.run (rest.map (m, ·))).2) ≠ [] at hsent
    change ∃ act ∈ (v.react m i).2 ++ ((v.react m i).1.run (rest.map (m, ·))).2, _
    by_cases hlater : Action.sent ((v.react m i).1.run (rest.map (m, ·))).2 = []
    · rw [Action.sent_append, hlater, List.append_nil] at hsent
      obtain ⟨hexternal, hretry⟩ := hinputs i List.mem_cons_self
      obtain ⟨act, hact, hsettles⟩ := settles_of_sent hexternal hretry hsent
      exact ⟨act, List.mem_append_left _ hact, hsettles⟩
    · obtain ⟨act, hact, hsettles⟩ := ih _ hrest hlater
      exact ⟨act, List.mem_append_right _ hact, hsettles⟩

/-- A visitor at rest stays so, whatever it hears and whichever timer fires. -/
theorem react_resting (h : v.Resting) (hi : i.isExternal = true) : (v.react m i).1.Resting := by
  obtain ⟨hphase, hclosed⟩ := h
  have hreaction := v.react_reaction m i
  generalize v.react m i = outcome at hreaction
  cases hreaction with
  | idle | showsText | showsChat | showsExit => exact ⟨hphase, hclosed⟩
  | hears _ _ _ _ _ _ hopen | connects _ _ _ hopen =>
    rw [hclosed] at hopen
    cases hopen
  | findsNone _ hopen =>
    rw [hclosed] at hopen
    cases hopen
  | starts | rescans | affirms | declines | leaves | expires | exits | chats | answers => cases hi
  | enters _ _ _ _ hregistering | queues _ _ _ hregistering =>
    rw [registering?, hphase] at hregistering
    cases hregistering
  | refused | losesBooth | givesUp | abandons | dropped | timesOut => exact ⟨rfl, rfl⟩
  | reconnects | reaffirms | reclaims => exact ⟨hphase, hclosed⟩
  | accepts _ _ _ _ _ _ _ h | consults _ _ _ _ _ _ _ h | claims _ _ _ _ _ h
  | placed _ _ _ _ _ _ _ _ _ h =>
    rw [hphase] at h
    cases h

/-- A visitor at rest that says nothing at a tick stays at rest. -/
theorem react_tick_resting (h : v.Resting) (hsent : Action.sent (v.react m .tick).2 = [])
    (hhosts : v.rules.hosts.ids ≠ []) : (v.react m .tick).1.Resting := by
  have hreaction := v.react_reaction m .tick
  generalize v.react m .tick = outcome at hreaction hsent
  cases hreaction with
  | idle => exact h
  | rescans =>
    rw [startScan_sent, List.map_eq_nil_iff] at hsent
    exact absurd hsent hhosts
  | expires => exact ⟨rfl, rfl⟩

end Visitor

end BoothFloor
