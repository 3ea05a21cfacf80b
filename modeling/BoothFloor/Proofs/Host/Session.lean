import BoothFloor.Proofs.Host.Confirmation

/-!
# How long a host keeps a session

A user inside a booth stays inside until it takes leave, or until the host tells it that its time is
over; there is no third way out. So whoever has been confirmed in a run is inside at its end, unless it
has been told otherwise after the confirmation.
-/

namespace BoothFloor

namespace Host

variable {h : Host} {m : Moment} {i : Input} {u : NodeId}

/-- A request to register of anyone leaves those inside where they are. -/
theorem mem_activeUsers_register {b : Booth} (hin : u ∈ b.activeUsers) (s : NodeId) (now : Instant) :
    u ∈ (b.register s now).2.activeUsers := by
  have hjudged := b.register_judged s now
  generalize b.register s now = outcome at hjudged
  cases hjudged with
  | enters =>
    rw [Booth.activeUsers, Booth.welcome, List.map_append]
    exact List.mem_append_left _ hin
  | _ => exact hin

/-- The exit of another user leaves a user inside where it is. -/
theorem mem_activeUsers_removeActive {b : Booth} (horderly : b.Orderly) (hin : u ∈ b.activeUsers)
    {s : NodeId} (hne : s ≠ u) : u ∈ (b.removeActive s).2.activeUsers := by
  obtain ⟨session, hsession, rfl⟩ := List.mem_map.mp hin
  have hkept : session ∈ b.active.eraseP (·.user == s) := by
    rw [Booth.eraseP_eq_filter horderly.active_nodup, List.mem_filter]
    exact ⟨hsession, by simpa using hne.symm⟩
  exact List.mem_map_of_mem hkept

/-- A sweep leaves a user inside where it is, or tells it that its time is over. -/
theorem sweep_active (horderly : h.booth.Orderly) (hin : u ∈ h.booth.activeUsers) (now : Instant) :
    u ∈ (sweep now h).1.booth.activeUsers ∨ (u, .timeoutAlert) ∈ Action.sent (sweep now h).2 := by
  obtain ⟨session, hsession, rfl⟩ := List.mem_map.mp hin
  by_cases hover : h.rules.sessionDuration ≤ now.since session.start
  · right
    have hexpired : session.user ∈ h.booth.expired now h.rules.sessionDuration :=
      List.mem_map_of_mem (List.mem_filter.mpr ⟨hsession, by simpa using hover⟩)
    rw [sweep_sent, List.append_assoc]
    exact List.mem_append_left _ (List.mem_map_of_mem hexpired)
  · left
    have hkept : session.user ∈ (h.booth.sweepSessions now h.rules.sessionDuration).2.activeUsers := by
      rw [horderly.sweepSessions_eq]
      exact List.mem_map_of_mem (List.mem_filter.mpr ⟨hsession, by simpa using hover⟩)
    have hactive : (sweep now h).1.booth.active =
        (h.booth.sweepSessions now h.rules.sessionDuration).2.active := by
      rw [sweep_fst]
      change (Booth.offerNext _ now).2.active = _
      rw [Booth.offerNext_active]
      rcases Booth.sweepOffer_cases (h.booth.sweepSessions now h.rules.sessionDuration).2 now
        h.rules.queueReadyTimeout with ⟨o, -, -, heq⟩ | heq
      · rw [heq]
      · rw [heq]
    rw [Booth.activeUsers, hactive]
    exact hkept

/-- A user inside stays inside unless it takes leave or is told that its time is over. -/
theorem react_active (horderly : h.booth.Orderly) (hin : u ∈ h.booth.activeUsers)
    (hstays : ∀ rssi snr, i ≠ .message u .exitRequest rssi snr) :
    u ∈ (h.react m i).1.booth.activeUsers ∨ (u, .timeoutAlert) ∈ Action.sent (h.react m i).2 := by
  by_cases htick : i = .tick
  · subst htick
    change u ∈ (h.onTick m).1.booth.activeUsers ∨ _ ∈ Action.sent (h.onTick m).2
    rw [onTick_fst, onTick_sent]
    split
    · exact (sweep_active horderly hin m.now).imp_right (List.mem_append_left _)
    · exact .inl hin
  · left
    have hkept : (h.react m i).1.booth.Orderly ∧ u ∈ (h.react m i).1.booth.activeUsers := by
      apply h.react_keeps (P := fun b => b.Orderly ∧ u ∈ b.activeUsers) m i ⟨horderly, hin⟩
      · exact fun b s _ _ _ hb => ⟨hb.1.register s m.now, mem_activeUsers_register hb.2 s m.now⟩
      · intro b s rssi snr heq hb
        have hne : s ≠ u := fun hsu => hstays rssi snr (hsu ▸ heq)
        exact ⟨hb.1.removeActive s, mem_activeUsers_removeActive hb.1 hb.2 hne⟩
      · intro b s _ _ _ hb
        refine ⟨hb.1.leaveQueue s, ?_⟩
        change u ∈ ((b.removeWaiting s).releaseOffer s).activeUsers
        rw [Booth.releaseOffer_eq]
        exact hb.2
      · exact fun _ _ heq => absurd heq htick
      · exact fun _ _ heq => absurd heq htick
      · intro b hb
        refine ⟨hb.1.offerNext m.now, ?_⟩
        rw [Booth.activeUsers, Booth.offerNext_active]
        exact hb.2
    exact hkept.2

/-- A user inside is so at the end of a run, unless it takes leave or is told that its time is over. -/
theorem run_active (horderly : h.booth.Orderly) (hin : u ∈ h.booth.activeUsers)
    {events : List (Moment × Input)}
    (hstays : ∀ m rssi snr, (m, .message u .exitRequest rssi snr) ∉ events) :
    u ∈ (h.run events).1.booth.activeUsers ∨ (u, .timeoutAlert) ∈ Action.sent (h.run events).2 := by
  induction events generalizing h with
  | nil => exact .inl hin
  | cons e rest ih =>
    obtain ⟨m, i⟩ := e
    change u ∈ ((h.react m i).1.run rest).1.booth.activeUsers ∨
      _ ∈ Action.sent ((h.react m i).2 ++ ((h.react m i).1.run rest).2)
    rw [Action.sent_append, List.mem_append]
    have hfirst : ∀ rssi snr, i ≠ .message u .exitRequest rssi snr :=
      fun rssi snr heq => hstays m rssi snr (heq ▸ List.mem_cons_self)
    rcases react_active (m := m) horderly hin hfirst with hkept | htold
    · have hrest := ih (react_orderly horderly m i) hkept
        fun m rssi snr hmem => hstays m rssi snr (List.mem_cons_of_mem _ hmem)
      exact hrest.imp_right .inr
    · exact .inr (.inl htold)

/-- Whoever has been confirmed in a run is inside at its end, unless it takes leave or is told after the
confirmation that its time is over. -/
theorem active_of_run_confirms (horderly : h.booth.Orderly) {events : List (Moment × Input)}
    (hstays : ∀ m rssi snr, (m, .message u .exitRequest rssi snr) ∉ events)
    {earlier later : List (NodeId × Message)} {reason : RegisterReason}
    (hsent : Action.sent (h.run events).2 = earlier ++ (u, .registerResponse true reason) :: later) :
    u ∈ (h.run events).1.booth.activeUsers ∨ (u, .timeoutAlert) ∈ later := by
  induction events generalizing h earlier with
  | nil => simp [Host.run, runWith, Action.sent] at hsent
  | cons e rest ih =>
    obtain ⟨m, i⟩ := e
    have horderly' := react_orderly horderly m i
    have hstays' : ∀ m rssi snr, (m, .message u .exitRequest rssi snr) ∉ rest :=
      fun m rssi snr hmem => hstays m rssi snr (List.mem_cons_of_mem _ hmem)
    change Action.sent ((h.react m i).2 ++ ((h.react m i).1.run rest).2) = _ at hsent
    change u ∈ ((h.react m i).1.run rest).1.booth.activeUsers ∨ _
    rw [Action.sent_append] at hsent
    rcases List.append_eq_append_iff.mp hsent with ⟨between, -, hrest⟩ | ⟨between, hfirst, hlater⟩
    · exact ih horderly' hstays' hrest
    · cases between with
      | nil =>
        have hrest : Action.sent ((h.react m i).1.run rest).2 =
            [] ++ (u, .registerResponse true reason) :: later := hlater.symm
        exact ih horderly' hstays' hrest
      | cons x between =>
        obtain ⟨rfl, rfl⟩ := List.cons.inj hlater
        have hconfirmed : (u, .registerResponse true reason) ∈ Action.sent (h.react m i).2 := by
          rw [hfirst]
          exact List.mem_append_right _ List.mem_cons_self
        exact (run_active horderly' (react_confirms hconfirmed).2.2 hstays').imp_right
          (List.mem_append_right _)

end Host

end BoothFloor
