import BoothFloor.Proofs.Visitor.Errand

/-!
# How a visitor comes to be inside

At the end of a run a visitor is inside a booth only for one of two reasons: it was before and has
heard no alert, or it has heard a confirmation and no alert since.
-/

namespace BoothFloor

namespace Visitor

variable {v : Visitor} {m : Moment} {i : Input} {b : NodeId}

/-- An alert from its booth makes a visitor leave. -/
theorem react_alert {start : Instant} (h : v.phase = .inUse b start) (m : Moment) (rssi : Int16)
    (snr : Int8) : (v.react m (.message b .timeoutAlert rssi snr)).1.phase = .scanning := by
  have hbooth : v.booth? = some b := by
    rw [booth?, h]
    rfl
  change (if v.booth? = some b then v.onTimeoutAlert m.tick else (v, [])).1.phase = .scanning
  rw [if_pos hbooth, onTimeoutAlert, h]
  rfl

/-- A visitor whom the person at the console has leave does so. -/
theorem react_exit {start : Instant} (h : v.phase = .inUse b start) (m : Moment) :
    (v.react m (.intent .exit)).1.phase = .scanning := by
  simp only [react, attempt, settle, onIntent, h]
  rfl

/-- Whoever is inside after an input was so before and neither heard the alert nor was to leave, or has come in at
this moment, by a confirmation. -/
theorem inUse_of_react {start : Instant} (h : (v.react m i).1.phase = .inUse b start) :
    (v.phase = .inUse b start ∧ (∀ rssi snr, i ≠ .message b .timeoutAlert rssi snr) ∧ i ≠ .intent .exit) ∨
      (start = m.now ∧ ∃ reason rssi snr, i = .message b (.registerResponse true reason) rssi snr) := by
  have hreaction := v.react_reaction m i
  have hstays (hphase : v.phase = .inUse b start) :
      (∀ rssi snr, i ≠ .message b .timeoutAlert rssi snr) ∧ i ≠ .intent .exit := by
    constructor
    · rintro rssi snr rfl
      rw [react_alert hphase] at h
      cases h
    · rintro rfl
      rw [react_exit hphase] at h
      cases h
  generalize v.react m i = outcome at hreaction h
  cases hreaction with
  | enters booth reason rssi snr =>
    cases h
    exact .inr ⟨rfl, reason, rssi, snr, rfl⟩
  | idle | chats | answers | showsText | showsChat | showsExit | starts | rescans | hears | findsNone
  | reconnects | reaffirms | reclaims => exact .inl ⟨h, hstays h⟩
  | _ => cases h

/-- Whoever is inside after a run was so before and has not heard the alert, or has heard the
confirmation and no alert since. -/
theorem inUse_of_run {events : List (Moment × Input)} {start : Instant}
    (h : (v.run events).1.phase = .inUse b start) :
    ((∃ since, v.phase = .inUse b since) ∧
        ∀ m rssi snr, (m, .message b .timeoutAlert rssi snr) ∉ events) ∨
      ∃ before after m reason rssi snr,
        events = before ++ (m, .message b (.registerResponse true reason) rssi snr) :: after ∧
          ∀ m rssi snr, (m, .message b .timeoutAlert rssi snr) ∉ after := by
  induction events generalizing v with
  | nil => exact .inl ⟨⟨start, h⟩, fun _ _ _ => List.not_mem_nil⟩
  | cons e rest ih =>
    obtain ⟨m, i⟩ := e
    rcases ih h with ⟨⟨since, hsince⟩, hrest⟩ | ⟨before, after, m', reason, rssi, snr, rfl, hafter⟩
    · rcases inUse_of_react hsince with ⟨hbefore, halert, -⟩ | ⟨-, reason, rssi, snr, rfl⟩
      · refine .inl ⟨⟨since, hbefore⟩, fun m' rssi snr hmem => ?_⟩
        rcases List.mem_cons.mp hmem with heq | hmem
        · exact halert rssi snr (Prod.mk.inj heq).2.symm
        · exact hrest m' rssi snr hmem
      · exact .inr ⟨[], rest, m, reason, rssi, snr, rfl, hrest⟩
    · exact .inr ⟨(m, i) :: before, after, m', reason, rssi, snr, rfl, hafter⟩

/-- A visitor at rest scans at the end of the turn. -/
theorem run_of_resting (h : v.Resting) {heard : List Input} (hheard : AllMessages heard)
    (selects retries : Bool) :
    (v.run ((turnInputs heard selects retries).map (m, ·))).1.phase = .scanning := by
  have hresting : (v.run ((upToRetry heard selects retries).map (m, ·))).1.Resting := by
    apply runWith_keeps_at (P := Visitor.Resting) h
    exact fun w i hi hw => react_resting hw (isExternal_upToRetry hheard selects retries i hi)
  rw [turnInputs, run_concat]
  generalize (v.run ((upToRetry heard selects retries).map (m, ·))).1 = w at hresting
  have hreaction := w.react_reaction m .tick
  dsimp only
  generalize w.react m .tick = outcome at hreaction
  cases hreaction with
  | idle => exact hresting.1
  | rescans => exact hresting.1
  | expires => rfl

end Visitor

end BoothFloor
