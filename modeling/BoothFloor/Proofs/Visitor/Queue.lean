import BoothFloor.Proofs.Run
import BoothFloor.Proofs.Visitor.Reaction

/-!
# How a visitor comes to wait

A visitor comes to wait by the answer to its registration and in no other way. Once it waits it goes on
to do so, in the same place, until it hears from its booth or the person at the console has it leave.
-/

namespace BoothFloor

namespace Visitor

variable {v : Visitor} {booth : NodeId}

/-- The answer by which a booth puts a visitor on its queue. -/
theorem react_fullWaiting (hphase : v.phase = .connected booth .registration) (m : Moment) (rssi : Int16)
    (snr : Int8) :
    (v.react m (.message booth (.registerResponse false .fullWaiting) rssi snr)).1.phase =
      .waiting booth false none := by
  have hbooth : v.booth? = some booth := by rw [booth?, hphase]; rfl
  change (if v.booth? = some booth then v.onRegisterResponse m false .fullWaiting else (v, [])).1.phase = _
  rw [if_pos hbooth, onRegisterResponse, registering?, hphase]
  rfl

/-- A waiting visitor learns its place. -/
theorem react_queueInfo {claiming : Bool} {place : Option Place}
    (hphase : v.phase = .waiting booth claiming place) {position total : UInt8} (hposition : position ≠ 0)
    (htotal : total ≠ 0) (m : Moment) (rssi : Int16) (snr : Int8) :
    (v.react m (.message booth (.queueInfo position total) rssi snr)).1.phase =
      .waiting booth claiming (some ⟨position, total⟩) := by
  have hbooth : v.booth? = some booth := by rw [booth?, hphase]; rfl
  change (if v.booth? = some booth then v.onQueuePosition m.tick position total else (v, [])).1.phase = _
  rw [if_pos hbooth, onQueuePosition, hphase]
  dsimp only
  rw [if_neg (not_or.mpr ⟨hposition, htotal⟩)]

/-- A waiting visitor goes on waiting while nothing is heard, unless it is to leave. -/
theorem react_waiting {place : Option Place} (hphase : v.phase = .waiting booth false place) {m : Moment}
    {i : Input} (hquiet : ∀ source msg rssi snr, i ≠ .message source msg rssi snr)
    (hstays : i ≠ .intent .leaveQueue) : (v.react m i).1.phase = .waiting booth false place := by
  have hreaction := v.react_reaction m i
  generalize v.react m i = outcome at hreaction
  cases hreaction with
  | idle | starts | chats | answers | showsText | showsChat | showsExit => exact hphase
  | hears | accepts | consults | claims | enters | queues | refused | placed | dropped | timesOut =>
    exact absurd rfl (hquiet _ _ _ _)
  | leaves => exact absurd rfl hstays
  -- the other reactions are those of another phase, or of a visitor that claims a slot
  | _ => simp_all

/-- A visitor that does not wait comes to do so only by an answer to its registration. -/
theorem react_not_waiting (hstage : v.stage ≠ .waiting) {m : Moment} {i : Input}
    (hunanswered : ∀ source success reason rssi snr,
      i ≠ .message source (.registerResponse success reason) rssi snr) :
    (v.react m i).1.stage ≠ .waiting := by
  have hreaction := v.react_reaction m i
  generalize v.react m i = outcome at hreaction
  cases hreaction with
  | idle | starts | rescans | hears | findsNone | reconnects | reaffirms | chats | answers | showsText
  | showsChat | showsExit => exact hstage
  | claims _ _ _ _ _ hphase | placed _ _ _ _ _ _ _ _ _ hphase | reclaims _ _ hphase =>
    exact absurd (by rw [stage, hphase]; rfl) hstage
  | queues => exact absurd rfl (hunanswered _ _ _ _ _)
  | _ => simp [stage, Phase.stage, freed]

/-- A waiting visitor goes on waiting for a run in which nothing is heard, unless it is to leave. -/
theorem run_waiting {place : Option Place} (hphase : v.phase = .waiting booth false place) {m : Moment}
    {inputs : List Input} (hquiet : ∀ source msg rssi snr, .message source msg rssi snr ∉ inputs)
    (hstays : .intent .leaveQueue ∉ inputs) :
    (v.run (inputs.map (m, ·))).1.phase = .waiting booth false place := by
  apply runWith_keeps_at (P := fun w : Visitor => w.phase = .waiting booth false place) hphase
  intro w i hi hw
  exact react_waiting hw (fun source msg rssi snr heq => hquiet source msg rssi snr (heq ▸ hi))
    fun heq => hstays (heq ▸ hi)

/-- A visitor that does not wait comes to do so in no run without an answer to its registration. -/
theorem run_not_waiting (hstage : v.stage ≠ .waiting) {m : Moment} {inputs : List Input}
    (hunanswered : ∀ source success reason rssi snr,
      .message source (.registerResponse success reason) rssi snr ∉ inputs) :
    (v.run (inputs.map (m, ·))).1.stage ≠ .waiting := by
  apply runWith_keeps_at (P := fun w : Visitor => w.stage ≠ .waiting) hstage
  intro w i hi hw
  exact react_not_waiting hw fun source success reason rssi snr heq =>
    hunanswered source success reason rssi snr (heq ▸ hi)

end Visitor

end BoothFloor
