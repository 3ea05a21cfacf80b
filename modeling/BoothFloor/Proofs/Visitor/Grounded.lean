import BoothFloor.Proofs.Sightings
import BoothFloor.Proofs.Visitor.Visits

/-!
# With whom a visitor deals

A visitor deals with hosts only: it chooses among the booths that it has heard of, and it heeds no
announcement but that of a host.
-/

namespace BoothFloor

namespace Visitor

/-- Every booth that the visitor deals with or might choose is a host's. -/
structure Grounded (v : Visitor) : Prop where
  booth : ∀ b, v.booth? = some b → v.rules.isHost b = true
  sightings : ∀ e ∈ v.sightings.entries, v.rules.isHost e.booth = true

/-- A new visitor deals with nobody. -/
theorem grounded_ofRules (id : NodeId) (r : Rules) : (ofRules id r).Grounded where
  booth := fun _ h => by cases h
  sightings := fun _ h => absurd h List.not_mem_nil

/-- A visitor that drops its booth deals with nobody. -/
theorem grounded_freed (v : Visitor) (tick : Nat) : (v.freed tick).Grounded where
  booth := fun _ h => by cases h
  sightings := fun _ h => absurd h List.not_mem_nil

/-- Every reaction leaves the visitor with hosts only. -/
theorem react_grounded {v : Visitor} (h : v.Grounded) (m : Moment) (i : Input) :
    (v.react m i).1.Grounded := by
  have hown {b : NodeId} (hb : v.phase.booth? = some b) : v.rules.isHost b = true := h.booth b hb
  have hreaction := v.react_reaction m i
  generalize v.react m i = outcome at hreaction
  cases hreaction with
  | idle | chats | answers | showsText | showsChat | showsExit => exact h
  | reconnects | reaffirms | reclaims => exact ⟨h.booth, h.sightings⟩
  | starts => exact ⟨h.booth, fun _ he => absurd he List.not_mem_nil⟩
  | rescans => exact ⟨h.booth, fun _ he => absurd he List.not_mem_nil⟩
  | findsNone => exact ⟨h.booth, fun _ he => absurd he List.not_mem_nil⟩
  | hears source s rssi snr heard hphase hopen hhost hheard =>
    have hrecorded : ∀ e ∈ heard.entries, v.rules.isHost e.booth = true := by
      intro e he
      rcases Sightings.mem_of_record hheard he with hnew | hold
      · rw [hnew]
        exact hhost
      · exact h.sightings e hold
    refine ⟨h.booth, fun e he => ?_⟩
    dsimp only at he
    split at he
    · obtain ⟨old, hold, heq⟩ := Sightings.mem_of_invalidate he
      rw [← heq]
      exact hrecorded old hold
    · exact hrecorded e he
  | connects booth score hphase hopen hchoice =>
    refine ⟨fun b hb => ?_, h.sightings⟩
    obtain rfl := Option.some.inj hb
    obtain ⟨e, he, -, rfl⟩ := Sightings.mem_of_choice hchoice
    exact h.sightings e he
  | accepts booth current capacity waiting description rssi snr hphase
  | consults booth current capacity waiting description rssi snr hphase
  | affirms booth hphase
  | claims booth claiming place rssi snr hphase
  | placed booth message position total claiming place rssi snr hmessage hphase =>
    refine ⟨fun b hb => ?_, h.sightings⟩
    obtain rfl := Option.some.inj hb
    exact hown (by rw [hphase]; rfl)
  | enters booth reason rssi snr hregistering =>
    rw [markSpent_eq]
    refine ⟨fun b hb => ?_, h.sightings⟩
    obtain rfl := Option.some.inj hb
    exact h.booth _ (booth?_of_registering? hregistering)
  | queues booth rssi snr hregistering =>
    refine ⟨fun b hb => ?_, h.sightings⟩
    obtain rfl := Option.some.inj hb
    exact h.booth _ (booth?_of_registering? hregistering)
  | refused => exact grounded_freed _ _
  | _ => exact grounded_freed v m.tick

/-- A run leaves the visitor with hosts only. -/
theorem run_grounded {v : Visitor} (h : v.Grounded) (events : List (Moment × Input)) : (v.run events).1.Grounded :=
  runWith_keeps h fun _ m i _ hw => react_grounded hw m i

end Visitor

end BoothFloor
