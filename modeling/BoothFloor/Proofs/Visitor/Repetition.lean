import BoothFloor.Proofs.Preference
import BoothFloor.Proofs.Visitor.Reaction

/-!
# A visitor that is told something twice

A visitor remembers no messages either. An answer that it has taken is not the one for which it waits next, what
it was told of its place is so again, and a booth that was heard replaces its own entry on the table. The one
message to which it replies each time is the offer of a slot.
-/

namespace BoothFloor

/-- An announcement that is noted again, with the same mark if its booth is spent, leaves the table as it was. -/
theorem Sightings.record_again {t heard again : Sightings} {status : BoothStatus} {rssi : Int16} {snr : Int8}
    {spent : List NodeId} (h : t.record status rssi snr = (true, heard))
    (hagain : (if status.booth ∈ spent then heard.invalidate status.booth else heard).record status rssi snr =
      (true, again)) :
    (if status.booth ∈ spent then again.invalidate status.booth else again) =
      if status.booth ∈ spent then heard.invalidate status.booth else heard := by
  -- the booth is on the table by now, so its entry is replaced
  have hlisted : status.booth ∈ (if status.booth ∈ spent then heard.invalidate status.booth else heard).booths := by
    rw [booths_of_noted h]
    split
    · assumption
    · exact List.mem_append_right _ List.mem_cons_self
  have hentry (e : Sighting)
      (he : e ∈ (if status.booth ∈ spent then heard.invalidate status.booth else heard).entries) :=
    entry_of_noted h he
  generalize (if status.booth ∈ spent then heard.invalidate status.booth else heard) = noted at *
  have hkept (g : Sighting → Sighting) (hg : ∀ e ∈ noted.entries, g e = e) :
      noted.entries.map g = noted.entries :=
    (List.map_congr_left hg).trans (List.map_id _)
  cases recording_of_record hagain with
  | joins hnew => exact absurd hlisted hnew
  | renews =>
    split
    · next hspent =>
      simp only [invalidate, List.map_map]
      rw [hkept]
      intro e he
      rcases hentry e he with rfl | ⟨-, hother⟩
      · simp [Sighting.ofStatus, hspent]
      · simp [hother]
    · next hfresh =>
      rw [hkept]
      intro e he
      rcases hentry e he with rfl | ⟨-, hother⟩
      · simp [Sighting.ofStatus, hfresh]
      · simp [hother]

namespace Visitor

variable {v : Visitor} {m : Moment} {source : NodeId} {rssi : Int16} {snr : Int8}

/-- A waiting visitor claims a slot that its booth offers. -/
theorem react_queueReady {claiming : Bool} {place : Option Place}
    (hphase : v.phase = .waiting source claiming place) (m : Moment) (rssi : Int16) (snr : Int8) :
    v.react m (.message source .queueReady rssi snr) =
      ({ v with registerRetries := 0, phase := .waiting source true place }, v.registerActions source) := by
  have hbooth : v.booth? = some source := by rw [booth?, hphase]; rfl
  change (if v.booth? = some source then v.onQueueReady else (v, [])) = _
  rw [if_pos hbooth, onQueueReady, hphase]

/-- A reaction to a message, had once more, leaves the visitor as the first one did. Nothing is sent but, in reply to
an offer, what was sent the first time. -/
theorem Reaction.again {msg : Message} {once : Visitor × List Action}
    (h : Reaction v m (.message source msg rssi snr) once)
    (honce : v.react m (.message source msg rssi snr) = once) :
    let twice := once.1.react m (.message source msg rssi snr)
    twice.1 = once.1 ∧ Action.sent twice.2 = if msg = .queueReady then Action.sent once.2 else [] := by
  have hreaction := once.1.react_reaction m (.message source msg rssi snr)
  cases h with
  | idle | showsText | showsChat | showsExit =>
    -- nothing has changed, so the second reaction is the first one again
    dsimp only
    rw [honce]
    simp
  | claims claiming place hphase =>
    dsimp only
    rw [react_queueReady rfl]
    exact ⟨rfl, rfl⟩
  | hears source status rssi snr heard hphase hopen hhost hheard =>
    generalize react _ m _ = twice at hreaction
    cases hreaction with
    | idle => exact ⟨rfl, rfl⟩
    | hears _ _ _ _ again _ _ _ hagain =>
      exact ⟨congrArg (fun t => { v with sightings := t }) (Sightings.record_again hheard hagain), rfl⟩
    | _ => simp_all
  | placed _ _ position total claiming place _ _ hmessage hphase hposition =>
    have hready : msg ≠ .queueReady := by rintro rfl; simp at hmessage
    generalize react _ m _ = twice at hreaction
    cases hreaction with
    | placed _ _ position' total' claiming' place' _ _ hmessage' hphase' =>
      obtain ⟨rfl, rfl⟩ : position' = position ∧ total' = total := by
        rcases hmessage with rfl | rfl <;> simpa [eq_comm] using hmessage'
      cases hphase'
      exact ⟨rfl, by simp [hready]⟩
    | dropped _ _ position' total' _ _ _ _ hmessage' _ hposition' =>
      obtain ⟨rfl, rfl⟩ : position' = position ∧ total' = total := by
        rcases hmessage with rfl | rfl <;> simpa [eq_comm] using hmessage'
      exact absurd hposition' hposition
    | idle => exact ⟨rfl, by simp [hready]⟩
    | _ => simp_all
  | dropped _ _ _ _ _ _ _ _ hmessage =>
    have hready : msg ≠ .queueReady := by rintro rfl; simp at hmessage
    generalize react _ m _ = twice at hreaction
    cases hreaction with
    | idle => exact ⟨rfl, by simp [hready]⟩
    | _ => simp_all [registering?, freed]
  | accepts | consults | enters | queues | refused | timesOut =>
    -- the visitor waits for this answer no more
    generalize react _ m _ = twice at hreaction
    cases hreaction with
    | idle => exact ⟨rfl, rfl⟩
    | _ => simp_all [registering?, freed]

end Visitor

end BoothFloor
