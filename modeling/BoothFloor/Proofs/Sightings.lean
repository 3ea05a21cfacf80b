import BoothFloor.Sightings

/-!
# The booths on a table

What an announcement does to a table is one of three things, listed in `Sightings.Recording`; whatever holds of all of
them holds of the table. Only announcements put booths on it, and the booth that is chosen is one of those.
-/

namespace BoothFloor

/-- The better of two entries is one of them. -/
theorem Sighting.better_mem {best : Option Sighting} {e : Sighting} {b : Sighting}
    (h : better best e = some b) : best = some b ∨ e = b := by
  unfold better at h
  split at h
  · split at h
    · exact .inl h
    · exact .inr (Option.some.inj h)
  · exact .inr (Option.some.inj h)

/-- The best of some entries is one of them, or was the best before. -/
theorem Sighting.foldl_better_mem {entries : List Sighting} {best : Option Sighting} {b : Sighting}
    (h : entries.foldl better best = some b) : best = some b ∨ b ∈ entries := by
  induction entries generalizing best with
  | nil => exact .inl h
  | cons e rest ih =>
    rcases ih h with hnext | hrest
    · rcases better_mem hnext with hbest | rfl
      · exact .inl hbest
      · exact .inr List.mem_cons_self
    · exact .inr (List.mem_cons_of_mem e hrest)

namespace Sightings

/-- The booths on a table, in its order. -/
def booths (t : Sightings) : List NodeId := t.entries.map (·.booth)

/-- What an announcement can do to a table, with the answer to it. -/
inductive Recording (t : Sightings) (s : BoothStatus) (rssi : Int16) (snr : Int8) : Bool → Sightings → Prop
  /-- It replaces the earlier one of its booth. -/
  | renews (hlisted : s.booth ∈ t.booths) : Recording t s rssi snr true
      { t with entries := t.entries.map fun old => if old.booth = s.booth then .ofStatus s rssi snr else old }
  /-- It goes to the end. -/
  | joins (hnew : s.booth ∉ t.booths) (hroom : t.entries.length < t.limit) : Recording t s rssi snr true
      { t with entries := t.entries ++ [.ofStatus s rssi snr] }
  /-- It does not fit. -/
  | misses (hnew : s.booth ∉ t.booths) (hfull : t.limit ≤ t.entries.length) : Recording t s rssi snr false t

variable {t t' : Sightings} {s : BoothStatus} {rssi : Int16} {snr : Int8} {noted : Bool} {booth : NodeId} {e : Sighting}

/-- The booth chosen is on the table and not excluded. -/
theorem mem_of_choice {booth : NodeId} (h : t.choice = some booth) :
    ∃ e ∈ t.entries, e.valid = true ∧ e.booth = booth := by
  obtain ⟨e, he, rfl⟩ := Option.map_eq_some_iff.mp h
  rcases Sighting.foldl_better_mem he with hnone | hmem
  · cases hnone
  · obtain ⟨hentry, hvalid⟩ := List.mem_filter.mp hmem
    exact ⟨e, hentry, hvalid, rfl⟩

/-- A booth is looked up by its name. -/
theorem get?_isSome_iff (t : Sightings) (booth : NodeId) : (t.get? booth).isSome = true ↔ booth ∈ t.booths := by
  simp [get?, booths]

/-- An announcement does one of these things. -/
theorem recording_of_record (h : t.record s rssi snr = (noted, t')) : Recording t s rssi snr noted t' := by
  have hlisted := t.get?_isSome_iff s.booth
  unfold record at h
  dsimp only at h
  split at h
  · next hsome =>
    obtain ⟨rfl, rfl⟩ := Prod.mk.inj h
    exact .renews (hlisted.mp hsome)
  · next hnone =>
    split at h
    · next hroom =>
      obtain ⟨rfl, rfl⟩ := Prod.mk.inj h
      exact .joins (mt hlisted.mpr hnone) hroom
    · next hfull =>
      obtain ⟨rfl, rfl⟩ := Prod.mk.inj h
      exact .misses (mt hlisted.mpr hnone) (Nat.not_lt.mp hfull)

/-- An announcement leaves the room that a table has. -/
theorem limit_of_record (h : t.record s rssi snr = (noted, t')) : t'.limit = t.limit := by
  cases recording_of_record h <;> rfl

/-- Nothing comes of an announcement that is refused. -/
theorem eq_of_refused (h : t.record s rssi snr = (false, t')) : t' = t := by
  cases recording_of_record h
  rfl

/-- An announcement is refused exactly if its booth is not on the table and there is no room for one more. -/
theorem record_refused_iff :
    (t.record s rssi snr).1 = false ↔ s.booth ∉ t.booths ∧ t.limit ≤ t.entries.length := by
  rcases hrecord : t.record s rssi snr with ⟨noted, t'⟩
  cases recording_of_record hrecord with
  | renews hlisted => simp [hlisted]
  | joins hnew hroom => simp [Nat.not_le.mpr hroom]
  | misses hnew hfull => simp [hnew, hfull]

/-- An announcement is noted if its booth is on the table or there is room for one more. -/
theorem exists_record (h : s.booth ∉ t.booths → t.entries.length < t.limit) (rssi : Int16) (snr : Int8) :
    ∃ t', t.record s rssi snr = (true, t') ∧ t'.limit = t.limit := by
  rcases hrecord : t.record s rssi snr with ⟨noted, t'⟩
  have hlimit := limit_of_record hrecord
  cases recording_of_record hrecord with
  | renews | joins => exact ⟨_, rfl, hlimit⟩
  | misses hnew hfull => exact absurd (h hnew) (Nat.not_lt.mpr hfull)

/-- An announcement that is noted puts its booth on the table, at the end if it is new. -/
theorem booths_of_record (h : t.record s rssi snr = (true, t')) :
    t'.booths = if s.booth ∈ t.booths then t.booths else t.booths ++ [s.booth] := by
  cases recording_of_record h with
  | renews hlisted =>
    rw [if_pos hlisted, booths, booths, List.map_map]
    refine List.map_congr_left fun e _ => ?_
    rw [Function.comp_apply]
    split
    · next heq => exact heq.symm
    · rfl
  | joins hnew hroom =>
    rw [if_neg hnew]
    exact List.map_append

/-- After an announcement each entry is the announcement or one of another booth as before. -/
theorem entry_of_record (h : t.record s rssi snr = (noted, t')) (he : e ∈ t'.entries) :
    e = .ofStatus s rssi snr ∨ e ∈ t.entries ∧ e.booth ≠ s.booth := by
  have hother (hnew : s.booth ∉ t.booths) (hold : e ∈ t.entries) : e.booth ≠ s.booth :=
    fun heq => hnew (heq ▸ List.mem_map_of_mem hold)
  cases recording_of_record h with
  | renews hlisted =>
    obtain ⟨old, hold, heq⟩ := List.mem_map.mp he
    split at heq
    · exact .inl heq.symm
    · next hother => exact .inr ⟨heq ▸ hold, heq ▸ hother⟩
  | joins hnew hroom =>
    rcases List.mem_append.mp he with hold | hlast
    · exact .inr ⟨hold, hother hnew hold⟩
    · exact .inl (List.mem_singleton.mp hlast)
  | misses hnew hfull => exact .inr ⟨he, hother hnew he⟩

/-- After an announcement the table speaks of the booth announced and of those before. -/
theorem mem_of_record (h : t.record s rssi snr = (noted, t')) (he : e ∈ t'.entries) :
    e.booth = s.booth ∨ e ∈ t.entries := by
  rcases entry_of_record h he with rfl | ⟨hold, -⟩
  · exact .inl rfl
  · exact .inr hold

/-- Excluding a booth from the choice leaves the booths on the table. -/
theorem booths_invalidate (t : Sightings) (booth : NodeId) : (t.invalidate booth).booths = t.booths := by
  rw [booths, booths, invalidate, List.map_map]
  refine List.map_congr_left fun e _ => ?_
  rw [Function.comp_apply]
  split <;> rfl

/-- After a booth was excluded, each entry is an excluded one of it or one of another booth as before. -/
theorem entry_of_invalidate (he : e ∈ (t.invalidate booth).entries) :
    (∃ old ∈ t.entries, old.booth = booth ∧ e = { old with valid := false }) ∨ e ∈ t.entries ∧ e.booth ≠ booth := by
  obtain ⟨old, hold, heq⟩ := List.mem_map.mp he
  split at heq
  · next hbooth => exact .inl ⟨old, hold, hbooth, heq.symm⟩
  · next hother => exact .inr ⟨heq ▸ hold, heq ▸ hother⟩

/-- What is left to choose from once a booth is excluded was there before and is of another booth. -/
theorem valid_of_invalidate (he : e ∈ (t.invalidate booth).entries) (hvalid : e.valid = true) :
    e ∈ t.entries ∧ e.booth ≠ booth := by
  rcases entry_of_invalidate he with ⟨old, -, -, rfl⟩ | hother
  · cases hvalid
  · exact hother

/-- Excluding a booth from the choice brings no booth onto the table. -/
theorem mem_of_invalidate (he : e ∈ (t.invalidate booth).entries) : ∃ old ∈ t.entries, old.booth = e.booth := by
  rcases entry_of_invalidate he with ⟨old, hold, -, rfl⟩ | ⟨hold, -⟩
  · exact ⟨old, hold, rfl⟩
  · exact ⟨e, hold, rfl⟩

end Sightings

end BoothFloor
