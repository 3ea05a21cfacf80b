import BoothFloor.Proofs.Checked.Visitor
import BoothFloor.Proofs.Preference

/-!
# The first best booth

A table is no more than its entries here: in whatever order they stand, of whatever booths they speak and whichever of
them are excluded. The booth that is chosen is that of the first best entry among those that are not excluded. The ones
that are excluded have no part in the choice, and no score goes beyond its word.
-/

namespace BoothFloor

namespace Sighting

variable {entries earlier later : List Sighting} {e f : Sighting}

/-- An entry between others is the first best one: it is not excluded, and of those that are not excluded either the
ones before it are worse and the ones after it are not better. -/
structure FirstBest (earlier : List Sighting) (e : Sighting) (later : List Sighting) : Prop where
  valid : e.valid = true
  worse : ∀ f ∈ earlier, f.valid = true → f.score < e.score
  notBetter : ∀ f ∈ later, f.valid = true → f.score ≤ e.score

/-- No more than one entry is the earliest best one. -/
theorem EarliestBest.unique (he : EarliestBest entries e) (hf : EarliestBest entries f) : f = e := by
  have hef : e.score ≤ f.score := hf.score_le he.mem
  have hfe : f.score ≤ e.score := he.score_le hf.mem
  obtain ⟨earlier, later, rfl, hearlier, -⟩ := he
  obtain ⟨earlier', later', hsplit, hearlier', -⟩ := hf
  -- if one of the two stood before the other, its score would be lower
  rcases List.append_eq_append_iff.mp hsplit with ⟨between, rfl, hrest⟩ | ⟨between, rfl, hrest⟩
  · cases between with
    | nil => exact (List.cons.inj hrest).1.symm
    | cons g between =>
      obtain ⟨rfl, -⟩ := List.cons.inj hrest
      exact absurd (hearlier' e (by simp)) (Int.not_lt.mpr hfe)
  · cases between with
    | nil => exact (List.cons.inj hrest).1
    | cons g between =>
      obtain ⟨rfl, -⟩ := List.cons.inj hrest
      exact absurd (hearlier f (by simp)) (Int.not_lt.mpr hef)

/-- The earliest best of the entries that are not excluded is the first best of all. -/
theorem earliestBest_filter_iff : EarliestBest (entries.filter (·.valid)) e ↔
    ∃ earlier later, entries = earlier ++ e :: later ∧ FirstBest earlier e later := by
  constructor
  · rintro ⟨front, back, hsplit, hfront, hback⟩
    obtain ⟨first, rest, rfl, rfl, hrest⟩ := List.filter_eq_append_iff.mp hsplit
    obtain ⟨skipped, later, rfl, hskipped, hvalid, rfl⟩ := List.filter_eq_cons_iff.mp hrest
    refine ⟨first ++ skipped, later, by simp, hvalid, fun f hf hfvalid => ?_, fun f hf hfvalid => ?_⟩
    · rcases List.mem_append.mp hf with hf | hf
      · exact hfront f (List.mem_filter.mpr ⟨hf, hfvalid⟩)
      · exact absurd hfvalid (hskipped f hf)
    · exact hback f (List.mem_filter.mpr ⟨hf, hfvalid⟩)
  · rintro ⟨earlier, later, rfl, hbest⟩
    refine ⟨earlier.filter (·.valid), later.filter (·.valid), ?_, fun f hf => ?_, fun f hf => ?_⟩
    · rw [List.filter_append, List.filter_cons_of_pos hbest.valid]
    · obtain ⟨hf, hfvalid⟩ := List.mem_filter.mp hf
      exact hbest.worse f hf hfvalid
    · obtain ⟨hf, hfvalid⟩ := List.mem_filter.mp hf
      exact hbest.notBetter f hf hfvalid

/-- There is no best entry exactly if every entry is excluded. -/
theorem best_eq_none_iff : best entries = none ↔ ∀ e ∈ entries, e.valid = false := by
  have hall : entries.filter (·.valid) = [] ↔ ∀ e ∈ entries, e.valid = false := by
    simp [List.filter_eq_nil_iff]
  rw [← hall, best]
  rcases foldl_better (entries.filter (·.valid)) with ⟨hnone, hempty⟩ | ⟨e, hsome, hbest⟩
  · simp [hempty]
  · simp [hsome, List.ne_nil_of_mem hbest.mem]

/-- The best entry is the first best one. -/
theorem best_eq_some_iff : best entries = some e ↔
    ∃ earlier later, entries = earlier ++ e :: later ∧ FirstBest earlier e later := by
  rw [← earliestBest_filter_iff, best]
  rcases foldl_better (entries.filter (·.valid)) with ⟨hnone, hempty⟩ | ⟨f, hsome, hbest⟩
  · rw [hnone, hempty]
    exact ⟨nofun, fun h => absurd h.mem List.not_mem_nil⟩
  · rw [hsome, Option.some.injEq]
    exact ⟨fun heq => heq ▸ hbest, fun h => h.unique hbest⟩

end Sighting

namespace Sightings

/-- The choice from a table is the booth of the first best entry, whatever the entries are. There is none exactly if
every entry is excluded. An excluded entry has no part in it: two tables that differ in their excluded entries only
give the same choice. And the loop that makes it, with the score of each entry added up in a word of 32 bits, goes
through. -/
theorem chooses_first_best (t : Sightings) :
    (t.choice = none ↔ ∀ e ∈ t.entries, e.valid = false) ∧
      (∀ booth, t.choice = some booth ↔ ∃ earlier e later, t.entries = earlier ++ e :: later ∧
        Sighting.FirstBest earlier e later ∧ e.booth = booth) ∧
      (∀ u : Sightings, u.entries.filter (·.valid) = t.entries.filter (·.valid) → u.choice = t.choice) ∧
      t.choiceChecked = .ok t.choice ∧ ∀ e : Sighting, e.scoreChecked = .ok e.score := by
  refine ⟨?_, fun booth => ?_, fun u hsame => ?_, t.choiceChecked_eq, Sighting.scoreChecked_eq⟩
  · rw [choice, Option.map_eq_none_iff]
    exact Sighting.best_eq_none_iff
  · rw [choice, Option.map_eq_some_iff]
    constructor
    · rintro ⟨e, he, hbooth⟩
      obtain ⟨earlier, later, hsplit, hbest⟩ := Sighting.best_eq_some_iff.mp he
      exact ⟨earlier, e, later, hsplit, hbest, hbooth⟩
    · rintro ⟨earlier, e, later, hsplit, hbest, hbooth⟩
      exact ⟨e, Sighting.best_eq_some_iff.mpr ⟨earlier, later, hsplit, hbest⟩, hbooth⟩
  · rw [choice, choice, Sighting.best, Sighting.best, hsame]

/-- A row of entries: the loudest one is excluded, two booths are level, and the second of them has an entry more. -/
def levelBooths : Sightings where
  limit := 4
  entries := [⟨⟨9⟩, -20, 5, 0, 2, 0, false⟩, ⟨⟨2⟩, -50, 5, 2, 2, 0, true⟩, ⟨⟨1⟩, -60, 5, 1, 2, 1, true⟩,
    ⟨⟨2⟩, -90, 5, 0, 2, 0, true⟩]

/-- The first of the two level booths is chosen, with or without the excluded one. -/
theorem chooses_first_best_levelBooths :
    levelBooths.choice = some ⟨2⟩ ∧ { levelBooths with entries := levelBooths.entries.tail }.choice = some ⟨2⟩ ∧
      levelBooths.choiceChecked = .ok (some ⟨2⟩) := by
  obtain ⟨-, hchoice, hothers, hchecked, -⟩ := chooses_first_best levelBooths
  have hfirst : levelBooths.choice = some ⟨2⟩ :=
    (hchoice ⟨2⟩).mpr ⟨[⟨⟨9⟩, -20, 5, 0, 2, 0, false⟩], ⟨⟨2⟩, -50, 5, 2, 2, 0, true⟩,
      [⟨⟨1⟩, -60, 5, 1, 2, 1, true⟩, ⟨⟨2⟩, -90, 5, 0, 2, 0, true⟩], rfl, ⟨rfl, by decide, by decide⟩, rfl⟩
  have hwithout := hothers { levelBooths with entries := levelBooths.entries.tail } (by decide)
  rw [hfirst] at hwithout hchecked
  exact ⟨hfirst, hwithout, hchecked⟩

end Sightings

end BoothFloor
