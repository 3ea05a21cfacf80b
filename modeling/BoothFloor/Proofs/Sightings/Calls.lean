import BoothFloor.Proofs.Sightings
import Mathlib.Data.List.DropRight
import Mathlib.Data.List.Induction

/-!
# What becomes of a table

A table is called in any order: to note announcements, to exclude booths and to be emptied. What it holds is settled by
the calls since it was emptied last. Its booths are the first ones that were announced since then, as many as there is
room for; each has the last of its announcements, and is excluded if it was after that one. An announcement is refused
exactly if its booth is not on a full table, and nothing comes of it.
-/

namespace BoothFloor

namespace Sightings

/-- What can be asked of a table. -/
inductive Call where
  | record (status : BoothStatus) (rssi : Int16) (snr : Int8)
  | invalidate (booth : NodeId)
  | reset
  deriving DecidableEq

namespace Call

/-- The announcement that a call brings. -/
def announced? : Call → Option Sighting
  | record status rssi snr => some (.ofStatus status rssi snr)
  | _ => none

/-- The booths that some calls announce, each as often as they do. -/
def announced (row : List Call) : List NodeId := row.filterMap fun c => c.announced?.map (·.booth)

/-- What is left of some calls from behind the last one that empties a table. -/
def sinceReset (row : List Call) : List Call := row.rtakeWhile (· ≠ reset)

/-- Some calls with the last announcement of a booth among them and others behind it. -/
structure LastHeard (row : List Call) (s : Sighting) (behind : List Call) : Prop where
  split : ∃ before c, row = before ++ c :: behind ∧ c.announced? = some s
  last : s.booth ∉ announced behind

variable {row behind : List Call} {s : Sighting} {status : BoothStatus} {rssi : Int16} {snr : Int8} {booth : NodeId}

/-- The booths announced by some calls and by others behind them. -/
theorem announced_append (row behind : List Call) : announced (row ++ behind) = announced row ++ announced behind :=
  List.filterMap_append

@[simp]
theorem announced_record (status : BoothStatus) (rssi : Int16) (snr : Int8) :
    announced [record status rssi snr] = [status.booth] := rfl

@[simp]
theorem announced_invalidate (booth : NodeId) : announced [invalidate booth] = [] := rfl

/-- The calls since a table was emptied go on until it is emptied again. -/
theorem sinceReset_concat (row : List Call) (c : Call) :
    sinceReset (row ++ [c]) = if c = reset then [] else sinceReset row ++ [c] := by
  rw [sinceReset, List.rtakeWhile_concat]
  by_cases hc : c = reset
  · simp [hc]
  · simp [hc, sinceReset]

/-- A last announcement stays the last one of its booth if the next call announces no booth or another one. -/
theorem LastHeard.concat (h : LastHeard row s behind) {c : Call} (hother : s.booth ∉ announced [c]) :
    LastHeard (row ++ [c]) s (behind ++ [c]) where
  split := by
    obtain ⟨before, c', rfl, hc'⟩ := h.split
    exact ⟨before, c', by simp, hc'⟩
  last := by
    rw [announced_append, List.mem_append]
    exact fun hmem => hmem.elim h.last hother

/-- An announcement that comes last is the last one of its booth. -/
theorem lastHeard_concat (row : List Call) (status : BoothStatus) (rssi : Int16) (snr : Int8) :
    LastHeard (row ++ [record status rssi snr]) (.ofStatus status rssi snr) [] where
  split := ⟨row, _, rfl, rfl⟩
  last := List.not_mem_nil

end Call

open Call

/-- What a call leaves of a table. -/
def call (t : Sightings) : Call → Sightings
  | .record status rssi snr => (t.record status rssi snr).2
  | .invalidate booth => t.invalidate booth
  | .reset => t.reset

/-- Whether a table takes a call. Only an announcement can be refused. -/
def takes (t : Sightings) : Call → Bool
  | .record status rssi snr => (t.record status rssi snr).1
  | _ => true

/-- What some calls leave of a table. -/
def calls (t : Sightings) (row : List Call) : Sightings := row.foldl call t

/-- A new table with room for `limit` booths, after some calls. -/
def after (limit : Nat) (row : List Call) : Sightings := calls { limit } row

/-- Of some calls those that a table takes, one after the other. -/
def taken (t : Sightings) : List Call → List Call
  | [] => []
  | c :: rest => if t.takes c then c :: (t.call c).taken rest else (t.call c).taken rest

/-- The calls that a table has taken since it was emptied last. -/
def lately (limit : Nat) (row : List Call) : List Call := sinceReset (taken { limit } row)

variable {t t' : Sightings} {limit : Nat} {row past every : List Call} {status : BoothStatus} {rssi : Int16} {snr : Int8}
  {booth : NodeId} {e : Sighting}

/-- Some calls and one more. -/
theorem calls_concat (t : Sightings) (row : List Call) (c : Call) : t.calls (row ++ [c]) = (t.calls row).call c :=
  List.foldl_append

/-- One more call is taken or not. -/
theorem taken_concat (t : Sightings) (row : List Call) (c : Call) :
    t.taken (row ++ [c]) = t.taken row ++ if (t.calls row).takes c then [c] else [] := by
  induction row generalizing t with
  | nil => rfl
  | cons first rest ih =>
    rw [List.cons_append, taken, taken, ih]
    split <;> rfl

/-- What was taken since a table was emptied, after one more call. -/
theorem lately_concat (limit : Nat) (row : List Call) (c : Call) :
    lately limit (row ++ [c]) =
      if c = .reset then [] else if (after limit row).takes c then lately limit row ++ [c] else lately limit row := by
  rw [lately, taken_concat]
  change sinceReset (_ ++ if (after limit row).takes c then [c] else []) = _
  by_cases htakes : (after limit row).takes c
  · rw [if_pos htakes, if_pos htakes]
    exact sinceReset_concat _ c
  · have hc : c ≠ .reset := by
      rintro rfl
      exact htakes rfl
    rw [if_neg htakes, if_neg hc, if_neg htakes, List.append_nil, lately]

/-- A row of booths and one more, each once. -/
theorem eraseDups_concat (l : List NodeId) (b : NodeId) :
    (l ++ [b]).eraseDups = if b ∈ l then l.eraseDups else l.eraseDups ++ [b] := by
  rw [List.eraseDups_append, List.cons_removeAll]
  by_cases hb : b ∈ l
  · simp [hb, List.removeAll]
  · simp [hb, List.removeAll, List.eraseDups_cons]

/-- There is an entry for each booth on the table. -/
theorem length_booths (t : Sightings) : t.booths.length = t.entries.length := List.length_map _

/-- There was room for a new booth that is noted. -/
theorem lt_limit_of_noted (h : t.record status rssi snr = (true, t')) (hnew : status.booth ∉ t.booths) :
    t.entries.length < t.limit := by
  by_contra hfull
  have hrefused : (t.record status rssi snr).1 = false := record_refused_iff.mpr ⟨hnew, Nat.not_lt.mp hfull⟩
  rw [h] at hrefused
  cases hrefused

/-- A table is the outcome of the calls that it has taken since it was emptied last, out of all that were made since
then. Its booths are those that it has noted, in the order in which it first did, and the first ones of all that were
announced, as many as there is room for. Each has the last announcement that was noted of it, and is excluded if it
was after that one. -/
structure Reflects (t : Sightings) (limit : Nat) (past every : List Call) : Prop where
  room : t.limit = limit
  nodup : t.booths.Nodup
  order : t.booths = (announced past).eraseDups
  first : t.booths = (announced every).eraseDups.take limit
  entries : ∀ e ∈ t.entries, ∃ s behind, LastHeard past s behind ∧
    e = { s with valid := decide (.invalidate s.booth ∉ behind) }

/-- An empty table is the outcome of no call. -/
theorem reflects_nil (h : t.limit = limit) (hempty : t.entries = []) : t.Reflects limit [] [] where
  room := h
  nodup := by
    rw [booths, hempty]
    exact List.nodup_nil
  order := by
    rw [booths, hempty]
    rfl
  first := by
    rw [booths, hempty]
    exact List.take_nil.symm
  entries := fun e he => by
    rw [hempty] at he
    exact absurd he List.not_mem_nil

/-- There is room for the booths on the table. -/
theorem Reflects.length_le (h : t.Reflects limit past every) : t.entries.length ≤ limit := by
  rw [← t.length_booths, h.first]
  exact List.length_take_le _ _

/-- After an announcement that is noted, the first booths that were announced are still on the table, as many as there
is room for. -/
theorem Reflects.first_of_noted (h : t.Reflects limit past every) (hnoted : t.record status rssi snr = (true, t')) :
    t'.booths = (announced (every ++ [.record status rssi snr])).eraseDups.take limit := by
  rw [booths_of_record hnoted, announced_append, announced_record, eraseDups_concat]
  split
  · next hlisted =>
    have hheard : status.booth ∈ announced every := by
      rw [h.first] at hlisted
      exact List.mem_eraseDups.mp (List.mem_of_mem_take hlisted)
    rw [if_pos hheard, h.first]
  · next hnew =>
    -- the table has room, so it has every booth that was announced
    have hroom : (announced every).eraseDups.length < limit := by
      have hlength := lt_limit_of_noted hnoted hnew
      rw [h.room, ← t.length_booths, h.first, List.length_take] at hlength
      omega
    have hall : t.booths = (announced every).eraseDups :=
      h.first.trans (List.take_of_length_le (Nat.le_of_lt hroom))
    rw [hall, List.mem_eraseDups] at hnew
    rw [if_neg hnew, hall, List.take_of_length_le]
    rw [List.length_append, List.length_singleton]
    exact hroom

/-- An announcement that is noted counts from then on. -/
theorem Reflects.noted (h : t.Reflects limit past every) (hnoted : t.record status rssi snr = (true, t')) :
    t'.Reflects limit (past ++ [.record status rssi snr]) (every ++ [.record status rssi snr]) where
  room := (limit_of_record hnoted).trans h.room
  nodup := by
    rw [booths_of_record hnoted]
    split
    · exact h.nodup
    · next hnew =>
      refine List.nodup_append.mpr ⟨h.nodup, List.pairwise_singleton _ _, fun a ha b hb => ?_⟩
      rw [List.mem_singleton.mp hb]
      exact fun heq => hnew (heq ▸ ha)
  order := by
    rw [booths_of_record hnoted, announced_append, announced_record, eraseDups_concat, h.order]
    simp only [List.mem_eraseDups]
  first := h.first_of_noted hnoted
  entries := by
    intro e he
    rcases entry_of_record hnoted he with rfl | ⟨hold, hother⟩
    · exact ⟨_, [], lastHeard_concat past status rssi snr, by simp [Sighting.ofStatus]⟩
    · obtain ⟨s, behind, hlast, rfl⟩ := h.entries e hold
      refine ⟨s, _, hlast.concat (c := .record status rssi snr) ?_, by simp⟩
      simpa using hother

/-- An announcement that is refused does not count. -/
theorem Reflects.refused (h : t.Reflects limit past every) (hrefused : (t.record status rssi snr).1 = false) :
    t.Reflects limit past (every ++ [.record status rssi snr]) where
  room := h.room
  nodup := h.nodup
  order := h.order
  first := by
    obtain ⟨-, hfull⟩ := record_refused_iff.mp hrefused
    rw [announced_append, announced_record, eraseDups_concat]
    split
    · exact h.first
    · have hlong : limit ≤ (announced every).eraseDups.length := by
        rw [h.room, ← t.length_booths, h.first, List.length_take] at hfull
        omega
      rw [List.take_append_of_le_length hlong, h.first]
  entries := h.entries

/-- From then on a booth that is excluded is so until it is noted again. -/
theorem Reflects.excluded (h : t.Reflects limit past every) (booth : NodeId) :
    (t.invalidate booth).Reflects limit (past ++ [.invalidate booth]) (every ++ [.invalidate booth]) where
  room := h.room
  nodup := by
    rw [booths_invalidate]
    exact h.nodup
  order := by
    rw [booths_invalidate, announced_append, announced_invalidate, List.append_nil, h.order]
  first := by
    rw [booths_invalidate, announced_append, announced_invalidate, List.append_nil, h.first]
  entries := by
    have hsilent (s : Sighting) : s.booth ∉ announced [.invalidate booth] := by simp
    intro e he
    rcases entry_of_invalidate he with ⟨old, hold, hbooth, rfl⟩ | ⟨hold, hother⟩
    · obtain ⟨s, behind, hlast, rfl⟩ := h.entries old hold
      subst hbooth
      exact ⟨s, _, hlast.concat (hsilent s), by simp⟩
    · obtain ⟨s, behind, hlast, rfl⟩ := h.entries e hold
      exact ⟨s, _, hlast.concat (hsilent s), by simp [hother]⟩

/-- What any calls leave of a new table is the outcome of those that it has taken since it was emptied last. -/
theorem reflects_after (limit : Nat) (row : List Call) :
    (after limit row).Reflects limit (lately limit row) (sinceReset row) := by
  induction row using List.reverseRecOn with
  | nil => exact reflects_nil rfl rfl
  | append_singleton row c ih =>
    rw [lately_concat, sinceReset_concat, after, calls_concat, ← after]
    cases c with
    | reset => exact reflects_nil ih.room rfl
    | invalidate booth => exact ih.excluded booth
    | record status rssi snr =>
      have hc : Call.record status rssi snr ≠ .reset := nofun
      rw [if_neg hc, if_neg hc, takes, call]
      rcases hrecord : (after limit row).record status rssi snr with ⟨_ | _, t'⟩
      · rw [eq_of_refused hrecord]
        exact ih.refused (congrArg Prod.fst hrecord)
      · exact ih.noted hrecord

/-- Where each booth stands once, to change every entry of a booth is to change the first one. -/
theorem map_eq_modify_findIdx {entries : List Sighting} (h : (entries.map (·.booth)).Nodup) (booth : NodeId)
    (f : Sighting → Sighting) :
    (entries.map fun e => if e.booth = booth then f e else e) =
      entries.modify (entries.findIdx (·.booth == booth)) f := by
  induction entries with
  | nil => rfl
  | cons e rest ih =>
    obtain ⟨hnew, hrest⟩ := List.nodup_cons.mp h
    rw [List.map_cons, List.findIdx_cons]
    by_cases hbooth : e.booth = booth
    · have hothers : ∀ e' ∈ rest, (if e'.booth = booth then f e' else e') = e' := fun e' he' =>
        if_neg fun heq => hnew (List.mem_map.mpr ⟨e', he', heq.trans hbooth.symm⟩)
      rw [if_pos hbooth, beq_iff_eq.mpr hbooth, List.map_congr_left hothers, List.map_id']
      rfl
    · rw [if_neg hbooth, beq_eq_false_iff_ne.mpr hbooth, ih hrest]
      rfl

/-- Whatever calls a table has seen, to announce a booth that is on it and to exclude a booth change no more than the
first entry that is found for the booth. -/
theorem calls_change_first (limit : Nat) (row : List Call) :
    let t := after limit row
    (∀ status rssi snr, status.booth ∈ t.booths → (t.record status rssi snr).2.entries =
        t.entries.modify (t.entries.findIdx (·.booth == status.booth)) fun _ => .ofStatus status rssi snr) ∧
      ∀ booth, (t.invalidate booth).entries =
        t.entries.modify (t.entries.findIdx (·.booth == booth)) ({ · with valid := false }) := by
  intro t
  have hnodup : t.booths.Nodup := (reflects_after limit row).nodup
  refine ⟨fun status rssi snr hlisted => ?_, fun booth => map_eq_modify_findIdx hnodup booth _⟩
  rcases hrecord : t.record status rssi snr with ⟨noted, t'⟩
  cases recording_of_record hrecord with
  | renews => exact map_eq_modify_findIdx hnodup status.booth fun _ => .ofStatus status rssi snr
  | joins hnew | misses hnew => exact absurd hlisted hnew

/-- The calls on a table settle what it holds. Whatever they are: it has each booth once, and no more than there is room
for; they stand in the order in which it first noted them since it was emptied last, and are the first booths that were
announced since then; and each has the last announcement that was noted of it, excluded exactly if it was after that
one. An announcement is refused exactly if its booth is not on a full table, and leaves the table as it was. -/
theorem table_settled_by_calls (limit : Nat) (row : List Call) :
    let t := after limit row
    t.booths.Nodup ∧ t.entries.length ≤ limit ∧
      t.booths = (announced (lately limit row)).eraseDups ∧
      t.booths = (announced (sinceReset row)).eraseDups.take limit ∧
      (∀ e ∈ t.entries, ∃ s behind, LastHeard (lately limit row) s behind ∧
        e = { s with valid := decide (.invalidate s.booth ∉ behind) }) ∧
      ∀ status rssi snr,
        ((t.record status rssi snr).1 = false ↔ status.booth ∉ t.booths ∧ t.entries.length = limit) ∧
          ((t.record status rssi snr).1 = false → (t.record status rssi snr).2 = t) := by
  intro t
  have h : t.Reflects limit (lately limit row) (sinceReset row) := reflects_after limit row
  refine ⟨h.nodup, h.length_le, h.order, h.first, h.entries, fun status rssi snr =>
    ⟨?_, fun hrefused => eq_of_refused (Prod.ext hrefused rfl)⟩⟩
  have hfull : limit ≤ t.entries.length ↔ t.entries.length = limit := by
    have hle := h.length_le
    omega
  rw [record_refused_iff, h.room, hfull]

/-- A table with room for two booths is emptied, hears of three and of one of them once more, and one is excluded. -/
def crowdedAir : List Call :=
  let hears (booth : UInt8) (rssi : Int16) : Call := .record ⟨⟨booth⟩, 0, 2, 0⟩ rssi 5
  [hears 2 (-30), .reset, hears 3 (-30), hears 1 (-60), hears 2 (-20), .invalidate ⟨3⟩, .invalidate ⟨1⟩, hears 1 (-50)]

/-- The first two of the booths are on the table, the first one excluded and the second one not any more, and the third
is refused as often as it is heard. -/
theorem table_settled_by_calls_crowdedAir :
    let t := after 2 crowdedAir
    t.booths = [⟨3⟩, ⟨1⟩] ∧
      (∃ s behind, LastHeard (lately 2 crowdedAir) s behind ∧
        Sighting.mk ⟨1⟩ (-50) 5 0 2 0 true = { s with valid := decide (.invalidate s.booth ∉ behind) }) ∧
      (t.record ⟨⟨2⟩, 0, 2, 0⟩ (-20) 5).1 = false ∧ (t.record ⟨⟨2⟩, 0, 2, 0⟩ (-20) 5).2 = t := by
  intro t
  obtain ⟨-, -, -, hfirst, hentries, hanswers⟩ := table_settled_by_calls 2 crowdedAir
  have hbooths : t.booths = [⟨3⟩, ⟨1⟩] := hfirst.trans (by decide)
  obtain ⟨hanswer, hsame⟩ := hanswers ⟨⟨2⟩, 0, 2, 0⟩ (-20) 5
  have hrefused := hanswer.mpr ⟨by decide, by decide⟩
  exact ⟨hbooths, hentries _ (by decide), hrefused, hsame hrefused⟩

end Sightings

end BoothFloor
