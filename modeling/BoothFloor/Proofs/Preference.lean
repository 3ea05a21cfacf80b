import BoothFloor.Proofs.Sightings
import Mathlib.Data.List.Basic
import Mathlib.Data.List.Induction

/-!
# The booth to be preferred after a scan

What is heard in a scan is a row of announcements, and of each booth the latest one counts. To be preferred is
the booth with the best of those that count, among the booths that are not spent, and of several the one heard
of first. The table of a scan keeps just enough of the row: its booths in the order in which they were first
heard of, each with its latest announcement. So the earliest best entry of the table is the booth to be preferred.
-/

namespace BoothFloor

namespace Sighting

/-- The latest of some announcements that speaks of a booth. -/
def latest? (heard : List Sighting) (booth : NodeId) : Option Sighting :=
  (heard.filter (·.booth = booth)).getLast?

/-- The place of a booth among those that some announcements speak of, in the order of the first one of each. -/
def rank (heard : List Sighting) (booth : NodeId) : Nat := (heard.map (·.booth)).idxOf booth

/-- A booth is to be preferred on account of an announcement: it is not spent, the announcement is its latest
one, and the latest one of any other booth that is not spent has a lower score, or the same score and the other
booth was first heard of later. -/
structure Prefers (spent : List NodeId) (heard : List Sighting) (booth : NodeId) (s : Sighting) : Prop where
  fresh : booth ∉ spent
  latest : latest? heard booth = some s
  best : ∀ other ∈ heard, other.booth ∉ spent → other.booth ≠ booth → latest? heard other.booth = some other →
    other.score < s.score ∨ other.score = s.score ∧ rank heard booth < rank heard other.booth

variable {heard : List Sighting} {s e : Sighting} {booth : NodeId}

/-- One more announcement is the latest of its booth, and leaves those of the others. -/
theorem latest?_concat (heard : List Sighting) (s : Sighting) (booth : NodeId) :
    latest? (heard ++ [s]) booth = if s.booth = booth then some s else latest? heard booth := by
  unfold latest?
  rw [List.filter_append]
  by_cases h : s.booth = booth <;> simp [h]

/-- The latest announcement of a booth is one of those heard, and speaks of the booth. -/
theorem of_latest? (h : latest? heard booth = some s) : s ∈ heard ∧ s.booth = booth := by
  have hmem := List.mem_of_getLast? h
  simpa using hmem

/-- Of a booth that was not heard of there is no announcement. -/
theorem latest?_eq_none (h : booth ∉ heard.map (·.booth)) : latest? heard booth = none := by
  rw [latest?, List.getLast?_eq_none_iff, List.filter_eq_nil_iff]
  exact fun s hs heq => h (List.mem_map.mpr ⟨s, hs, by simpa using heq⟩)

/-- No more than one booth is to be preferred. -/
theorem Prefers.unique {spent : List NodeId} {other : NodeId} (h : Prefers spent heard booth s)
    (h' : Prefers spent heard other e) : other = booth := by
  by_contra hne
  obtain ⟨hs, rfl⟩ := of_latest? h.latest
  obtain ⟨he, rfl⟩ := of_latest? h'.latest
  have hfirst := h.best e he h'.fresh hne h'.latest
  have hsecond := h'.best s hs h.fresh (Ne.symm hne) h.latest
  omega

/-- Some entries with the best of them in their midst: those before it are worse, those after it not better. -/
def EarliestBest (entries : List Sighting) (e : Sighting) : Prop :=
  ∃ earlier later, entries = earlier ++ e :: later ∧ (∀ f ∈ earlier, f.score < e.score) ∧
    ∀ f ∈ later, f.score ≤ e.score

/-- The earliest best of some entries is one of them. -/
theorem EarliestBest.mem {entries : List Sighting} (h : EarliestBest entries e) : e ∈ entries := by
  obtain ⟨earlier, later, rfl, -, -⟩ := h
  exact List.mem_append_right _ List.mem_cons_self

/-- No entry is better than the earliest best one. -/
theorem EarliestBest.score_le {entries : List Sighting} (h : EarliestBest entries e) {f : Sighting}
    (hf : f ∈ entries) : f.score ≤ e.score := by
  obtain ⟨earlier, later, rfl, hearlier, hlater⟩ := h
  rcases List.mem_append.mp hf with hf | hf
  · exact Int.le_of_lt (hearlier f hf)
  · rcases List.mem_cons.mp hf with rfl | hf
    · exact Int.le_refl _
    · exact hlater f hf

/-- Comparing some entries in order leaves the earliest best of them, if there is any. -/
theorem foldl_better (entries : List Sighting) :
    (entries.foldl better none = none ∧ entries = []) ∨
      ∃ e, entries.foldl better none = some e ∧ EarliestBest entries e := by
  induction entries using List.reverseRecOn with
  | nil => exact .inl ⟨rfl, rfl⟩
  | append_singleton entries f ih =>
    right
    rw [List.foldl_concat]
    rcases ih with ⟨hnone, rfl⟩ | ⟨e, hsome, hbest⟩
    · exact ⟨f, rfl, [], [], rfl, by simp, by simp⟩
    · rw [hsome, better]
      by_cases hle : f.score ≤ e.score
      · refine ⟨e, if_pos hle, ?_⟩
        obtain ⟨earlier, later, rfl, hearlier, hlater⟩ := hbest
        refine ⟨earlier, later ++ [f], by simp, hearlier, fun g hg => ?_⟩
        rcases List.mem_append.mp hg with hg | hg
        · exact hlater g hg
        · exact List.mem_singleton.mp hg ▸ hle
      · refine ⟨f, if_neg hle, entries, [], rfl, fun g hg => ?_, by simp⟩
        exact Int.lt_of_le_of_lt (hbest.score_le hg) (Int.lt_of_not_ge hle)

end Sighting

namespace Sightings

/-- A table is the outcome of some announcements for a visitor with some spent booths: it lists the booths in the
order in which they were first heard of, each with its latest announcement, and excludes the spent ones. -/
structure Keeps (t : Sightings) (spent : List NodeId) (heard : List Sighting) : Prop where
  order : t.booths.Pairwise fun a b => Sighting.rank heard a < Sighting.rank heard b
  complete : ∀ s ∈ heard, s.booth ∈ t.booths
  latest : ∀ e ∈ t.entries, Sighting.latest? heard e.booth = some { e with valid := true }
  valid : ∀ e ∈ t.entries, e.valid = decide (e.booth ∉ spent)

variable {t t' : Sightings} {spent : List NodeId} {heard : List Sighting} {status : BoothStatus} {rssi : Int16}
  {snr : Int8} {booth : NodeId} {e : Sighting}

/-- A table that has just been emptied is the outcome of no announcement. -/
theorem keeps_reset (t : Sightings) (spent : List NodeId) : t.reset.Keeps spent [] where
  order := List.Pairwise.nil
  complete := fun _ h => absurd h List.not_mem_nil
  latest := fun _ h => absurd h List.not_mem_nil
  valid := fun _ h => absurd h List.not_mem_nil

/-- Every booth on the table was heard of. -/
theorem Keeps.heard_of (h : t.Keeps spent heard) (hb : booth ∈ t.booths) : booth ∈ heard.map (·.booth) := by
  obtain ⟨e, he, rfl⟩ := List.mem_map.mp hb
  obtain ⟨hmem, hbooth⟩ := Sighting.of_latest? (h.latest e he)
  exact List.mem_map.mpr ⟨_, hmem, hbooth⟩

/-- Every booth that was heard of is on the table. -/
theorem Keeps.listed (h : t.Keeps spent heard) (hb : booth ∈ heard.map (·.booth)) : booth ∈ t.booths := by
  obtain ⟨s, hs, rfl⟩ := List.mem_map.mp hb
  exact h.complete s hs

/-- A booth is on the table once. -/
theorem Keeps.nodup (h : t.Keeps spent heard) : t.booths.Nodup := by
  apply h.order.imp
  intro a b hlt heq
  rw [heq] at hlt
  exact Nat.lt_irrefl _ hlt

/-- An announcement that is noted, and excluded from the choice if its booth is spent, puts its booth on the table,
at the end if it is new. -/
theorem booths_of_noted (h : t.record status rssi snr = (true, t')) :
    (if status.booth ∈ spent then t'.invalidate status.booth else t').booths =
      if status.booth ∈ t.booths then t.booths else t.booths ++ [status.booth] := by
  rw [← booths_of_record h]
  split
  · exact booths_invalidate t' status.booth
  · rfl

/-- After an announcement that is noted, and excluded from the choice if its booth is spent, each entry is the
announcement with that mark or one of another booth as before. -/
theorem entry_of_noted (h : t.record status rssi snr = (true, t'))
    (he : e ∈ (if status.booth ∈ spent then t'.invalidate status.booth else t').entries) :
    e = { Sighting.ofStatus status rssi snr with valid := decide (status.booth ∉ spent) } ∨
      e ∈ t.entries ∧ e.booth ≠ status.booth := by
  split at he
  · next hspent =>
    rcases entry_of_invalidate he with ⟨old, hold, hbooth, rfl⟩ | ⟨hold, hother⟩
    · rcases entry_of_record h hold with rfl | ⟨-, hother⟩
      · left
        simp [hspent]
      · exact absurd hbooth hother
    · exact .inr ((entry_of_record h hold).resolve_left fun heq => hother (heq ▸ rfl))
  · next hfresh =>
    rcases entry_of_record h he with rfl | hold
    · left
      simp [hfresh, Sighting.ofStatus]
    · exact .inr hold

/-- What is heard later leaves the order of the booths on the table. -/
theorem Keeps.rank_append (h : t.Keeps spent heard) (hb : booth ∈ t.booths) (later : List Sighting) :
    Sighting.rank (heard ++ later) booth = Sighting.rank heard booth := by
  rw [Sighting.rank, List.map_append, List.idxOf_append_of_mem (h.heard_of hb), Sighting.rank]

/-- A booth that is not on the table is first heard of after those that are. -/
theorem Keeps.rank_lt_new (h : t.Keeps spent heard) (hb : booth ∈ t.booths) {s : Sighting}
    (hnew : s.booth ∉ t.booths) :
    Sighting.rank (heard ++ [s]) booth < Sighting.rank (heard ++ [s]) s.booth := by
  have hunheard : s.booth ∉ heard.map (·.booth) := mt h.listed hnew
  rw [h.rank_append hb, Sighting.rank, Sighting.rank, List.map_append, List.idxOf_append_of_notMem hunheard]
  exact Nat.lt_of_lt_of_le (List.idxOf_lt_length_iff.mpr (h.heard_of hb)) (Nat.le_add_right _ _)

/-- With an announcement that is noted, and excluded from the choice if its booth is spent, a table goes on to be
the outcome of what was heard. -/
theorem Keeps.note (h : t.Keeps spent heard) (hnoted : t.record status rssi snr = (true, t')) :
    (if status.booth ∈ spent then t'.invalidate status.booth else t').Keeps spent
      (heard ++ [.ofStatus status rssi snr]) := by
  constructor
  case order =>
    have horder : t.booths.Pairwise fun a b => Sighting.rank (heard ++ [.ofStatus status rssi snr]) a <
        Sighting.rank (heard ++ [.ofStatus status rssi snr]) b := by
      refine h.order.imp_of_mem fun ha hb hlt => ?_
      rwa [h.rank_append ha, h.rank_append hb]
    rw [booths_of_noted hnoted]
    split
    · exact horder
    · next hnew =>
      refine List.pairwise_append.mpr ⟨horder, List.pairwise_singleton _ _, fun a ha b hb => ?_⟩
      obtain rfl := List.mem_singleton.mp hb
      exact h.rank_lt_new (s := .ofStatus status rssi snr) ha hnew
  case complete =>
    intro s hs
    have hlisted : s.booth ∈ t.booths ∨ s.booth = status.booth := by
      rcases List.mem_append.mp hs with hs | hs
      · exact .inl (h.complete s hs)
      · exact .inr (congrArg Sighting.booth (List.mem_singleton.mp hs))
    rw [booths_of_noted hnoted]
    split
    · next hold => exact hlisted.elim id fun heq => heq ▸ hold
    · exact List.mem_append.mpr (hlisted.imp_right fun heq => List.mem_singleton.mpr heq)
  case latest =>
    intro e he
    rw [Sighting.latest?_concat]
    rcases entry_of_noted hnoted he with rfl | ⟨hold, hother⟩
    · exact if_pos rfl
    · rw [if_neg (fun heq => hother heq.symm)]
      exact h.latest e hold
  case valid =>
    intro e he
    rcases entry_of_noted hnoted he with rfl | ⟨hold, -⟩
    · rfl
    · exact h.valid e hold

/-- A table is looked up for the latest announcement of a booth, with the mark of those that are spent. -/
theorem Keeps.get?_eq (h : t.Keeps spent heard) (booth : NodeId) :
    t.get? booth =
      (Sighting.latest? heard booth).map fun s => { s with valid := decide (booth ∉ spent) } := by
  cases hfound : t.get? booth with
  | none =>
    have hunheard : booth ∉ heard.map (·.booth) := by
      intro hmem
      have hlisted := (t.get?_isSome_iff booth).mpr (h.listed hmem)
      rw [hfound] at hlisted
      cases hlisted
    rw [Sighting.latest?_eq_none hunheard, Option.map_none]
  | some e =>
    have hmem : e ∈ t.entries := List.mem_of_find?_eq_some hfound
    have hbooth : e.booth = booth := by simpa using List.find?_some hfound
    subst hbooth
    rw [h.latest e hmem, Option.map_some, ← h.valid e hmem]

/-- The latest announcement of a booth has its entry on the table, with the same score. -/
theorem Keeps.exists_entry (h : t.Keeps spent heard) {s : Sighting} (hs : s ∈ heard)
    (hlatest : Sighting.latest? heard s.booth = some s) :
    ∃ e ∈ t.entries, e.booth = s.booth ∧ e.score = s.score ∧ e.valid = decide (s.booth ∉ spent) := by
  obtain ⟨e, he, hbooth⟩ := List.mem_map.mp (h.complete s hs)
  have hentry := h.latest e he
  rw [hbooth, hlatest] at hentry
  refine ⟨e, he, hbooth, ?_, hbooth ▸ h.valid e he⟩
  rw [Option.some.inj hentry]
  rfl

/-- The entries behind one of those that are not excluded are of booths that were first heard of later. -/
theorem Keeps.rank_lt (h : t.Keeps spent heard) {earlier later : List Sighting} {f : Sighting}
    (hsplit : t.entries.filter (·.valid) = earlier ++ e :: later) (hf : f ∈ later) :
    Sighting.rank heard e.booth < Sighting.rank heard f.booth := by
  have hranks : (t.entries.filter (·.valid)).Pairwise fun e f =>
      Sighting.rank heard e.booth < Sighting.rank heard f.booth :=
    (List.pairwise_map.mp h.order).sublist List.filter_sublist
  rw [hsplit] at hranks
  exact (List.pairwise_cons.mp (List.pairwise_append.mp hranks).2.1).1 f hf

/-- The booth of the earliest best entry that is not excluded is the one to be preferred. -/
theorem Keeps.prefers (h : t.Keeps spent heard) (hbest : Sighting.EarliestBest (t.entries.filter (·.valid)) e) :
    Sighting.Prefers spent heard e.booth { e with valid := true } := by
  obtain ⟨he, hvalid⟩ := List.mem_filter.mp hbest.mem
  rw [h.valid e he] at hvalid
  refine ⟨of_decide_eq_true hvalid, h.latest e he, fun other hother hfresh hne hlatest => ?_⟩
  obtain ⟨f, hf, hbooth, hsame, hmark⟩ := h.exists_entry hother hlatest
  have hcandidate : f ∈ t.entries.filter (·.valid) :=
    List.mem_filter.mpr ⟨hf, hmark.trans (decide_eq_true hfresh)⟩
  change other.score < e.score ∨ other.score = e.score ∧ _
  rw [← hsame]
  obtain ⟨earlier, later, hsplit, hearlier, hlater⟩ := hbest
  rw [hsplit] at hcandidate
  rcases List.mem_append.mp hcandidate with hbefore | hafter
  · exact .inl (hearlier f hbefore)
  · rcases List.mem_cons.mp hafter with rfl | hafter
    · exact absurd hbooth.symm hne
    · have hrank := h.rank_lt hsplit hafter
      rw [hbooth] at hrank
      exact (Int.lt_or_eq_of_le (hlater f hafter)).imp_right fun heq => ⟨heq, hrank⟩

/-- The booth chosen from a table is the one to be preferred on account of what was heard, and there is none if
and only if every booth heard of is spent. -/
theorem Keeps.choice_cases (h : t.Keeps spent heard) :
    (t.choice = none ∧ ∀ s ∈ heard, s.booth ∈ spent) ∨
      ∃ booth s, t.choice = some booth ∧ Sighting.Prefers spent heard booth s := by
  unfold choice Sighting.best
  rcases Sighting.foldl_better (t.entries.filter (·.valid)) with ⟨hnone, hempty⟩ | ⟨e, hsome, hbest⟩
  · left
    refine ⟨by rw [hnone, Option.map_none], fun s hs => ?_⟩
    obtain ⟨e, he, hbooth⟩ := List.mem_map.mp (h.complete s hs)
    have hexcluded := List.filter_eq_nil_iff.mp hempty e he
    rw [h.valid e he, hbooth] at hexcluded
    simpa using hexcluded
  · right
    exact ⟨e.booth, _, by rw [hsome, Option.map_some], h.prefers hbest⟩

end Sightings

end BoothFloor
