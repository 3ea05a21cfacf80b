import BoothFloor.Proofs.NodeId
import BoothFloor.Proofs.Preference
import BoothFloor.Proofs.Visitor.Visits

/-!
# The choice of a booth

From the start of a scan to its end a visitor hears announcements and is otherwise at rest. Its table has room
for every host, so no announcement of a booth is lost, and at the end of the scan it asks the booth to be
preferred on account of all that was heard, or none if every booth heard of is spent.
-/

namespace BoothFloor

/-- The announcement of a booth under the rules that an input brings, if it brings one. -/
def Rules.announced? (r : Rules) : Input → Option Sighting
  | .message _ (.boothAnnounce s) rssi snr => if r.isHost s.booth then some (.ofStatus s rssi snr) else none
  | _ => none

/-- The announcements of booths under the rules among some events, in order. -/
def Rules.announcements (r : Rules) (events : List (Moment × Input)) : List Sighting :=
  events.filterMap fun e => r.announced? e.2

namespace Visitor

variable {v : Visitor} {m : Moment} {i : Input} {spent : List NodeId} {heard : List Sighting}

/-- The visitor with other booths than before for spent. -/
def withSpent (v : Visitor) (spent : List NodeId) : Visitor := { v with spent := spent }

/-- A visitor with some booths spent is in the middle of a scan in which it has heard some announcements of
hosts. -/
structure Scans (v : Visitor) (spent : List NodeId) (heard : List Sighting) : Prop where
  phase : v.phase = .scanning
  isOpen : v.scanOpen = true
  known : v.spent = spent
  limit : v.sightings.limit = v.rules.hosts.count
  hosts : ∀ s ∈ heard, v.rules.isHost s.booth = true
  table : v.sightings.Keeps spent heard

/-- The table of a visitor has room for every host all along. -/
theorem react_limit (v : Visitor) (m : Moment) (i : Input) :
    (v.react m i).1.sightings.limit = v.sightings.limit := by
  have hreaction := v.react_reaction m i
  generalize v.react m i = outcome at hreaction
  cases hreaction with
  | hears source s rssi snr table hphase hopen hhost hheard =>
    have hlimit : table.limit = v.sightings.limit := Sightings.limit_of_record hheard
    dsimp only
    split
    · exact hlimit
    · exact hlimit
  | enters | refused => simp only [markSpent_eq, freed, Sightings.reset]
  | _ => rfl

/-- The table of a visitor has room for every host. -/
theorem run_limit (id : NodeId) (r : Rules) (events : List (Moment × Input)) :
    ((ofRules id r).run events).1.sightings.limit = r.hosts.count := by
  apply runWith_keeps (P := fun v : Visitor => v.sightings.limit = r.hosts.count) rfl
  intro v m i _ hlimit
  rw [v.react_limit m i, hlimit]

/-- A scan opens with an empty table. -/
theorem scans_startScan (hphase : v.phase = .scanning) (hlimit : v.sightings.limit = v.rules.hosts.count)
    (tick : Nat) : (startScan tick v).1.Scans v.spent [] where
  phase := hphase
  isOpen := rfl
  known := rfl
  limit := hlimit
  hosts := fun _ h => absurd h List.not_mem_nil
  table := v.sightings.keeps_reset v.spent

/-- In the middle of a scan there is room on the table for every host that is not on it yet. -/
theorem Scans.room (h : v.Scans spent heard) {booth : NodeId} (hhost : v.rules.isHost booth = true)
    (hnew : booth ∉ v.sightings.booths) : v.sightings.entries.length < v.sightings.limit := by
  have hhosts : v.sightings.booths ⊆ v.rules.hosts.ids := by
    intro b hb
    obtain ⟨s, hs, rfl⟩ := List.mem_map.mp (h.table.heard_of hb)
    exact IdRange.mem_ids_iff.mpr (h.hosts s hs)
  have hfew := length_lt_of_missing h.table.nodup hhosts (IdRange.mem_ids_iff.mpr hhost) hnew
  rwa [Sightings.booths, List.length_map, IdRange.length_ids, ← h.limit] at hfew

/-- In the middle of a scan an announcement of a host is noted and reported. -/
theorem Scans.hears (h : v.Scans spent heard) {s : BoothStatus} (hhost : v.rules.isHost s.booth = true)
    (source : NodeId) (rssi : Int16) (snr : Int8) :
    (v.react m (.message source (.boothAnnounce s) rssi snr)).1.Scans spent (heard ++ [.ofStatus s rssi snr]) ∧
      (v.react m (.message source (.boothAnnounce s) rssi snr)).2 = [.emit (.boothDiscovered s.booth rssi s)] := by
  obtain ⟨table, hnoted, hlimit⟩ := Sightings.exists_record (h.room hhost) rssi snr
  have hstage : v.stage = .scanning := by rw [stage, h.phase]; rfl
  have hreact : v.react m (.message source (.boothAnnounce s) rssi snr) =
      ({ v with sightings := if s.booth ∈ v.spent then table.invalidate s.booth else table },
        [.emit (.boothDiscovered s.booth rssi s)]) := by
    change v.onAnnounce s rssi snr = _
    rw [onAnnounce, if_pos ⟨hstage, h.isOpen, hhost⟩, hnoted]
  rw [hreact]
  refine ⟨⟨h.phase, h.isOpen, h.known, ?_, fun e he => ?_, ?_⟩, rfl⟩
  · rw [← h.limit, ← hlimit]
    dsimp only
    split <;> rfl
  · rcases List.mem_append.mp he with hold | hnew
    · exact h.hosts e hold
    · rw [List.mem_singleton.mp hnew]
      exact hhost
  · rw [h.known]
    exact h.table.note hnoted

/-- In the middle of a scan a visitor is at rest but for the announcements of hosts. -/
theorem Scans.rests (h : v.Scans spent heard) (hstart : i ≠ .start) (hend : i ≠ .timer .selection)
    (hquiet : v.rules.announced? i = none) :
    (v.react m i).1 = v ∧ Action.sent (v.react m i).2 = [] := by
  have hbooth : v.booth? = none := by rw [booth?, h.phase]; rfl
  cases i with
  | start => exact absurd rfl hstart
  | timer kind =>
    cases kind with
    | selection => exact absurd rfl hend
    | retry => simp [react, attempt, settle, onRetryTimeout, h.phase]
  | intent i => cases i <;> simp [react, attempt, settle, onIntent, h.phase]
  | tick => simp [react, attempt, settle, onTick, h.phase, h.isOpen]
  | message source message rssi snr =>
    cases message with
    | boothAnnounce s =>
      have hstranger : ¬ v.rules.isHost s.booth = true := by
        intro hhost
        simp [Rules.announced?, hhost] at hquiet
      simp [react, attempt, settle, onMessage, onAnnounce, hstranger]
    | _ => simp [react, attempt, settle, onMessage, hbooth]

/-- In the middle of a scan a visitor sends nothing, and adds to what it has heard the announcement of a host
that an input brings. -/
theorem Scans.react (h : v.Scans spent heard) (m : Moment) (hstart : i ≠ .start) (hend : i ≠ .timer .selection) :
    (v.react m i).1.Scans spent (heard ++ (v.rules.announced? i).toList) ∧ Action.sent (v.react m i).2 = [] := by
  cases hannounced : v.rules.announced? i with
  | none =>
    obtain ⟨hkept, hsilent⟩ := h.rests (m := m) hstart hend hannounced
    rw [hkept, Option.toList_none, List.append_nil]
    exact ⟨h, hsilent⟩
  | some s =>
    unfold Rules.announced? at hannounced
    split at hannounced
    · next source status rssi snr =>
      split at hannounced
      · next hhost =>
        obtain rfl := Option.some.inj hannounced
        obtain ⟨hscans, hacts⟩ := h.hears (m := m) hhost source rssi snr
        exact ⟨hscans, by rw [hacts]; rfl⟩
      · cases hannounced
    · cases hannounced

/-- Up to its end a scan adds up all announcements of hosts, and nothing is sent. -/
theorem Scans.run (h : v.Scans spent heard) {window : List (Moment × Input)}
    (hwindow : ∀ e ∈ window, e.2 ≠ .start ∧ e.2 ≠ .timer .selection) :
    (v.run window).1.Scans spent (heard ++ v.rules.announcements window) ∧ Action.sent (v.run window).2 = [] := by
  induction window generalizing v heard with
  | nil =>
    rw [Rules.announcements, List.filterMap_nil, List.append_nil]
    exact ⟨h, rfl⟩
  | cons e rest ih =>
    obtain ⟨hfirst, hrest⟩ := List.forall_mem_cons.mp hwindow
    obtain ⟨hscans, hsilent⟩ := h.react e.1 hfirst.1 hfirst.2
    obtain ⟨hend, hlater⟩ := ih hscans hrest
    rw [v.react_rules e.1 e.2, List.append_assoc] at hend
    have hadds : v.rules.announcements (e :: rest) =
        (v.rules.announced? e.2).toList ++ v.rules.announcements rest := by
      unfold Rules.announcements
      rw [List.filterMap_cons]
      cases v.rules.announced? e.2 <;> rfl
    rw [run_cons, Action.sent_append, hsilent, hadds]
    exact ⟨hend, hlater⟩

/-- At the end of a scan the booth to be preferred is asked, and nobody else. -/
theorem Scans.selects (h : v.Scans spent heard) {booth : NodeId} {s : Sighting}
    (hprefers : Sighting.Prefers spent heard booth s) (m : Moment) :
    let last := v.react m (.timer .selection)
    Action.sent last.2 = [(booth, .connectRequest)] ∧ last.1.phase = .connected booth .boothInfo ∧
      Action.emitted last.2 = [.boothSelected booth s.score, .stateChanged .scanning .connected] := by
  intro last
  have hstage : v.stage = .scanning := by rw [stage, h.phase]; rfl
  obtain ⟨hs, hbooth⟩ := Sighting.of_latest? hprefers.latest
  have hchoice : v.sightings.choice = some booth := by
    rcases h.table.choice_cases with ⟨-, hspent⟩ | ⟨other, e, hchoice, hother⟩
    · exact absurd (hbooth ▸ hspent s hs) hprefers.fresh
    · rwa [hprefers.unique hother] at hchoice
  have hscore : ((v.sightings.get? booth).map (·.score)).getD 0 = s.score := by
    rw [h.table.get?_eq, hprefers.latest]
    rfl
  have hlast : last = (({ v with
        scanOpen := false
        lastScan := m.tick
        connectRetries := 0
        phase := .connected booth .boothInfo } : Visitor),
      .emit (.boothSelected booth s.score) :: v.connectActions booth ++
        [.emit (.stateChanged .scanning .connected)]) := by
    change v.onSelectionTimeout m.tick = _
    rw [onSelectionTimeout, if_pos ⟨hstage, h.isOpen⟩]
    simp only [hchoice, hscore, andThen, moveTo, stage, h.phase, Phase.stage, reduceCtorEq, if_false]
    rfl
  rw [hlast]
  exact ⟨rfl, rfl, rfl⟩

/-- A scan in which every booth heard of is spent ends with nobody asked. -/
theorem Scans.selects_none (h : v.Scans spent heard) (hspent : ∀ s ∈ heard, s.booth ∈ spent) (m : Moment) :
    let last := v.react m (.timer .selection)
    last.2 = [.emit .noBoothFound] ∧ last.1.phase = .scanning ∧ last.1.sightings.entries = [] := by
  intro last
  have hstage : v.stage = .scanning := by rw [stage, h.phase]; rfl
  have hchoice : v.sightings.choice = none := by
    rcases h.table.choice_cases with ⟨hnone, -⟩ | ⟨booth, s, -, hprefers⟩
    · exact hnone
    · obtain ⟨hs, rfl⟩ := Sighting.of_latest? hprefers.latest
      exact absurd (hspent s hs) hprefers.fresh
  have hlast : last = (({ v with
      scanOpen := false, lastScan := m.tick, sightings := v.sightings.reset } : Visitor), [.emit .noBoothFound]) := by
    change v.onSelectionTimeout m.tick = _
    rw [onSelectionTimeout, if_pos ⟨hstage, h.isOpen⟩]
    simp only [hchoice]
  rw [hlast]
  exact ⟨rfl, h.phase, rfl⟩

/-- From a scan a visitor comes to the booth to be preferred. Whatever has happened to it, whatever booths it holds
for spent when the scan starts and whatever it is given until the scan ends: no announcement of a host is lost, as
the table answers for each booth with its latest one; at the end the booth to be preferred on account of all of
them is asked for an introduction, and nobody else; and there is exactly one such booth, unless every booth heard
of is spent, when nobody is asked, the table is emptied and the visitor goes on scanning. -/
theorem run_selects_preferred (id : NodeId) (r : Rules) {past : List (Moment × Input)}
    (hscanning : ((ofRules id r).run past).1.phase = .scanning) (spent : List NodeId) (tick : Nat)
    {window : List (Moment × Input)} (hwindow : ∀ e ∈ window, e.2 ≠ .start ∧ e.2 ≠ .timer .selection)
    (m : Moment) :
    let v := ((ofRules id r).run past).1.withSpent spent
    let heard := r.announcements window
    let scanned := (startScan tick v).1.run window
    let last := scanned.1.react m (.timer .selection)
    (∀ booth, scanned.1.sightings.get? booth =
      (Sighting.latest? heard booth).map fun s => { s with valid := decide (booth ∉ spent) }) ∧
    (∀ booth s, Sighting.Prefers spent heard booth s →
      Action.sent last.2 = [(booth, .connectRequest)] ∧ last.1.phase = .connected booth .boothInfo ∧
        .boothSelected booth s.score ∈ Action.emitted last.2) ∧
    ((∀ s ∈ heard, s.booth ∈ spent) →
      last.2 = [.emit .noBoothFound] ∧ last.1.phase = .scanning ∧ last.1.sightings.entries = []) ∧
    ((∃ s ∈ heard, s.booth ∉ spent) → ∃! booth, ∃ s, Sighting.Prefers spent heard booth s) := by
  intro v heard scanned last
  have hrules : v.rules = r := run_rules (ofRules id r) past
  have hlimit : v.sightings.limit = v.rules.hosts.count := by
    rw [hrules]
    exact run_limit id r past
  have hscans : scanned.1.Scans spent heard := by
    have hrun := ((scans_startScan (v := v) hscanning hlimit tick).run hwindow).1
    change scanned.1.Scans spent ([] ++ v.rules.announcements window) at hrun
    rwa [List.nil_append, hrules] at hrun
  refine ⟨fun booth => hscans.table.get?_eq booth, fun booth s hprefers => ?_,
    fun hspent => hscans.selects_none hspent m, fun hfresh => ?_⟩
  · obtain ⟨hsent, hphase, hreported⟩ := hscans.selects hprefers m
    exact ⟨hsent, hphase, by rw [hreported]; exact List.mem_cons_self⟩
  · rcases hscans.table.choice_cases with ⟨-, hspent⟩ | ⟨booth, s, -, hprefers⟩
    · obtain ⟨s, hs, hnew⟩ := hfresh
      exact absurd (hspent s hs) hnew
    · exact ⟨booth, ⟨s, hprefers⟩, fun other ⟨e, hother⟩ => hprefers.unique hother⟩

/-- In a first scan nobody is heard. -/
def quietAir : List (Moment × Input) := [(⟨⟨0⟩, 1⟩, .start), (⟨⟨200⟩, 2⟩, .timer .selection)]

/-- In a second scan three booths and a stranger are heard, one of the booths twice. -/
def busyAir : List (Moment × Input) :=
  let hears (booth : UInt8) (rssi : Int16) : Moment × Input :=
    (⟨⟨250⟩, 20⟩, .message ⟨booth⟩ (.boothAnnounce ⟨⟨booth⟩, 0, 2, 0⟩) rssi 5)
  [hears 3 (-30), hears 2 (-80), (⟨⟨250⟩, 20⟩, .tick), hears 1 (-60), hears 200 (-20), hears 2 (-60)]

/-- With the third booth spent the other two are level in the end, and the second one, heard of before the first,
is asked. -/
theorem run_selects_preferred_busyAir :
    let v := ((ofRules ⟨4⟩ .brisk).run quietAir).1.withSpent [⟨3⟩]
    let heard := Rules.brisk.announcements busyAir
    let last := ((startScan 20 v).1.run busyAir).1.react ⟨⟨450⟩, 30⟩ (.timer .selection)
    (Sighting.latest? heard ⟨1⟩).map (·.score) = some (-40) ∧ (Sighting.latest? heard ⟨2⟩).map (·.score) = some (-40) ∧
      Action.sent last.2 = [(⟨2⟩, .connectRequest)] ∧ last.1.phase = .connected ⟨2⟩ .boothInfo := by
  have hscanning : ((ofRules ⟨4⟩ .brisk).run quietAir).1.phase = .scanning := by decide
  have hwindow : ∀ e ∈ busyAir, e.2 ≠ .start ∧ e.2 ≠ .timer .selection := by decide
  have hprefers : Sighting.Prefers [⟨3⟩] (Rules.brisk.announcements busyAir) ⟨2⟩
      (.ofStatus ⟨⟨2⟩, 0, 2, 0⟩ (-60) 5) :=
    ⟨by decide, by decide, by decide⟩
  obtain ⟨-, hselects, -, -⟩ :=
    run_selects_preferred ⟨4⟩ .brisk hscanning [⟨3⟩] 20 hwindow ⟨⟨450⟩, 30⟩
  obtain ⟨hsent, hphase, -⟩ := hselects ⟨2⟩ _ hprefers
  exact ⟨by decide, by decide, hsent, hphase⟩

end Visitor

end BoothFloor
