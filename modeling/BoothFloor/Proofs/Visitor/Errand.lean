import BoothFloor.Proofs.NodeId
import BoothFloor.Proofs.Sums
import BoothFloor.Proofs.Visitor.Grounded
import BoothFloor.Proofs.Visitor.Spoken

/-!
# What a visitor says in one turn

In one turn a visitor goes on one errand: it scans, asks one booth for its introduction, registers
there, leaves the queue or ends its session, and never two of these. Whoever has spoken on account of
the messages of a turn has nothing more to say at its timers and at its tick.
-/

namespace BoothFloor

namespace Visitor

variable {v : Visitor} {m : Moment} {i : Input}

/-- Whether an input is an offer of a slot from a booth. -/
def offers (booth : NodeId) : Input → Bool
  | .message source .queueReady _ _ => source = booth
  | _ => false

/-- How many requests to register the visitor still owes for an introduction that it waits for. -/
def owed (v : Visitor) : Nat :=
  match v.phase with
  | .connected _ .boothInfo => 1
  | _ => 0

/-- On account of a message a visitor speaks to its own booth only, to accept it or to register. -/
theorem sent_of_message {source : NodeId} {message : Message} {rssi : Int16} {snr : Int8}
    {x : NodeId × Message}
    (hx : x ∈ Action.sent (v.react m (.message source message rssi snr)).2) :
    v.booth? = some x.1 ∧ (x.2 = .userResponse true ∨ x.2 = .registerRequest) := by
  have hreaction := v.react_reaction m (.message source message rssi snr)
  generalize v.react m (.message source message rssi snr) = outcome at hreaction hx
  cases hreaction with
  | accepts _ _ _ _ _ _ _ hphase =>
    have hbooth : v.booth? = some source := by
      rw [booth?, hphase]
      rfl
    simp only [Action.sent_cons_stopTimer, Action.sent_cons_emit, affirmActions_sent, List.mem_cons,
      List.not_mem_nil, or_false] at hx
    rcases hx with rfl | rfl
    · exact ⟨hbooth, .inl rfl⟩
    · exact ⟨hbooth, .inr rfl⟩
  | claims _ _ _ _ _ hphase =>
    rw [registerActions_sent, List.mem_singleton] at hx
    subst hx
    refine ⟨?_, .inr rfl⟩
    rw [booth?, hphase]
    rfl
  | queues =>
    dsimp only at hx
    split at hx <;> cases hx
  | _ => cases hx

/-- A message does not bring a visitor together with another booth. -/
theorem booth?_of_message (v : Visitor) (m : Moment) (source : NodeId) (message : Message) (rssi : Int16)
    (snr : Int8) :
    (v.react m (.message source message rssi snr)).1.booth? = v.booth? ∨
      (v.react m (.message source message rssi snr)).1.booth? = none := by
  have hreaction := v.react_reaction m (.message source message rssi snr)
  generalize v.react m (.message source message rssi snr) = outcome at hreaction
  cases hreaction with
  | idle | showsText | showsChat | showsExit | hears => exact .inl rfl
  | accepts _ _ _ _ _ _ _ hphase | consults _ _ _ _ _ _ _ hphase | claims _ _ _ _ _ hphase
  | placed _ _ _ _ _ _ _ _ _ hphase =>
    left
    change _ = v.phase.booth?
    rw [hphase]
    rfl
  | enters _ _ _ _ hregistering | queues _ _ _ hregistering =>
    exact .inl (booth?_of_registering? hregistering).symm
  | _ => exact .inr rfl

/-- Every request to register is owed for an introduction or answers an offer from the visitor's own
booth. -/
theorem register_of_message {booth : NodeId} (hbooth : v.booth? = some booth ∨ v.booth? = none)
    (source : NodeId) (message : Message) (rssi : Int16) (snr : Int8) :
    (Action.sent (v.react m (.message source message rssi snr)).2).countP (·.2 = .registerRequest) +
        (v.react m (.message source message rssi snr)).1.owed ≤
      v.owed + if offers booth (.message source message rssi snr) then 1 else 0 := by
  have hreaction := v.react_reaction m (.message source message rssi snr)
  generalize v.react m (.message source message rssi snr) = outcome at hreaction
  cases hreaction with
  | idle | showsText | showsChat | showsExit | hears => simp [owed]
  | accepts _ _ _ _ _ _ _ hphase =>
    simp [owed, hphase]
  | claims _ _ _ _ _ hphase =>
    have hown : v.booth? = some source := by
      rw [booth?, hphase]
      rfl
    rw [hown] at hbooth
    obtain rfl := Option.some.inj (hbooth.resolve_right (Option.some_ne_none source))
    simp [owed, offers]
  | queues =>
    dsimp only
    split <;> simp [owed]
  | consults | enters | refused | placed | dropped | timesOut => simp [owed, freed]

/-- What a visitor says in one turn. -/
inductive Errand (r : Rules) : List (NodeId × Message) → Prop
  | silence : Errand r []
  | scan : Errand r (r.hosts.ids.map (·, .boothScan))
  | connect (booth : NodeId) (hhost : r.isHost booth = true) : Errand r [(booth, .connectRequest)]
  /-- Registrations, some of them together with the acceptance of the booth. -/
  | register (booth : NodeId) (hhost : r.isHost booth = true) (letters : List (NodeId × Message))
      (hletters : ∀ x ∈ letters, x.1 = booth ∧ (x.2 = .userResponse true ∨ x.2 = .registerRequest))
      (hcount : letters.countP (·.2 = .registerRequest) ≤ 2) : Errand r letters
  | leave (booth : NodeId) (hhost : r.isHost booth = true) : Errand r [(booth, .queueLeave)]
  | exit (booth : NodeId) (hhost : r.isHost booth = true) : Errand r [(booth, .exitRequest)]

/-- Whoever ends a session does not register in the same turn. -/
theorem Errand.not_register_of_exit {r : Rules} {letters : List (NodeId × Message)} (h : Errand r letters)
    {b b' : NodeId} (hexit : (b, .exitRequest) ∈ letters) : (b', .registerRequest) ∉ letters := by
  cases h with
  | register _ _ _ hletters => rcases (hletters _ hexit).2 with heq | heq <;> cases heq
  | _ => simp at hexit ⊢

/-- Every message of an errand is for a host. -/
theorem Errand.isHost {r : Rules} {letters : List (NodeId × Message)} (h : Errand r letters)
    {x : NodeId × Message} (hx : x ∈ letters) : r.isHost x.1 = true := by
  cases h with
  | silence => cases hx
  | scan =>
    obtain ⟨b, hb, rfl⟩ := List.mem_map.mp hx
    exact IdRange.mem_ids_iff.mp hb
  | connect booth hhost | leave booth hhost | exit booth hhost => exact List.mem_singleton.mp hx ▸ hhost
  | register booth hhost _ hletters => exact (hletters x hx).1 ▸ hhost

/-- On account of a turn's messages a visitor speaks to its own booth only, to accept it or to
register. -/
theorem sent_of_messages {v : Visitor} {heard : List Input} (hheard : AllMessages heard)
    {x : NodeId × Message} (hx : x ∈ Action.sent (v.run (heard.map (m, ·))).2) :
    v.booth? = some x.1 ∧ (x.2 = .userResponse true ∨ x.2 = .registerRequest) := by
  induction heard generalizing v with
  | nil => cases hx
  | cons i rest ih =>
    obtain ⟨source, message, rssi, snr, rfl⟩ := hheard i List.mem_cons_self
    have hrest : AllMessages rest := fun j hj => hheard j (List.mem_cons_of_mem _ hj)
    change x ∈ Action.sent ((v.react m (.message source message rssi snr)).2 ++
      ((v.react m (.message source message rssi snr)).1.run (rest.map (m, ·))).2) at hx
    rw [Action.sent_append, List.mem_append] at hx
    rcases hx with hfirst | hlater
    · exact sent_of_message hfirst
    · obtain ⟨hbooth, hkind⟩ := ih hrest hlater
      rcases v.booth?_of_message m source message rssi snr with hsame | hnone
      · exact ⟨hsame ▸ hbooth, hkind⟩
      · rw [hnone] at hbooth
        cases hbooth

/-- The requests to register on account of a turn's messages are as many as there were offers from the
visitor's own booth, and one more at most. -/
theorem run_registers (v : Visitor) (m : Moment) {heard : List Input} (hheard : AllMessages heard)
    {booth : NodeId} (hbooth : v.booth? = some booth) :
    (Action.sent (v.run (heard.map (m, ·))).2).countP (·.2 = .registerRequest) ≤
      1 + heard.countP (offers booth) := by
  have hmessage (m' : Moment) (i : Input) (hmem : (m', i) ∈ heard.map (m, ·)) :
      ∃ source message rssi snr, i = .message source message rssi snr := by
    obtain ⟨j, hj, heq⟩ := List.mem_map.mp hmem
    obtain ⟨-, rfl⟩ := Prod.mk.inj heq
    exact hheard j hj
  have hcharges := runWith_charges Visitor.react (P := fun w => w.booth? = some booth ∨ w.booth? = none)
    (·.2 = .registerRequest) owed (fun i => if offers booth i then 1 else 0) (heard.map (m, ·))
    (.inl hbooth)
    (by
      intro w m' i hmem hw
      obtain ⟨source, message, rssi, snr, rfl⟩ := hmessage m' i hmem
      rcases w.booth?_of_message m' source message rssi snr with hsame | hnone
      · rw [hsame]
        exact hw
      · exact .inr hnone)
    (by
      intro w m' i hmem hw
      obtain ⟨source, message, rssi, snr, rfl⟩ := hmessage m' i hmem
      exact register_of_message hw source message rssi snr)
  have howed : v.owed ≤ 1 := by
    unfold owed
    split <;> omega
  have hsum : ((heard.map (m, ·)).map fun e => if offers booth e.2 then 1 else 0).sum =
      heard.countP (offers booth) := by
    rw [List.map_map]
    exact sum_map_ite_one (offers booth) heard
  unfold Visitor.run
  omega

/-- A booth is accepted only together with a request to register. -/
theorem react_acceptances (v : Visitor) (m : Moment) (i : Input) :
    (Action.sent (v.react m i).2).countP (·.2 = .userResponse true) ≤
      (Action.sent (v.react m i).2).countP (·.2 = .registerRequest) := by
  have hreaction := v.react_reaction m i
  generalize v.react m i = outcome at hreaction
  cases hreaction with
  | starts | rescans =>
    rw [startScan_sent]
    simp [List.countP_map, Function.comp_def]
  | queues =>
    dsimp only
    split <;> exact Nat.le_refl 0
  | _ => simp [connectActions, registerActions, affirmActions, freedActions]

/-- In a run a booth is accepted no more often than it is asked for a registration. -/
theorem run_acceptances (v : Visitor) (events : List (Moment × Input)) :
    (Action.sent (v.run events).2).countP (·.2 = .userResponse true) ≤
      (Action.sent (v.run events).2).countP (·.2 = .registerRequest) := by
  induction events generalizing v with
  | nil => exact Nat.le_refl 0
  | cons e rest ih =>
    change (Action.sent ((v.react e.1 e.2).2 ++ ((v.react e.1 e.2).1.run rest).2)).countP _ ≤
      (Action.sent ((v.react e.1 e.2).2 ++ ((v.react e.1 e.2).1.run rest).2)).countP _
    rw [Action.sent_append, List.countP_append, List.countP_append]
    exact Nat.add_le_add (react_acceptances v e.1 e.2) (ih _)

/-- No node is sent more than four messages on one errand. -/
theorem Errand.countP_dest_le {r : Rules} {letters : List (NodeId × Message)} (h : Errand r letters)
    (hacceptances : letters.countP (·.2 = .userResponse true) ≤ letters.countP (·.2 = .registerRequest))
    (b : NodeId) : letters.countP (·.1 = b) ≤ 4 := by
  cases h with
  | silence => exact Nat.zero_le _
  | scan =>
    rw [List.countP_map]
    have hone : r.hosts.ids.countP (· == b) ≤ 1 := List.nodup_iff_count_le_one.mp IdRange.nodup_ids b
    exact Nat.le_trans hone (by decide)
  | connect | leave | exit =>
    have hone (x : NodeId × Message) : [x].countP (·.1 = b) ≤ 1 := List.countP_le_length
    exact Nat.le_trans (hone _) (by decide)
  | register booth _ letters hletters hcount =>
    have hkinds : letters.length =
        letters.countP (·.2 = .userResponse true) + letters.countP (·.2 = .registerRequest) := by
      rw [List.length_eq_countP_add_countP (·.2 = .userResponse true)]
      congr 1
      refine List.countP_congr fun x hx => ?_
      rcases (hletters x hx).2 with heq | heq <;> simp [heq]
    have hlength : letters.countP (·.1 = b) ≤ letters.length := List.countP_le_length
    omega

/-- What a visitor says in a turn is one errand, and whoever takes leave of a booth then rests. -/
structure Said (r : Rules) (letters : List (NodeId × Message)) (w : Visitor) : Prop where
  errand : Errand r letters
  rests : ∀ b, (b, .exitRequest) ∈ letters ∨ (b, .queueLeave) ∈ letters → w.Resting

/-- Whoever says nothing takes leave of nobody. -/
theorem said_nil (r : Rules) (w : Visitor) : Said r [] w :=
  ⟨.silence, fun _ h => h.elim (absurd · List.not_mem_nil) (absurd · List.not_mem_nil)⟩

/-- Registering is no leave. -/
theorem said_register {r : Rules} {booth : NodeId} (hhost : r.isHost booth = true)
    {letters : List (NodeId × Message)}
    (hletters : ∀ x ∈ letters, x.1 = booth ∧ (x.2 = .userResponse true ∨ x.2 = .registerRequest))
    (hcount : letters.countP (·.2 = .registerRequest) ≤ 2) (w : Visitor) : Said r letters w where
  errand := .register booth hhost letters hletters hcount
  rests := by
    rintro b (hmem | hmem) <;> rcases (hletters _ hmem).2 with heq | heq <;> cases heq

/-- Asking a booth for its introduction is no leave. -/
theorem said_connect {r : Rules} {booth : NodeId} (hhost : r.isHost booth = true) (w : Visitor) :
    Said r [(booth, .connectRequest)] w where
  errand := .connect booth hhost
  rests := by rintro b (hmem | hmem) <;> simp at hmem

/-- The end of a scan leads to silence or to one booth. -/
theorem said_of_selection (h : v.Grounded) :
    Said v.rules (Action.sent (v.react m (.timer .selection)).2) (v.react m (.timer .selection)).1 := by
  have hreaction := v.react_reaction m (.timer .selection)
  generalize v.react m (.timer .selection) = outcome at hreaction
  cases hreaction with
  | idle | findsNone => exact said_nil _ _
  | connects booth score _ _ hchoice =>
    obtain ⟨e, he, -, rfl⟩ := Sightings.mem_of_choice hchoice
    simpa [Action.sent_append] using said_connect (h.sightings e he) _

/-- An overdue answer leads to one more request, to a leave or to silence. -/
theorem said_of_retry (h : v.Grounded) :
    Said v.rules (Action.sent (v.react m (.timer .retry)).2) (v.react m (.timer .retry)).1 := by
  have hhost {booth : NodeId} {p : Phase} (hphase : v.phase = p) (hp : p.booth? = some booth) :
      v.rules.isHost booth = true := h.booth booth (by rw [booth?, hphase, hp])
  have hreaction := v.react_reaction m (.timer .retry)
  generalize v.react m (.timer .retry) = outcome at hreaction
  cases hreaction with
  | idle | losesBooth | givesUp => exact said_nil _ _
  | reconnects booth hphase => exact said_connect (hhost hphase rfl) _
  | reaffirms booth hphase =>
    exact said_register (hhost hphase rfl) (by simp) (by simp) _
  | reclaims booth place hphase =>
    exact said_register (hhost hphase rfl) (by simp) (by simp) _
  | abandons booth place hphase =>
    exact ⟨.leave booth (hhost hphase rfl), fun _ _ => ⟨rfl, rfl⟩⟩

/-- A tick leads to a scan, to the end of a session or to silence. -/
theorem said_of_tick (h : v.Grounded) :
    Said v.rules (Action.sent (v.react m .tick).2) (v.react m .tick).1 := by
  have hreaction := v.react_reaction m .tick
  generalize v.react m .tick = outcome at hreaction
  cases hreaction with
  | idle => exact said_nil _ _
  | rescans =>
    rw [startScan_sent]
    refine ⟨.scan, ?_⟩
    rintro b (hmem | hmem) <;> simp at hmem
  | expires booth start hphase =>
    have hhost : v.rules.isHost booth = true := h.booth booth (by rw [booth?, hphase]; rfl)
    exact ⟨.exit booth hhost, fun _ _ => ⟨rfl, rfl⟩⟩

/-- Two parts of a turn of which one is silent make up one errand. -/
theorem Said.append {r : Rules} {first second : List (NodeId × Message)} {w w' : Visitor}
    (hfirst : Said r first w) (hsecond : Said r second w') (hsilent : first ≠ [] → second = [])
    (hrests : second = [] → w.Resting → w'.Resting) : Said r (first ++ second) w' := by
  by_cases hnone : first = []
  · rw [hnone, List.nil_append]
    exact hsecond
  · have hsecond := hsilent hnone
    rw [hsecond, List.append_nil]
    exact ⟨hfirst.errand, fun b hb => hrests hsecond (hfirst.rests b hb)⟩

/-- What is said on account of a turn's messages is one errand. -/
theorem said_of_messages (h : v.Grounded) {heard : List Input} (hheard : AllMessages heard)
    (hoffers : ∀ b, v.booth? = some b → heard.countP (offers b) ≤ 1) (w : Visitor) :
    Said v.rules (Action.sent (v.run (heard.map (m, ·))).2) w := by
  by_cases hsent : Action.sent (v.run (heard.map (m, ·))).2 = []
  · rw [hsent]
    exact said_nil _ _
  · obtain ⟨x, hx⟩ := List.exists_mem_of_ne_nil _ hsent
    have hbooth := (sent_of_messages hheard hx).1
    refine said_register (h.booth _ hbooth) (fun y hy => ?_) ?_ w
    · obtain ⟨hother, hkind⟩ := sent_of_messages hheard hy
      exact ⟨Option.some.inj (hother.symm.trans hbooth), hkind⟩
    · have hcount := v.run_registers m hheard hbooth
      have hone := hoffers _ hbooth
      omega

/-- A run over one more input. -/
theorem run_concat (v : Visitor) (m : Moment) (inputs : List Input) (i : Input) :
    v.run ((inputs ++ [i]).map (m, ·)) =
      (((v.run (inputs.map (m, ·))).1.react m i).1,
        (v.run (inputs.map (m, ·))).2 ++ ((v.run (inputs.map (m, ·))).1.react m i).2) :=
  runWith_concat Visitor.react v m inputs i

/-- One more input extends an errand if one of the two parts is silent. -/
theorem Said.concat {r : Rules} {inputs : List Input} {i : Input}
    (hfirst : Said r (Action.sent (v.run (inputs.map (m, ·))).2) (v.run (inputs.map (m, ·))).1)
    (hsecond : Said r (Action.sent ((v.run (inputs.map (m, ·))).1.react m i).2)
      ((v.run (inputs.map (m, ·))).1.react m i).1)
    (hsilent : Action.sent (v.run (inputs.map (m, ·))).2 ≠ [] →
      Action.sent ((v.run (inputs.map (m, ·))).1.react m i).2 = [])
    (hrests : Action.sent ((v.run (inputs.map (m, ·))).1.react m i).2 = [] →
      (v.run (inputs.map (m, ·))).1.Resting → ((v.run (inputs.map (m, ·))).1.react m i).1.Resting) :
    Said r (Action.sent (v.run ((inputs ++ [i]).map (m, ·))).2) (v.run ((inputs ++ [i]).map (m, ·))).1 := by
  rw [run_concat, Action.sent_append]
  exact hfirst.append hsecond hsilent hrests

/-- The inputs of a turn up to the end of a scan. -/
def upToSelection (heard : List Input) (selects : Bool) : List Input :=
  heard ++ if selects then [.timer .selection] else []

/-- The inputs of a turn up to the tick. -/
def upToRetry (heard : List Input) (selects retries : Bool) : List Input :=
  upToSelection heard selects ++ if retries then [.timer .retry] else []

/-- Up to the end of a scan the inputs are from the air and from that timer. -/
theorem isExternal_upToSelection {heard : List Input} (hheard : AllMessages heard) (selects : Bool) :
    ∀ i ∈ upToSelection heard selects, i.isExternal = true ∧ i ≠ .timer .retry := by
  intro i hi
  rcases List.mem_append.mp hi with hi | hi
  · obtain ⟨_, _, _, _, rfl⟩ := hheard i hi
    exact ⟨rfl, nofun⟩
  · split at hi
    · obtain rfl := List.mem_singleton.mp hi
      exact ⟨rfl, nofun⟩
    · cases hi

/-- Up to the tick the inputs are from the air and from the timers. -/
theorem isExternal_upToRetry {heard : List Input} (hheard : AllMessages heard) (selects retries : Bool) :
    ∀ i ∈ upToRetry heard selects retries, i.isExternal = true := by
  intro i hi
  rcases List.mem_append.mp hi with hi | hi
  · exact (isExternal_upToSelection hheard selects i hi).1
  · split at hi
    · obtain rfl := List.mem_singleton.mp hi
      rfl
    · cases hi

/-- What is said up to the end of a scan is one errand. -/
theorem said_upToSelection (h : v.Grounded) {heard : List Input} (hheard : AllMessages heard)
    (hoffers : ∀ b, v.booth? = some b → heard.countP (offers b) ≤ 1) (selects : Bool) :
    Said v.rules (Action.sent (v.run ((upToSelection heard selects).map (m, ·))).2)
      (v.run ((upToSelection heard selects).map (m, ·))).1 := by
  have hmessages := said_of_messages (m := m) h hheard hoffers (v.run (heard.map (m, ·))).1
  cases selects with
  | false => simpa [upToSelection] using hmessages
  | true =>
    have hselection := said_of_selection (m := m) (run_grounded h (heard.map (m, ·)))
    rw [v.run_rules] at hselection
    have hexternal : ∀ i ∈ heard, i.isExternal = true := fun i hi => by
      obtain ⟨_, _, _, _, rfl⟩ := hheard i hi
      rfl
    exact hmessages.concat hselection
      (fun hsent => sent_selection_of_spoken (v.run_spoken_of_sent hexternal hsent))
      (fun _ hrests => react_resting hrests rfl)

/-- What is said up to the tick is one errand, if an overdue answer is dealt with only while the retry
timer is as it was. -/
theorem said_upToRetry (h : v.Grounded) {heard : List Input} (hheard : AllMessages heard)
    (hoffers : ∀ b, v.booth? = some b → heard.countP (offers b) ≤ 1) (selects : Bool) {retries : Bool}
    (hretries : retries = true → ∀ act ∈ (v.run ((upToSelection heard selects).map (m, ·))).2,
      act.settles .retryTimeout = false) :
    Said v.rules (Action.sent (v.run ((upToRetry heard selects retries).map (m, ·))).2)
      (v.run ((upToRetry heard selects retries).map (m, ·))).1 := by
  have hnews := said_upToSelection (m := m) h hheard hoffers selects
  cases retries with
  | false => simpa [upToRetry] using hnews
  | true =>
    have hretry := said_of_retry (m := m) (run_grounded h ((upToSelection heard selects).map (m, ·)))
    rw [v.run_rules] at hretry
    refine hnews.concat hretry (fun hsent => ?_) (fun _ hrests => react_resting hrests rfl)
    obtain ⟨act, hact, hsettles⟩ :=
      v.run_settles_of_sent (isExternal_upToSelection hheard selects) hsent
    rw [hretries rfl act hact] at hsettles
    cases hsettles

/-- The inputs of a whole turn. -/
def turnInputs (heard : List Input) (selects retries : Bool) : List Input :=
  upToRetry heard selects retries ++ [.tick]

/-- In one turn a visitor goes on one errand, and whoever takes leave of a booth then rests. -/
theorem said_of_turn (h : v.Grounded) (interval : 0 < v.rules.scanInterval.toNat) {limit : Span}
    (holds : v.rules.clientLimit = .ok limit) (pos : 0 < limit.ms.toNat) (hosts : v.rules.hosts.ids ≠ [])
    {heard : List Input}
    (hheard : AllMessages heard) (hoffers : ∀ b, v.booth? = some b → heard.countP (offers b) ≤ 1)
    (selects : Bool) {retries : Bool}
    (hretries : retries = true → ∀ act ∈ (v.run ((upToSelection heard selects).map (m, ·))).2,
      act.settles .retryTimeout = false) :
    Said v.rules (Action.sent (v.run ((turnInputs heard selects retries).map (m, ·))).2)
      (v.run ((turnInputs heard selects retries).map (m, ·))).1 := by
  have hnews := said_upToRetry (m := m) h hheard hoffers selects hretries
  have hrules := v.run_rules ((upToRetry heard selects retries).map (m, ·))
  have htick := said_of_tick (m := m) (run_grounded h ((upToRetry heard selects retries).map (m, ·)))
  rw [hrules] at htick
  refine hnews.concat htick (fun hsent => ?_) (fun hsilent hrests => ?_)
  · have hspoken := v.run_spoken_of_sent (isExternal_upToRetry hheard selects retries) hsent
    rw [react_tick_of_spoken hspoken (by rw [hrules]; exact interval) (by rw [hrules]; exact holds) pos]
    rfl
  · exact react_tick_resting hrests hsilent (by rw [hrules]; exact hosts)

/-- A visitor that has begun a scan in this turn and has heard nothing in it. -/
structure Begun (m : Moment) (v : Visitor) : Prop where
  phase : v.phase = .scanning
  lastScan : v.lastScan = m.tick
  choice : v.sightings.choice = none

/-- A timer does not make such a visitor speak. -/
theorem Begun.react_timer (h : v.Begun m) (kind : TimerKind) :
    (v.react m (.timer kind)).1.Begun m ∧ Action.sent (v.react m (.timer kind)).2 = [] := by
  have hreaction := v.react_reaction m (.timer kind)
  generalize v.react m (.timer kind) = outcome at hreaction
  cases hreaction with
  | idle => exact ⟨h, rfl⟩
  | findsNone => exact ⟨⟨h.phase, rfl, rfl⟩, rfl⟩
  | connects _ _ _ _ hchoice =>
    rw [h.choice] at hchoice
    cases hchoice
  | reconnects _ hphase | losesBooth _ hphase | reaffirms _ hphase | givesUp _ hphase
  | reclaims _ _ hphase | abandons _ _ hphase =>
    rw [h.phase] at hphase
    cases hphase

/-- Nor does the tick. -/
theorem Begun.react_tick (h : v.Begun m) (interval : 0 < v.rules.scanInterval.toNat) :
    v.react m .tick = (v, []) := by
  have hreaction := v.react_reaction m .tick
  generalize v.react m .tick = outcome at hreaction
  cases hreaction with
  | idle => rfl
  | rescans _ _ hdue =>
    rw [h.lastScan] at hdue
    omega
  | expires _ _ hphase =>
    rw [h.phase] at hphase
    cases hphase

/-- Some timers do not make such a visitor speak either. -/
theorem Begun.run_timers (h : v.Begun m) {inputs : List Input}
    (hinputs : ∀ i ∈ inputs, ∃ kind, i = .timer kind) :
    (v.run (inputs.map (m, ·))).1.Begun m ∧ Action.sent (v.run (inputs.map (m, ·))).2 = [] := by
  induction inputs generalizing v with
  | nil => exact ⟨h, rfl⟩
  | cons i rest ih =>
    obtain ⟨kind, rfl⟩ := hinputs i List.mem_cons_self
    obtain ⟨hfirst, hsilent⟩ := h.react_timer kind
    obtain ⟨hlast, hrest⟩ := ih hfirst fun j hj => hinputs j (List.mem_cons_of_mem _ hj)
    refine ⟨hlast, ?_⟩
    change Action.sent ((v.react m (.timer kind)).2 ++
      ((v.react m (.timer kind)).1.run (rest.map (m, ·))).2) = []
    rw [Action.sent_append, hsilent, hrest]
    rfl

/-- In its first turn a visitor scans, and does nothing else. -/
theorem first_turn (id : NodeId) (r : Rules) (m : Moment) (interval : 0 < r.scanInterval.toNat)
    (selects retries : Bool) :
    let out := (ofRules id r).run ((.start :: turnInputs [] selects retries).map (m, ·))
    Action.sent out.2 = r.hosts.ids.map (·, .boothScan) ∧ out.1.phase = .scanning := by
  intro out
  have hbegun : (startScan m.tick (ofRules id r)).1.Begun m := ⟨rfl, rfl, rfl⟩
  have htimers : ∀ i ∈ upToRetry [] selects retries, ∃ kind, i = .timer kind := by
    intro i hi
    cases selects <;> cases retries <;> simp [upToRetry, upToSelection] at hi
    · exact ⟨_, hi⟩
    · exact ⟨_, hi⟩
    · exact hi.elim (fun h => ⟨_, h⟩) (fun h => ⟨_, h⟩)
  obtain ⟨hlast, hsilent⟩ := hbegun.run_timers htimers
  have hrules := (startScan m.tick (ofRules id r)).1.run_rules ((upToRetry [] selects retries).map (m, ·))
  have htick := hlast.react_tick (by rw [hrules]; exact interval)
  have hout : out = ((((startScan m.tick (ofRules id r)).1.run
      ((upToRetry [] selects retries).map (m, ·))).1.react m .tick).1,
        (startScan m.tick (ofRules id r)).2 ++ (((startScan m.tick (ofRules id r)).1.run
          ((upToRetry [] selects retries).map (m, ·))).2 ++ (((startScan m.tick (ofRules id r)).1.run
            ((upToRetry [] selects retries).map (m, ·))).1.react m .tick).2)) := by
    change andThen (startScan m.tick (ofRules id r))
      (fun w => w.run ((turnInputs [] selects retries).map (m, ·))) = _
    rw [andThen, turnInputs, run_concat]
  rw [hout, htick, Action.sent_append, Action.sent_append, hsilent, startScan_sent]
  exact ⟨List.append_nil _, hlast.phase⟩

end Visitor

end BoothFloor
