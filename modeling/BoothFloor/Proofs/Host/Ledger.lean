import BoothFloor.Proofs.Host.Admissions

/-!
# The notices of a host as a ledger of its booth

A host reports each admission and each departure from inside its booth, be it an exit or the end of a
session, and nothing else moves anyone in or out. So the register can be read off the notices of a run:
those ever admitted, and those of them who are still inside.
-/

namespace BoothFloor

/-- The user whose departure from inside a booth a notice reports: it has left, or its time was up. -/
def Notice.departed? : Notice → Option NodeId
  | userExited u | sessionExpired u => some u
  | _ => none

/-- A departure is reported by two kinds of notice. -/
theorem Notice.departed?_eq_some_iff {n : Notice} {u : NodeId} :
    n.departed? = some u ↔ n = .userExited u ∨ n = .sessionExpired u := by
  cases n <;> simp [departed?]

/-- A user is reported to have departed as often as it is reported to have left or to be over its time. -/
theorem Notice.count_departed (log : List Notice) (u : NodeId) :
    (log.filterMap departed?).count u = log.count (.userExited u) + log.count (.sessionExpired u) := by
  induction log with
  | nil => rfl
  | cons n rest ih =>
    rw [List.filterMap_cons]
    cases n with
    | userExited v | sessionExpired v =>
      simp only [departed?, List.count_cons, ih, beq_iff_eq, Notice.userExited.injEq, Notice.sessionExpired.injEq,
        reduceCtorEq, if_false]
      omega
    | _ => simp [departed?, ih]

namespace Action

/-- The users whose departure some actions report, in order. -/
def departures (acts : List Action) : List NodeId := (emitted acts).filterMap Notice.departed?

end Action

namespace Booth

variable {b : Booth} {u : NodeId}

/-- An offer moves nobody out. -/
theorem offerNotices_departed (b : Booth) (now : Instant) :
    (b.offerNotices now).filterMap Notice.departed? = [] := by
  simp [offerNotices, Notice.departed?, Function.comp_def]

/-- No answer to a request to register moves anybody out. -/
theorem answerNotices_departed (u : NodeId) (now : Instant) (judged : Verdict × Booth) :
    (answerNotices u now judged).filterMap Notice.departed? = [] := by
  obtain ⟨verdict, after⟩ := judged
  rcases verdict with (_ | _) | _ | _ | _ | _ <;>
    simp [answerNotices, List.filterMap_cons, Notice.departed?, offerNotices_departed]

/-- A request to register brings inside whomever it is reported to admit. -/
theorem register_activeUsers (b : Booth) (u : NodeId) (now : Instant) :
    (b.register u now).2.activeUsers =
      b.activeUsers ++ (answerNotices u now (b.register u now)).filterMap Notice.admitted? := by
  have hjudged := register_judged b u now
  generalize b.register u now = outcome at hjudged
  cases hjudged with
  | enters =>
    cases b.isWaiting u <;>
      simp [answerNotices, welcome, activeUsers, Notice.admitted?, offerNotices_admitted]
  | _ => simp [activeUsers, answerNotices, List.filterMap_cons, Notice.admitted?]

end Booth

namespace Host

variable {h : Host} {m : Moment} {i : Input} {u : NodeId}

/-- Of the messages only the request of a user inside to exit moves anyone out. -/
theorem onMessage_departures (h : Host) (now : Instant) (source : NodeId) (message : Message) :
    Action.departures (h.onMessage now source message).2 =
      if h.rules.isHost source then []
      else match message with
        | .exitRequest => if source ∈ h.booth.activeUsers then [source] else []
        | _ => [] := by
  rw [Action.departures, onMessage_emitted]
  split
  · rfl
  · cases message with
    | registerRequest =>
      simp only [onRegister_emitted]
      exact Booth.answerNotices_departed ..
    | exitRequest =>
      simp only [onExit_emitted]
      split <;> simp [Notice.departed?, Booth.offerNotices_departed]
    | queueLeave =>
      simp only [onQueueLeave_emitted]
      split <;> simp [Booth.offerNotices_departed]
    | chat sender text =>
      simp only [onChat_emitted]
      split <;> simp [List.filterMap_cons, Notice.departed?]
    | _ => rfl

/-- A tick moves those out whose sessions a sweep finds over. -/
theorem onTick_departures (h : Host) (m : Moment) :
    Action.departures (h.onTick m).2 =
      if m.tick % h.rules.sweepInterval.toNat = 0 then h.booth.expired m.now h.rules.sessionDuration
      else [] := by
  rw [Action.departures, onTick_emitted]
  split
  · simp [sweep_emitted, Booth.withdrawalNotices, Booth.offerNotices_departed, Notice.departed?,
      Function.comp_def]
  · rfl

/-- A tick takes those off the list of those inside whose departure it reports. -/
theorem onTick_activeUsers (horderly : h.booth.Orderly) (m : Moment) :
    (h.onTick m).1.booth.activeUsers = h.booth.activeUsers.filter (· ∉ Action.departures (h.onTick m).2) := by
  rw [onTick_departures, onTick_fst]
  split
  · rw [← horderly.sweepSessions_activeUsers, sweep_fst, Booth.activeUsers, Booth.offerNext_active]
    obtain ⟨o, -, -, heq⟩ | heq := Booth.sweepOffer_cases (h.booth.sweepSessions m.now h.rules.sessionDuration).2
      m.now h.rules.queueReadyTimeout
    · rw [heq]
      rfl
    · rw [heq]
      rfl
  · simp

/-- A message moves those in whose admission and those out whose departure it makes the host report. -/
theorem onMessage_activeUsers (horderly : h.booth.Orderly) (now : Instant) (source : NodeId) (message : Message) :
    (h.onMessage now source message).1.booth.activeUsers =
      (h.booth.activeUsers ++ Action.admissions (h.onMessage now source message).2).filter
        (· ∉ Action.departures (h.onMessage now source message).2) := by
  rw [onMessage_fst, onMessage_admissions, onMessage_departures]
  split
  · simp
  · cases message with
    | registerRequest =>
      simp only [onRegister_fst, List.not_mem_nil, not_false_eq_true, decide_true, List.filter_true]
      rw [← Booth.register_activeUsers]
      split
      · rw [Booth.activeUsers, Booth.offerNext_active]
        rfl
      · rfl
    | exitRequest =>
      simp only [onExit_fst, h.booth.isSome_removeActive source, List.append_nil]
      split
      · rw [Booth.activeUsers, Booth.offerNext_active]
        change (h.booth.removeActive source).2.activeUsers = _
        simpa using horderly.removeActive_activeUsers source
      · simp
    | queueLeave =>
      have hleft : (h.booth.leaveQueue source).2.active = h.booth.active := by
        change ((h.booth.removeWaiting source).releaseOffer source).active = _
        rw [Booth.releaseOffer_eq]
        rfl
      simp only [onQueueLeave_fst]
      split <;> simp [Booth.activeUsers, Booth.offerNext_active, hleft]
    | _ => simp

/-- A reaction moves those in whose admission and those out whose departure it reports. -/
theorem react_activeUsers (horderly : h.booth.Orderly) (m : Moment) (i : Input) :
    (h.react m i).1.booth.activeUsers =
      (h.booth.activeUsers ++ Action.admissions (h.react m i).2).filter
        (· ∉ Action.departures (h.react m i).2) := by
  cases i with
  | start | timer => simp [react, announceTo, Action.admissions, Action.departures]
  | intent i =>
    cases i <;>
      simp [react, onIntent, Action.admissions, Action.departures, Notice.admitted?, Notice.departed?,
        List.filterMap_cons]
  | tick =>
    have hadmitted : Action.admissions (h.react m .tick).2 = [] := onTick_admissions h m
    rw [hadmitted, List.append_nil]
    exact onTick_activeUsers horderly m
  | message source message => exact onMessage_activeUsers horderly m.now source message

/-- Whoever a reaction moves out was inside before, and is moved out once. -/
theorem react_departures (horderly : h.booth.Orderly) (m : Moment) (i : Input) :
    (Action.departures (h.react m i).2).Nodup ∧
      ∀ u ∈ Action.departures (h.react m i).2, u ∈ h.booth.activeUsers := by
  cases i with
  | start | timer => simp [react, announceTo, Action.departures]
  | intent i =>
    cases i <;> simp [react, onIntent, Action.departures, Notice.departed?, List.filterMap_cons]
  | tick =>
    change (Action.departures (h.onTick m).2).Nodup ∧ ∀ u ∈ Action.departures (h.onTick m).2, _
    have hexpired := h.booth.expired_sublist m.now h.rules.sessionDuration
    rw [onTick_departures]
    split
    · exact ⟨horderly.active_nodup.sublist hexpired, fun _ hu => hexpired.subset hu⟩
    · exact ⟨List.nodup_nil, fun _ hu => absurd hu List.not_mem_nil⟩
  | message source message =>
    change (Action.departures (h.onMessage m.now source message).2).Nodup ∧
      ∀ u ∈ Action.departures (h.onMessage m.now source message).2, _
    rw [onMessage_departures]
    split
    · simp
    · cases message with
      | exitRequest =>
        dsimp only
        split
        · next hin => simpa using hin
        · simp
      | _ => simp

end Host

/-- A booth is as a log of notices tells: those ever admitted are the admissions of the log, and those inside
the ones among them without a departure, of which everyone has one at most and only after its admission. -/
structure Booth.Recorded (b : Booth) (log : List Notice) : Prop where
  registered : b.registered = log.filterMap Notice.admitted?
  active : b.activeUsers = b.registered.filter (· ∉ log.filterMap Notice.departed?)
  once : (log.filterMap Notice.departed?).Nodup
  later : ∀ before n after u, log = before ++ n :: after → n.departed? = some u →
    u ∈ before.filterMap Notice.admitted?

namespace Booth

variable {b : Booth} {log : List Notice} {u : NodeId}

/-- Whoever a log reports to have left was admitted before. -/
theorem Recorded.registered_of_departed (h : b.Recorded log) (hu : u ∈ log.filterMap Notice.departed?) :
    u ∈ b.registered := by
  obtain ⟨n, hn, hdeparted⟩ := List.mem_filterMap.mp hu
  obtain ⟨before, after, rfl⟩ := List.append_of_mem hn
  have hadmitted := h.later before n after u rfl hdeparted
  rw [h.registered, List.filterMap_append]
  exact List.mem_append_left _ hadmitted

/-- Everyone ever admitted is inside or has departed. -/
theorem Recorded.length_registered (h : b.Recorded log) (horderly : b.Orderly) :
    b.registered.length = b.active.length + (log.filterMap Notice.departed?).length := by
  have hdeparted : (b.registered.filter (· ∈ log.filterMap Notice.departed?)).Perm
      (log.filterMap Notice.departed?) := by
    refine (List.perm_ext_iff_of_nodup (horderly.registered_nodup.filter _) h.once).mpr fun u => ?_
    rw [List.mem_filter, decide_eq_true_iff]
    exact ⟨fun hu => hu.2, fun hu => ⟨h.registered_of_departed hu, hu⟩⟩
  have hinside : b.active.length = b.registered.countP fun u => ¬ u ∈ log.filterMap Notice.departed? := by
    rw [← length_activeUsers, h.active, List.countP_eq_length_filter]
  rw [hinside, ← hdeparted.length_eq, ← List.countP_eq_length_filter,
    List.length_eq_countP_add_countP (· ∈ log.filterMap Notice.departed?), Nat.add_comm]
  simp

end Booth

namespace Host

variable {h : Host} {log : List Notice}

/-- The log of a host goes on with what a reaction reports. -/
theorem react_recorded (horderly : h.booth.Orderly) (hlog : h.booth.Recorded log) (m : Moment) (i : Input) :
    (h.react m i).1.booth.Recorded (log ++ Action.emitted (h.react m i).2) := by
  obtain ⟨hnodup, hinside⟩ := react_departures horderly m i
  have hregistered := h.react_admissions m i
  have hdistinct := (react_orderly horderly m i).registered_nodup
  rw [hregistered] at hdistinct
  -- whoever departs now is inside, so it is on record and without a departure so far
  have hknown : ∀ u ∈ Action.departures (h.react m i).2,
      u ∈ log.filterMap Notice.admitted? ∧ u ∉ log.filterMap Notice.departed? := by
    intro u hu
    have hactive := hinside u hu
    rwa [hlog.active, hlog.registered, List.mem_filter, decide_eq_true_iff] at hactive
  constructor
  case registered => rw [hregistered, hlog.registered, List.filterMap_append, Action.admissions]
  case active =>
    -- whoever is admitted now has never been before, so it has not departed either
    have hkept : (Action.admissions (h.react m i).2).filter (· ∉ log.filterMap Notice.departed?) =
        Action.admissions (h.react m i).2 :=
      List.filter_eq_self.mpr fun u hu => decide_eq_true fun hdeparted =>
        List.disjoint_of_nodup_append hdistinct (hlog.registered_of_departed hdeparted) hu
    rw [react_activeUsers horderly, hlog.active, hregistered, ← hkept, ← List.filter_append, List.filter_filter,
      hkept, List.filterMap_append]
    refine List.filter_congr fun u _ => ?_
    rw [← Bool.decide_and, decide_eq_decide, List.mem_append, not_or, and_comm, Action.departures]
  case once =>
    rw [List.filterMap_append]
    exact hlog.once.append hnodup fun u hbefore hnow => (hknown u hnow).2 hbefore
  case later =>
    intro before n after u heq hdeparted
    have hnow (hn : n ∈ Action.emitted (h.react m i).2) : u ∈ log.filterMap Notice.admitted? :=
      (hknown u (List.mem_filterMap.mpr ⟨n, hn, hdeparted⟩)).1
    rcases List.append_eq_append_iff.mp heq with ⟨between, rfl, hrest⟩ | ⟨between, hlogged, hrest⟩
    · rw [List.filterMap_append]
      exact List.mem_append_left _ (hnow (hrest ▸ by simp))
    · cases between with
      | nil =>
        rw [List.append_nil] at hlogged
        rw [List.nil_append] at hrest
        exact hlogged ▸ hnow (hrest ▸ List.mem_cons_self)
      | cons first between =>
        obtain ⟨rfl, rfl⟩ := List.cons.inj hrest
        exact hlog.later before n between u hlogged hdeparted

/-- The log of a host goes on with what a run reports. -/
theorem run_recorded (horderly : h.booth.Orderly) (hlog : h.booth.Recorded log)
    (events : List (Moment × Input)) :
    (h.run events).1.booth.Recorded (log ++ Action.emitted (h.run events).2) := by
  induction events generalizing h log with
  | nil => simpa [run, runWith] using hlog
  | cons e rest ih =>
    have hrest := ih (react_orderly horderly e.1 e.2) (react_recorded horderly hlog e.1 e.2)
    rwa [run_cons, Action.emitted_append, ← List.append_assoc]

/-- A booth that has just been opened has nothing on record. -/
theorem recorded_ofRules (id : NodeId) (r : Rules) : (ofRules id r).booth.Recorded [] where
  registered := rfl
  active := rfl
  once := List.nodup_nil
  later := fun before n after u heq => by simp at heq

/-- The register of a host can be read off what it has reported. Those ever admitted are those whose admission
it reports, in order; everyone is reported to exit or to be over its time once at most, and after its
admission; and those inside are the ones admitted of whom neither is reported. -/
theorem run_ledger (id : NodeId) (r : Rules) (events : List (Moment × Input)) :
    let b := ((ofRules id r).run events).1.booth
    let log := Action.emitted ((ofRules id r).run events).2
    b.registered = log.filterMap Notice.admitted? ∧
      (∀ u, log.count (.userExited u) + log.count (.sessionExpired u) ≤ 1) ∧
      (∀ before n after u, log = before ++ n :: after → n = .userExited u ∨ n = .sessionExpired u →
        .userAdmitted u ∈ before) ∧
      b.activeUsers = b.registered.filter fun u => .userExited u ∉ log ∧ .sessionExpired u ∉ log := by
  intro b log
  have hlog : b.Recorded log :=
    run_recorded (Booth.orderly_ofRules id r) (recorded_ofRules id r) events
  refine ⟨hlog.registered, fun u => ?_, fun before n after u heq hdeparted => ?_, ?_⟩
  · rw [← Notice.count_departed]
    exact List.nodup_iff_count_le_one.mp hlog.once u
  · obtain ⟨n, hn, hadmitted⟩ :=
      List.mem_filterMap.mp (hlog.later before n after u heq (Notice.departed?_eq_some_iff.mpr hdeparted))
    exact Notice.admitted?_eq_some_iff.mp hadmitted ▸ hn
  · rw [hlog.active]
    refine List.filter_congr fun u _ => ?_
    rw [decide_eq_decide, List.mem_filterMap]
    constructor
    · exact fun hnone => ⟨fun hn => hnone ⟨_, hn, rfl⟩, fun hn => hnone ⟨_, hn, rfl⟩⟩
    · rintro ⟨hexited, hexpired⟩ ⟨n, hn, hdeparted⟩
      rcases Notice.departed?_eq_some_iff.mp hdeparted with rfl | rfl
      · exact hexited hn
      · exact hexpired hn

end Host

end BoothFloor
