import BoothFloor.Proofs.Host.Confirmation
import BoothFloor.Proofs.Host.Notices

/-!
# Whom a host has ever admitted

The list of those admitted is the record of the admissions that a host reports: a reaction adds to the
list exactly those whom it reports, and nothing is ever taken off it. As the list has no duplicates,
nobody is admitted twice. Whoever is on it neither waits nor is offered a slot, and its requests to
register change nothing.
-/

namespace BoothFloor

/-- The user whose admission a notice reports. -/
def Notice.admitted? : Notice → Option NodeId
  | userAdmitted u => some u
  | _ => none

/-- An admission is reported by one kind of notice. -/
theorem Notice.admitted?_eq_some_iff {n : Notice} {u : NodeId} :
    n.admitted? = some u ↔ n = .userAdmitted u := by
  cases n <;> simp [admitted?]

namespace Action

/-- The users whose admission some actions report, in order. -/
def admissions (acts : List Action) : List NodeId := (emitted acts).filterMap Notice.admitted?

/-- The admissions of a first and a second part follow one another. -/
theorem admissions_append (first second : List Action) :
    admissions (first ++ second) = admissions first ++ admissions second := by
  rw [admissions, emitted_append, List.filterMap_append]
  rfl

/-- An admission is reported as often as its notice is. -/
theorem count_admissions (acts : List Action) (u : NodeId) :
    (admissions acts).count u = (emitted acts).count (.userAdmitted u) := by
  rw [admissions, List.count_filterMap, List.count_eq_countP]
  refine List.countP_congr fun n _ => ?_
  rw [beq_iff_eq, beq_iff_eq, Notice.admitted?_eq_some_iff]

end Action

namespace Booth

variable {b : Booth} {u : NodeId}

/-- An offer admits nobody. -/
theorem offerNotices_admitted (b : Booth) (now : Instant) :
    (b.offerNotices now).filterMap Notice.admitted? = [] := by
  simp [offerNotices, Notice.admitted?, Function.comp_def]

/-- A request to register puts on the list whomever it is reported to admit. -/
theorem register_admitted (b : Booth) (u : NodeId) (now : Instant) :
    (b.register u now).2.registered =
      b.registered ++ (answerNotices u now (b.register u now)).filterMap Notice.admitted? := by
  have hjudged := register_judged b u now
  generalize b.register u now = outcome at hjudged
  cases hjudged with
  | enters => cases b.isWaiting u <;> simp [answerNotices, welcome, Notice.admitted?, offerNotices_admitted]
  | _ => simp [answerNotices, List.filterMap_cons, Notice.admitted?]

/-- The only user whom a request to register can admit is the one who has made it. -/
theorem eq_of_answer_admits {v : NodeId} {now : Instant} {judged : Verdict × Booth}
    (hmem : v ∈ (answerNotices u now judged).filterMap Notice.admitted?) : v = u := by
  obtain ⟨verdict, after⟩ := judged
  rcases verdict with (_ | _) | _ | _ | _ | _
  case admitted.false | admitted.true =>
    simpa [answerNotices, List.filterMap_cons, Notice.admitted?, offerNotices_admitted] using hmem
  all_goals simp [answerNotices, List.filterMap_cons, Notice.admitted?] at hmem

/-- Once admitted, a user is confirmed while it is inside and refused afterwards. -/
theorem register_of_registered (hold : b.isRegistered u = true) (now : Instant) :
    b.register u now = (if u ∈ b.activeUsers then .alreadyActive else .alreadyUsed, b) := by
  have hjudged := register_judged b u now
  generalize b.register u now = outcome at hjudged
  cases hjudged with
  | confirmed hin => rw [if_pos hin]
  | refused hout => rw [if_neg hout]
  | stays _ hnew | joins _ hnew | turnedAway _ hnew | unlisted _ hnew | enters _ hnew =>
    rw [hnew] at hold
    cases hold

/-- Once admitted, a user holds no offer. -/
theorem Orderly.not_offered_of_registered (h : b.Orderly) (hold : u ∈ b.registered) :
    b.isOffered u = false :=
  h.isOffered_of_not_mem fun hwait => h.waiting_new u hwait hold

end Booth

namespace Host

variable {h : Host} {m : Moment} {i : Input} {u : NodeId}

/-- Only a visitor's request to register can report an admission. -/
theorem onMessage_admissions (h : Host) (now : Instant) (source : NodeId) (message : Message) :
    Action.admissions (h.onMessage now source message).2 =
      if h.rules.isHost source then []
      else match message with
        | .registerRequest =>
          (Booth.answerNotices source now (h.booth.register source now)).filterMap Notice.admitted?
        | _ => [] := by
  rw [Action.admissions, onMessage_emitted]
  split
  · rfl
  · cases message with
    | registerRequest => rw [onRegister_emitted]
    | exitRequest =>
      simp only [onExit_emitted]
      split <;> simp [List.filterMap_cons, Notice.admitted?, Booth.offerNotices_admitted]
    | queueLeave =>
      simp only [onQueueLeave_emitted]
      split <;> simp [Booth.offerNotices_admitted]
    | chat sender text =>
      simp only [onChat_emitted]
      split <;> simp [List.filterMap_cons, Notice.admitted?]
    | _ => rfl

/-- Only a visitor's request to register can change the list of those admitted. -/
theorem onMessage_registered (h : Host) (now : Instant) (source : NodeId) (message : Message) :
    (h.onMessage now source message).1.booth.registered =
      if h.rules.isHost source then h.booth.registered
      else match message with
        | .registerRequest => (h.booth.register source now).2.registered
        | _ => h.booth.registered := by
  rw [onMessage_fst]
  split
  · rfl
  · cases message with
    | registerRequest =>
      simp only [onRegister_fst]
      split
      · rw [Booth.offerNext_registered]
      · rfl
    | exitRequest =>
      simp only [onExit_fst]
      split
      · rw [Booth.offerNext_registered]
        rfl
      · rfl
    | queueLeave =>
      simp only [onQueueLeave_fst]
      split
      · rw [Booth.offerNext_registered, Booth.leaveQueue_registered]
      · rw [Booth.leaveQueue_registered]
    | _ => rfl

/-- A tick reports no admission. -/
theorem onTick_admissions (h : Host) (m : Moment) : Action.admissions (h.onTick m).2 = [] := by
  rw [Action.admissions, onTick_emitted]
  split
  · simp [sweep_emitted, Booth.withdrawalNotices, Booth.offerNotices_admitted, Notice.admitted?,
      Function.comp_def]
  · rfl

/-- A tick leaves the list of those admitted as it is. -/
theorem onTick_registered (h : Host) (m : Moment) : (h.onTick m).1.booth.registered = h.booth.registered := by
  rw [onTick_fst]
  split
  · simp only [sweep_fst, Booth.offerNext_registered, Booth.sweepOffer_registered, Booth.sweepSessions_registered]
  · rfl

/-- A reaction puts on the list of those admitted exactly those whom it reports to be. -/
theorem react_admissions (h : Host) (m : Moment) (i : Input) :
    (h.react m i).1.booth.registered = h.booth.registered ++ Action.admissions (h.react m i).2 := by
  cases i with
  | start | timer => simp [react, announceTo, Action.admissions]
  | intent i => cases i <;> simp [react, onIntent, Action.admissions, List.filterMap_cons, Notice.admitted?]
  | tick =>
    change (h.onTick m).1.booth.registered = _ ++ Action.admissions (h.onTick m).2
    rw [onTick_registered, onTick_admissions, List.append_nil]
  | message source message =>
    change (h.onMessage m.now source message).1.booth.registered =
      _ ++ Action.admissions (h.onMessage m.now source message).2
    rw [onMessage_registered, onMessage_admissions]
    split
    · rw [List.append_nil]
    · cases message with
      | registerRequest => exact h.booth.register_admitted source m.now
      | _ => exact (List.append_nil _).symm

/-- A reaction admits a visitor only, and only on its own request. -/
theorem react_admits (hmem : u ∈ Action.admissions (h.react m i).2) :
    (∃ rssi snr, i = .message u .registerRequest rssi snr) ∧ h.rules.isHost u = false := by
  cases i with
  | start | timer => simp [react, announceTo, Action.admissions] at hmem
  | intent i => cases i <;> simp [react, onIntent, Action.admissions, List.filterMap_cons, Notice.admitted?] at hmem
  | tick =>
    change u ∈ Action.admissions (h.onTick m).2 at hmem
    rw [onTick_admissions] at hmem
    cases hmem
  | message source message rssi snr =>
    change u ∈ Action.admissions (h.onMessage m.now source message).2 at hmem
    rw [onMessage_admissions] at hmem
    split at hmem
    · cases hmem
    · next hguest =>
      cases message with
      | registerRequest =>
        obtain rfl := Booth.eq_of_answer_admits hmem
        exact ⟨⟨rssi, snr, rfl⟩, Bool.eq_false_iff.mpr hguest⟩
      | _ => cases hmem

/-- The list of those admitted is the record of the admissions of a run. -/
theorem run_admissions (h : Host) (events : List (Moment × Input)) :
    (h.run events).1.booth.registered = h.booth.registered ++ Action.admissions (h.run events).2 := by
  induction events generalizing h with
  | nil => simp [run, runWith, Action.admissions]
  | cons e rest ih =>
    rw [run_cons, ih, react_admissions, Action.admissions_append, List.append_assoc]

/-- Those whom a run admits are visitors. -/
theorem run_admits_guests {events : List (Moment × Input)} (hmem : u ∈ Action.admissions (h.run events).2) :
    h.rules.isHost u = false := by
  induction events generalizing h with
  | nil => cases hmem
  | cons e rest ih =>
    rw [run_cons, Action.admissions_append, List.mem_append] at hmem
    rcases hmem with hfirst | hrest
    · exact (react_admits hfirst).2
    · exact h.react_rules e.1 e.2 ▸ ih hrest

/-- A user once admitted gets no new session: those that it has later it has now. -/
theorem react_session {s : Session} (hold : h.booth.isRegistered s.user = true)
    (hlater : s ∈ (h.react m i).1.booth.active) : s ∈ h.booth.active := by
  have hkept : (h.react m i).1.booth.isRegistered s.user = true ∧
      (s ∈ (h.react m i).1.booth.active → s ∈ h.booth.active) := by
    apply h.react_keeps (P := fun b => b.isRegistered s.user = true ∧ (s ∈ b.active → s ∈ h.booth.active)) m i
      ⟨hold, fun hin => hin⟩
    · -- only an admission begins a session, and it is of a user who is not in the set
      intro b v _ _ _ hb
      refine ⟨Booth.isRegistered_register hb.1 v m.now, fun hin => hb.2 ?_⟩
      have hjudged := b.register_judged v m.now
      generalize b.register v m.now = outcome at hjudged hin
      cases hjudged with
      | enters _ hnew =>
        rcases List.mem_append.mp hin with hin | hin
        · exact hin
        · obtain rfl := List.mem_singleton.mp hin
          exact absurd hb.1 (Bool.eq_false_iff.mp hnew)
      | _ => exact hin
    · exact fun b v _ _ _ hb => ⟨hb.1, fun hin => hb.2 (List.mem_of_mem_eraseP hin)⟩
    · intro b v _ _ _ hb
      change ((b.removeWaiting v).releaseOffer v).isRegistered s.user = true ∧
        (s ∈ ((b.removeWaiting v).releaseOffer v).active → _)
      rw [Booth.releaseOffer_eq]
      exact hb
    · intro b limit _ hb
      rw [Booth.sweepSessions_snd]
      exact ⟨hb.1, fun hin => hb.2 ((Booth.foldl_eraseP_sublist _ _).subset hin)⟩
    · intro b limit _ hb
      rcases b.sweepOffer_cases m.now limit with ⟨o, -, -, heq⟩ | heq
      · rw [heq]
        exact hb
      · rw [heq]
        exact hb
    · intro b hb
      rw [Booth.offerNext_snd]
      exact hb
  exact hkept.2 hlater

/-- A user once admitted has no session later in a run that it does not have now. -/
theorem run_session {s : Session} (horderly : h.booth.Orderly) (hold : s.user ∈ h.booth.registered)
    {events : List (Moment × Input)} (hlater : s ∈ (h.run events).1.booth.active) : s ∈ h.booth.active := by
  induction events generalizing h with
  | nil => exact hlater
  | cons e rest ih =>
    exact react_session ((horderly.agrees _).mpr hold)
      (ih (react_orderly horderly e.1 e.2) (h.react_registered e.1 e.2 hold) hlater)

/-- Another request of a user once admitted changes nothing: the user is confirmed while it is inside and
refused afterwards. -/
theorem react_register_again (hguest : h.rules.isHost u = false) (hold : h.booth.isRegistered u = true) (m : Moment)
    (rssi : Int16) (snr : Int8) :
    h.react m (.message u .registerRequest rssi snr) =
      (h, if u ∈ h.booth.activeUsers then [.send u (.registerResponse true .success)]
        else [.send u (.registerResponse false .alreadyUsed), .emit (.userRefused u)]) := by
  rw [react_register_guest hguest, onRegister, Booth.register_of_registered hold]
  by_cases hin : u ∈ h.booth.activeUsers
  · simp only [if_pos hin]
  · simp only [if_neg hin]

/-- A visit to a booth happens once. Whatever inputs a host is given, it admits a user once at most; from
then on the user neither waits nor is offered a slot, keeps the session of that admission and no other,
and is answered to each further request to register: confirmed while it is inside, refused afterwards. -/
theorem run_admits_once (id : NodeId) (r : Rules) (u : NodeId) (events : List (Moment × Input)) :
    let first := (ofRules id r).run events
    (Action.emitted first.2).count (.userAdmitted u) ≤ 1 ∧
      (.userAdmitted u ∈ Action.emitted first.2 → ∀ later,
        let h := (first.1.run later).1
        u ∉ h.booth.waiting ∧ h.booth.isOffered u = false ∧
        (∀ s ∈ h.booth.active, s.user = u → s ∈ first.1.booth.active) ∧
        ∀ m rssi snr, h.react m (.message u .registerRequest rssi snr) =
          (h, if u ∈ h.booth.activeUsers then [.send u (.registerResponse true .success)]
            else [.send u (.registerResponse false .alreadyUsed), .emit (.userRefused u)])) := by
  intro first
  have horderly : first.1.booth.Orderly := run_orderly (Booth.orderly_ofRules id r) events
  have hrecord : first.1.booth.registered = Action.admissions first.2 := run_admissions (ofRules id r) events
  constructor
  · rw [← Action.count_admissions, ← hrecord]
    exact List.nodup_iff_count_le_one.mp horderly.registered_nodup u
  · intro hadmitted later h
    have hmem : u ∈ Action.admissions first.2 := List.mem_filterMap.mpr ⟨_, hadmitted, rfl⟩
    have hguest : h.rules.isHost u = false := by
      rw [run_rules, run_rules]
      exact run_admits_guests hmem
    have hfirst : u ∈ first.1.booth.registered := hrecord ▸ hmem
    have hold : u ∈ h.booth.registered := run_registered first.1 later hfirst
    have hlater : h.booth.Orderly := run_orderly horderly later
    refine ⟨fun hwait => hlater.waiting_new u hwait hold, hlater.not_offered_of_registered hold, ?_,
      react_register_again hguest ((hlater.agrees u).mpr hold)⟩
    rintro s hs rfl
    exact run_session horderly hfirst hs

/-- Of the first two visitors in `threeVisitors`, both of them admitted, the one that stays is confirmed
once more and the one that has left is refused, though its slot is free. -/
theorem run_admits_once_threeVisitors :
    let first := (ofRules ⟨1⟩ .brisk).run threeVisitors
    let again (u : UInt8) := first.1.react ⟨⟨40⟩, 3⟩ (.message ⟨u⟩ .registerRequest 0 0)
    (.userAdmitted ⟨4⟩ ∈ Action.emitted first.2 ∧ .userAdmitted ⟨5⟩ ∈ Action.emitted first.2) ∧
      first.1.booth.hasFreeSlot = true ∧
      (again 4).2 = [.send ⟨4⟩ (.registerResponse true .success)] ∧
      (again 5).2 = [.send ⟨5⟩ (.registerResponse false .alreadyUsed), .emit (.userRefused ⟨5⟩)] := by
  intro first again
  have hstays : .userAdmitted ⟨4⟩ ∈ Action.emitted first.2 := by decide
  have hleft : .userAdmitted ⟨5⟩ ∈ Action.emitted first.2 := by decide
  obtain ⟨-, -, -, hconfirmed⟩ := (run_admits_once ⟨1⟩ .brisk ⟨4⟩ threeVisitors).2 hstays []
  obtain ⟨-, -, -, hrefused⟩ := (run_admits_once ⟨1⟩ .brisk ⟨5⟩ threeVisitors).2 hleft []
  refine ⟨⟨hstays, hleft⟩, by decide, ?_, ?_⟩
  · exact congrArg Prod.snd ((hconfirmed _ _ _).trans (by rw [if_pos (by decide)]))
  · exact congrArg Prod.snd ((hrefused _ _ _).trans (by rw [if_neg (by decide)]))

end Host

end BoothFloor
