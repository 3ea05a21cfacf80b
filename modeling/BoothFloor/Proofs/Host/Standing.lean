import BoothFloor.Proofs.Booth.Standing
import BoothFloor.Proofs.Host.Addressees
import BoothFloor.Proofs.Host.Uptake
import BoothFloor.Proofs.NodeId

/-!
# A visitor's standing over a turn of the host

In one turn of a host a visitor that deals with nobody keeps its standing but for an offer or for the end of
its session; one that asks to register is let in, refused or put on the queue, and one that takes leave is
outside. Since the booth is for no more visitors than it may ever list, nobody goes unanswered.
-/

namespace BoothFloor

namespace Standing

/-- What comes of a visitor's request to register at an instant, and what the visitor is told. -/
inductive Asks (now : Instant) : Standing → Standing → List Message → Prop
  | enters (st : Standing) (hout : ∀ since, st ≠ .inside since) :
      Asks now st (.inside now) [.registerResponse true .success]
  | confirmed (since : Instant) : Asks now (.inside since) (.inside since) [.registerResponse true .success]
  | refused : Asks now .outside .outside [.registerResponse false .alreadyUsed]
  | queues (st : Standing) (hst : st = .outside ∨ st = .queued) (news : List Message)
      (hnews : ∀ msg ∈ news, msg.isNews = true) :
      Asks now st .queued (.registerResponse false .fullWaiting :: news)

/-- A standing that has come about at an instant, if it began at any. -/
def Fresh (now : Instant) : Standing → Prop
  | inside since | offered since => since = now
  | _ => True

variable {now : Instant} {st st' : Standing} {told : List Message}

/-- A fresh standing drifts to fresh ones only. -/
theorem Drifts.fresh (h : st.Drifts now st' told) (hfresh : st.Fresh now) : st'.Fresh now := by
  cases h with
  | called => exact rfl
  | _ => exact hfresh

/-- Nobody drifts into a booth. -/
theorem Drifts.not_inside (h : st.Drifts now st' told) (hout : ∀ since, st ≠ .inside since) :
    ∀ since, st' ≠ .inside since := by
  cases h with
  | inside since => exact absurd rfl (hout since)
  | _ => nofun

/-- Whoever does not wait drifts nowhere, and is told nothing. -/
theorem Drifts.of_not_waiting (h : st.Drifts now st' told) (hst : st = .outside ∨ ∃ since, st = .inside since) :
    st' = st ∧ told = [] := by
  rcases hst with rfl | ⟨since, rfl⟩
  all_goals
    cases h
    exact ⟨rfl, rfl⟩

/-- Whoever asks from outside a booth stands with it afresh. -/
theorem Asks.fresh (h : st.Asks now st' told) (hout : ∀ since, st ≠ .inside since) : st'.Fresh now := by
  cases h with
  | enters => exact rfl
  | confirmed since => exact absurd rfl (hout since)
  | refused => exact trivial
  | queues => exact trivial

/-- What a turn of the host at an instant makes of a visitor's standing: the visitor's dealings with the host,
the standing afterwards and the host's dealings with the visitor. -/
inductive Turn (now : Instant) (st : Standing) : List Message → Standing → List Message → Prop
  | rests (st' : Standing) (told : List Message) (h : st.Drifts now st' told) : Turn now st [] st' told
  | expires (since : Instant) (hst : st = .inside since) : Turn now st [] .outside [.timeoutAlert]
  | asks (first second st' : Standing) (before answer after : List Message) (hbefore : st.Drifts now first before)
      (hanswer : first.Asks now second answer) (hafter : second.Drifts now st' after) :
      Turn now st [.registerRequest] st' (before ++ (answer ++ after))
  | parts (hst : st = .outside ∨ ∃ since, st = .inside since) : Turn now st [.exitRequest] .outside []

end Standing

/-- An input that is a message from a guest, if from anyone but a host. -/
def Input.FromGuests (r : Rules) (guests : List NodeId) (i : Input) : Prop :=
  ∀ s msg rssi snr, i = .message s msg rssi snr → r.isHost s = false → s ∈ guests

/-- A message that deals with something, to each of some different users, is one dealing with each of them. -/
theorem dealings_map (u : NodeId) {users : List NodeId} (hnodup : users.Nodup) {msg : Message}
    (hdealing : msg.isDealing = true) :
    dealings u (users.map (·, msg)) = if u ∈ users then [msg] else [] := by
  induction users with
  | nil => rfl
  | cons v rest ih =>
    obtain ⟨hfirst, hrest⟩ := List.nodup_cons.mp hnodup
    rw [List.map_cons, dealings_cons, ih hrest]
    by_cases hv : v = u
    · subst hv
      simp [hdealing, hfirst]
    · simp [hv, Ne.symm hv]

namespace Host

/-- A host under the rules whose booth is in order, and to which none but some guests have ever come. -/
structure Receives (r : Rules) (guests : List NodeId) (h : Host) : Prop where
  rules : h.rules = r
  orderly : h.booth.Orderly
  prompt : h.booth.Prompt
  maxUsers : h.booth.maxUsers = r.maxUsers.toNat
  waiting : h.booth.waiting ⊆ guests
  registered : h.booth.registered ⊆ guests

variable {h : Host} {r : Rules} {guests : List NodeId} {m : Moment} {i : Input} {u : NodeId} {st : Standing}

/-- Nobody has come to a host that has just opened its booth. -/
theorem receives_ofRules (id : NodeId) (r : Rules) (guests : List NodeId) : (ofRules id r).Receives r guests where
  rules := rfl
  orderly := Booth.orderly_ofRules id r
  prompt := Booth.prompt_ofRules id r
  maxUsers := rfl
  waiting := List.nil_subset _
  registered := List.nil_subset _

/-- Only the guests come to a host that hears from nobody else. -/
theorem Receives.react (hreceives : h.Receives r guests) (m : Moment) (hi : i.FromGuests r guests) :
    (h.react m i).1.Receives r guests := by
  have hlisted := react_listed (P := (· ∈ guests)) hreceives.waiting hreceives.registered
    (fun s rssi snr heq hs => hi s _ rssi snr heq (hreceives.rules ▸ hs)) m
  have hfixtures : h.booth.SameFixtures (h.react m i).1.booth := by
    have hrun := h.run_sameFixtures [(m, i)]
    rwa [run, runWith_singleton] at hrun
  exact
    { rules := (h.react_rules m i).trans hreceives.rules
      orderly := react_orderly hreceives.orderly m i
      prompt := react_prompt hreceives.orderly hreceives.prompt m i
      maxUsers := hfixtures.maxUsers.trans hreceives.maxUsers
      waiting := hlisted.1
      registered := hlisted.2 }

/-- Whom a host receives in a whole run. -/
theorem Receives.run (hreceives : h.Receives r guests) {events : List (Moment × Input)}
    (hevents : ∀ m i, (m, i) ∈ events → i.FromGuests r guests) : (h.run events).1.Receives r guests :=
  runWith_keeps (P := Receives r guests) hreceives fun _ m i hmem hlater => hlater.react m (hevents m i hmem)

/-- What is not the user's own dealing and no tick lets the user's standing drift. -/
theorem Receives.drifts (hreceives : h.Receives r guests) (hstands : h.booth.Stands u st) (htick : i ≠ .tick)
    (hi : i.dealing? u = none) :
    ∃ st', (h.react m i).1.booth.Stands u st' ∧
      st.Drifts m.now st' (dealings u (Action.sent (h.react m i).2)) := by
  have horderly := hreceives.orderly
  have hstays {letters : List (NodeId × Message)} (hletters : ∀ msg, (u, msg) ∈ letters → msg.isDealing = false) :
      ∃ st', h.booth.Stands u st' ∧ st.Drifts m.now st' (dealings u letters) := by
    rw [dealings_eq_nil hletters]
    exact ⟨st, hstands, .refl m.now st⟩
  cases i with
  | tick => exact absurd rfl htick
  | timer => exact hstays fun _ hmem => absurd hmem List.not_mem_nil
  | start =>
    refine hstays fun msg hmem => ?_
    obtain ⟨-, rfl⟩ := Prod.mk.inj (List.mem_singleton.mp hmem)
    rfl
  | intent intent =>
    cases intent with
    | announce =>
      refine hstays fun msg hmem => ?_
      obtain ⟨-, rfl⟩ := Prod.mk.inj (List.mem_singleton.mp hmem)
      rfl
    | chat text =>
      refine hstays fun msg hmem => ?_
      change (u, msg) ∈ Action.sent (h.booth.activeUsers.map fun v => .send v (.adminMessage text)) at hmem
      rw [Action.sent_map_send] at hmem
      obtain ⟨_, -, heq⟩ := List.mem_map.mp hmem
      obtain ⟨-, rfl⟩ := Prod.mk.inj heq
      rfl
    | _ => exact hstays fun _ hmem => absurd hmem List.not_mem_nil
  | message source msg rssi snr =>
    change ∃ st', (h.onMessage m.now source msg).1.booth.Stands u st' ∧
      st.Drifts m.now st' (dealings u (Action.sent (h.onMessage m.now source msg).2))
    rw [onMessage_fst, onMessage_sent]
    split
    · exact hstays fun _ hmem => absurd hmem List.not_mem_nil
    have hother := Input.not_dealing hi
    cases msg with
    | boothScan | connectRequest =>
      refine hstays fun msg hmem => ?_
      obtain ⟨-, rfl⟩ := Prod.mk.inj (List.mem_singleton.mp hmem)
      rfl
    | registerRequest =>
      have hs : source ≠ u := hother rfl
      have hafter := hstands.register hs m.now
      simp only [onRegister_fst, onRegister_sent, Booth.dealings_answerLetters hs]
      split
      · obtain ⟨st', hst', hoffer⟩ := hafter.offerNext (horderly.register source m.now) m.now
        exact ⟨st', hst', (hafter.queueUpdates (horderly.register source m.now) m.now).trans hoffer⟩
      · exact ⟨st, hafter, .refl m.now st⟩
    | exitRequest =>
      have hs : source ≠ u := hother rfl
      have hsome := h.booth.isSome_removeActive source
      simp only [onExit_fst, onExit_sent, hsome]
      split
      · rw [dealings_cons, if_neg fun hboth => hs hboth.1]
        exact (hstands.removeActive hs).offerNext (horderly.removeActive source) m.now
      · refine hstays fun msg hmem => ?_
        obtain ⟨-, rfl⟩ := Prod.mk.inj (List.mem_singleton.mp hmem)
        rfl
    | queueLeave =>
      have hs : source ≠ u := hother rfl
      have hafter := hstands.leaveQueue hs
      have hleft := horderly.leaveQueue source
      have hnews : st.Drifts m.now st
          (dealings u (if source ∈ h.booth.waiting then (h.booth.leaveQueue source).2.queueUpdates else [])) := by
        split
        · exact hafter.queueUpdates hleft m.now
        · exact .refl m.now st
      have hreleased : (h.booth.leaveQueue source).1.offerReleased = h.booth.isOffered source := rfl
      simp only [onQueueLeave_fst, onQueueLeave_sent, hreleased, dealings_append]
      split
      · obtain ⟨st', hst', hoffer⟩ := hafter.offerNext hleft m.now
        exact ⟨st', hst', hnews.trans hoffer⟩
      · exact ⟨st, hafter, hnews.trans (.refl m.now st)⟩
    | chat sender text =>
      refine hstays fun msg hmem => ?_
      simp only [onChat_sent] at hmem
      split at hmem
      · obtain ⟨_, -, heq⟩ := List.mem_map.mp hmem
        obtain ⟨-, rfl⟩ := Prod.mk.inj heq
        rfl
      · cases hmem
    | _ => exact hstays fun _ hmem => absurd hmem List.not_mem_nil

/-- A visitor's own request to register is answered. -/
theorem Receives.asks (hreceives : h.Receives r guests) (hroom : guests.length ≤ r.maxUsers.toNat)
    (hu : u ∈ guests) (hguest : r.isHost u = false) (hstands : h.booth.Stands u st) (m : Moment) (rssi : Int16)
    (snr : Int8) :
    ∃ st', (h.react m (.message u .registerRequest rssi snr)).1.booth.Stands u st' ∧
      st.Asks m.now st' (dealings u (Action.sent (h.react m (.message u .registerRequest rssi snr)).2)) := by
  have horderly := hreceives.orderly
  have hregister := horderly.register u m.now
  have hjudged := h.booth.register_judged u m.now
  have houtside (hout : u ∉ h.booth.activeUsers) : ∀ since, st ≠ .inside since := by
    rintro since rfl
    exact hout (Booth.mem_activeUsers_of_mem hstands)
  rw [react_register_guest (hreceives.rules ▸ hguest), onRegister_fst, onRegister_sent]
  generalize h.booth.register u m.now = outcome at hjudged hregister
  cases hjudged with
  | confirmed hin =>
    refine ⟨st, hstands, ?_⟩
    cases st with
    | inside since => simpa [Booth.answerLetters, dealings_cons, Message.isDealing] using Standing.Asks.confirmed since
    | outside => exact absurd hin hstands.1
    | queued => exact absurd hin (horderly.not_active_of_waiting hstands.1)
    | offered since => exact absurd hin (horderly.not_active_of_waiting (horderly.offer_mem hstands))
  | refused hout hold =>
    refine ⟨st, hstands, ?_⟩
    cases st with
    | outside => simpa [Booth.answerLetters, dealings_cons, Message.isDealing] using Standing.Asks.refused
    | inside since => exact absurd rfl (houtside hout since)
    | queued => exact absurd ((horderly.agrees u).mp hold) (horderly.waiting_new u hstands.1)
    | offered since => exact absurd ((horderly.agrees u).mp hold) (horderly.waiting_new u (horderly.offer_mem hstands))
  | stays hout hnew hwait hfull =>
    refine ⟨st, hstands, ?_⟩
    cases st with
    | outside => exact absurd hwait hstands.2
    | inside since => exact absurd rfl (houtside hout since)
    | queued =>
      simp only [Booth.answerLetters, dealings_cons, Message.isDealing, and_self, if_true, dealings_nil]
      refine .queues _ (.inr rfl) _ fun msg hmem => ?_
      obtain rfl := List.mem_singleton.mp hmem
      simp [Message.isNews, Booth.clampByte_ne_zero (Nat.succ_ne_zero _),
        Booth.clampByte_ne_zero (Nat.ne_zero_of_lt (List.length_pos_of_mem hwait))]
    | offered since =>
      -- the head of the queue has a slot
      have hfree := hreceives.prompt.backed (by rw [show h.booth.offer = _ from hstands]; rfl)
      obtain ⟨rest, hrest⟩ := List.head?_eq_some_iff.mp (horderly.offer_head _ hstands)
      rw [Booth.ahead_eq, hrest, List.idxOf_cons_self] at hfull
      omega
  | joins hout hnew hwait hfull hlength =>
    have houtside : st = .outside := by
      cases st with
      | outside => rfl
      | inside since => exact absurd rfl (houtside hout since)
      | queued => exact absurd hstands.1 hwait
      | offered since => exact absurd (horderly.offer_mem hstands) hwait
    subst houtside
    refine ⟨.queued, ⟨List.mem_append_right _ (List.mem_singleton_self u), ?_⟩, ?_⟩
    · rw [Bool.eq_false_iff, ne_eq, Booth.isOffered_iff]
      rintro ⟨o, ho, rfl⟩
      exact hwait (horderly.offer_mem ho)
    · simp only [Booth.answerLetters, dealings_cons, Message.isDealing, and_self, if_true, dealings_nil]
      refine .queues _ (.inl rfl) _ fun msg hmem => ?_
      obtain rfl := List.mem_singleton.mp hmem
      simp [Message.isNews, Booth.clampByte_ne_zero (Nat.succ_ne_zero _)]
  | turnedAway hout hnew hwait hfull hlength =>
    have hfew := length_lt_of_missing horderly.waiting_nodup hreceives.waiting hu hwait
    rw [hreceives.maxUsers] at hlength
    omega
  | unlisted hout hnew hslot hline =>
    have hfew := length_lt_of_missing horderly.registered_nodup hreceives.registered hu
      (horderly.agrees.not_mem hnew)
    rw [hreceives.maxUsers] at hline
    omega
  | enters hout hnew hslot hline =>
    have hin : (h.booth.welcome u m.now).Stands u (.inside m.now) :=
      List.mem_append_right _ (List.mem_singleton_self _)
    have henters : st.Asks m.now (.inside m.now) [.registerResponse true .success] := .enters st (houtside hout)
    cases hleft : h.booth.isWaiting u with
    | false =>
      refine ⟨.inside m.now, hin, ?_⟩
      simpa [Booth.answerLetters, dealings_cons, Message.isDealing] using henters
    | true =>
      -- neither the news of the queue nor the next offer is for the visitor inside
      obtain ⟨st', hst', hoffer⟩ := hin.offerNext hregister m.now
      have hnews := hin.queueUpdates hregister m.now
      simp only [Booth.answerLetters, if_true, dealings_cons, Message.isDealing, and_self, dealings_append]
      generalize dealings u (h.booth.welcome u m.now).queueUpdates = news at hnews
      generalize dealings u ((h.booth.welcome u m.now).offerLetters m.now) = offers at hoffer
      cases hnews
      cases hoffer
      exact ⟨.inside m.now, hst', henters⟩

/-- A visitor's own exit leaves it outside. -/
theorem Receives.parts (hreceives : h.Receives r guests) (hguest : r.isHost u = false)
    (hstands : h.booth.Stands u st) (hst : st = .outside ∨ ∃ since, st = .inside since) (m : Moment) (rssi : Int16)
    (snr : Int8) :
    (h.react m (.message u .exitRequest rssi snr)).1.booth.Stands u .outside ∧
      dealings u (Action.sent (h.react m (.message u .exitRequest rssi snr)).2) = [] := by
  have horderly := hreceives.orderly
  have hwait := hstands.not_waiting horderly hst
  have hreact : h.react m (.message u .exitRequest rssi snr) = h.onExit m.now u := by
    simp [Host.react, onMessage, hreceives.rules, hguest]
  have hsome := h.booth.isSome_removeActive u
  rw [hreact, onExit_fst, onExit_sent]
  simp only [hsome]
  split
  · have hout : (h.booth.removeActive u).2.Stands u .outside := by
      refine ⟨fun hin => ?_, hwait⟩
      obtain ⟨session, hsession, huser⟩ := List.mem_map.mp hin
      change session ∈ h.booth.active.eraseP (·.user == u) at hsession
      rw [Booth.eraseP_eq_filter horderly.active_nodup] at hsession
      exact of_decide_eq_true (List.mem_filter.mp hsession).2 huser
    obtain ⟨st', hst', hoffer⟩ := hout.offerNext (horderly.removeActive u) m.now
    rw [dealings_cons, if_neg fun hboth => Bool.false_ne_true hboth.2]
    generalize dealings u ((h.booth.removeActive u).2.offerLetters m.now) = offers at hoffer
    cases hoffer
    exact ⟨hst', rfl⟩
  · next hout =>
    exact ⟨⟨hout, hwait⟩, by simp [dealings_cons, Message.isDealing]⟩

/-- At a tick a visitor's standing drifts, or its session is over. -/
theorem Receives.tick (hreceives : h.Receives r guests) (hstands : h.booth.Stands u st)
    (hoffer : ∀ since, st = .offered since → m.now.since since ≤ r.queueReadyTimeout) :
    (∃ st', (h.react m .tick).1.booth.Stands u st' ∧
        st.Drifts m.now st' (dealings u (Action.sent (h.react m .tick).2))) ∨
      ∃ since, st = .inside since ∧ r.sessionDuration ≤ m.now.since since ∧
        (h.react m .tick).1.booth.Stands u .outside ∧
        dealings u (Action.sent (h.react m .tick).2) = [.timeoutAlert] := by
  have horderly := hreceives.orderly
  have hswept := horderly.sweepSessions m.now h.rules.sessionDuration
  have hannouncement (h' : Host) : dealings u (Action.sent (broadcast m.tick h').2) = [] := by
    rw [broadcast_sent]
    refine dealings_eq_nil fun msg hmem => ?_
    split at hmem
    · obtain ⟨-, rfl⟩ := Prod.mk.inj (List.mem_singleton.mp hmem)
      rfl
    · cases hmem
  have halerts : dealings u ((h.booth.expired m.now h.rules.sessionDuration).map (·, Message.timeoutAlert)) = _ :=
    dealings_map u (horderly.active_nodup.sublist (h.booth.expired_sublist m.now h.rules.sessionDuration)) rfl
  change (∃ st', (h.onTick m).1.booth.Stands u st' ∧ st.Drifts m.now st' (dealings u (Action.sent (h.onTick m).2))) ∨
    ∃ since, st = .inside since ∧ r.sessionDuration ≤ m.now.since since ∧ (h.onTick m).1.booth.Stands u .outside ∧
      dealings u (Action.sent (h.onTick m).2) = [.timeoutAlert]
  rw [onTick_fst, onTick_sent, dealings_append, hannouncement, List.append_nil]
  split
  · simp only [sweep_fst, sweep_sent, dealings_append, halerts]
    rcases hstands.sweepSessions horderly m.now h.rules.sessionDuration with
      ⟨hstays, hgone⟩ | ⟨since, rfl, hover, hout, hgone⟩
    · left
      rw [if_neg hgone, List.nil_append]
      obtain ⟨hstays, hnews⟩ := hstays.sweepOffer hswept m.now h.rules.queueReadyTimeout
        (hreceives.rules ▸ hoffer)
      obtain ⟨st', hst', hcalled⟩ := hstays.offerNext (hswept.sweepOffer m.now h.rules.queueReadyTimeout) m.now
      exact ⟨st', hst', hnews.trans hcalled⟩
    · right
      obtain ⟨hout, hnews⟩ := hout.sweepOffer hswept m.now h.rules.queueReadyTimeout nofun
      obtain ⟨st', hst', hcalled⟩ := hout.offerNext (hswept.sweepOffer m.now h.rules.queueReadyTimeout) m.now
      refine ⟨since, rfl, hreceives.rules ▸ hover, ?_⟩
      generalize dealings u ((h.booth.sweepSessions m.now h.rules.sessionDuration).2.withdrawalLetters m.now
        h.rules.queueReadyTimeout) = news at hnews
      generalize dealings u (((h.booth.sweepSessions m.now h.rules.sessionDuration).2.sweepOffer m.now
        h.rules.queueReadyTimeout).2.offerLetters m.now) = offers at hcalled
      cases hnews
      cases hcalled
      rw [if_pos hgone]
      exact ⟨hst', rfl⟩
  · exact .inl ⟨st, hstands, .refl m.now st⟩

variable {inputs : List Input}

/-- While nothing is a visitor's own dealing its standing drifts. -/
theorem Receives.run_drifts (hreceives : h.Receives r guests) (hstands : h.booth.Stands u st)
    (hinputs : ∀ i ∈ inputs, i ≠ .tick ∧ i.FromGuests r guests) (hquiet : ∀ i ∈ inputs, i.dealing? u = none) :
    ∃ st', (h.run (inputs.map (m, ·))).1.booth.Stands u st' ∧
      st.Drifts m.now st' (dealings u (Action.sent (h.run (inputs.map (m, ·))).2)) := by
  induction inputs generalizing h st with
  | nil => exact ⟨st, hstands, .refl m.now st⟩
  | cons i rest ih =>
    obtain ⟨htick, hsource⟩ := hinputs i List.mem_cons_self
    obtain ⟨mid, hmid, hfirst⟩ := hreceives.drifts (m := m) hstands htick (hquiet i List.mem_cons_self)
    obtain ⟨st', hst', hrest⟩ := ih (hreceives.react m hsource) hmid
      (fun j hj => hinputs j (List.mem_cons_of_mem _ hj)) fun j hj => hquiet j (List.mem_cons_of_mem _ hj)
    rw [List.map_cons, run_cons, Action.sent_append, dealings_append]
    exact ⟨st', hst', hfirst.trans hrest⟩

/-- At a tick a fresh standing drifts: neither a session nor an offer is over at once. -/
theorem Receives.tick_of_fresh (hreceives : h.Receives r guests) (hduration : 0 < r.sessionDuration.ms.toNat)
    (hstands : h.booth.Stands u st) (hfresh : st.Fresh m.now) :
    ∃ st', (h.react m .tick).1.booth.Stands u st' ∧
      st.Drifts m.now st' (dealings u (Action.sent (h.react m .tick).2)) := by
  refine (hreceives.tick hstands ?_).resolve_right ?_
  · rintro since rfl
    obtain rfl : since = m.now := hfresh
    exact m.now.since_self_le r.queueReadyTimeout
  · rintro ⟨since, rfl, hover, -, -⟩
    obtain rfl : since = m.now := hfresh
    have hle := UInt64.le_iff_toNat_le.mp hover
    rw [Instant.toNat_since, Nat.sub_self] at hle
    omega

/-- Only the guests come to a host that hears at one moment from nobody else. -/
theorem Receives.run_at (hreceives : h.Receives r guests) (m : Moment) (hinputs : ∀ i ∈ inputs, i.FromGuests r guests) :
    (h.run (inputs.map (m, ·))).1.Receives r guests := by
  refine hreceives.run fun m' i hmem => ?_
  obtain ⟨j, hj, heq⟩ := List.mem_map.mp hmem
  exact (Prod.mk.inj heq).2 ▸ hinputs j hj

/-- What a turn up to its tick says to a user, and the tick itself. -/
theorem dealings_run_concat (h : Host) (inputs : List Input) (u : NodeId) :
    dealings u (Action.sent (h.run ((inputs ++ [i]).map (m, ·))).2) =
      dealings u (Action.sent (h.run (inputs.map (m, ·))).2) ++
        dealings u (Action.sent ((h.run (inputs.map (m, ·))).1.react m i).2) := by
  rw [Host.run, runWith_concat, andThen, Action.sent_append, dealings_append]
  rfl

/-- In a turn in which a visitor deals with nobody its standing drifts, or its session is over. -/
theorem Receives.turn_rests (hreceives : h.Receives r guests) (hstands : h.booth.Stands u st)
    (hinputs : ∀ i ∈ inputs, i ≠ .tick ∧ i.FromGuests r guests)
    (hsaid : inputs.filterMap (Input.dealing? u) = [])
    (hoffer : ∀ since, st = .offered since → m.now.since since ≤ r.queueReadyTimeout) :
    ∃ st', (h.run ((inputs ++ [Input.tick]).map (m, ·))).1.booth.Stands u st' ∧
      st.Turn m.now [] st' (dealings u (Action.sent (h.run ((inputs ++ [Input.tick]).map (m, ·))).2)) := by
  obtain ⟨mid, hmid, hdrifts⟩ := hreceives.run_drifts (m := m) hstands hinputs (List.filterMap_eq_nil_iff.mp hsaid)
  have hlater := hreceives.run_at m fun i hi => (hinputs i hi).2
  rw [dealings_run_concat, Host.run, runWith_concat]
  generalize dealings u (Action.sent (h.run (inputs.map (m, ·))).2) = told at hdrifts
  have hmidoffer : ∀ since, mid = .offered since → m.now.since since ≤ r.queueReadyTimeout := by
    rintro since rfl
    cases hdrifts with
    | called => exact m.now.since_self_le r.queueReadyTimeout
    | offered => exact hoffer since rfl
  rcases hlater.tick hmid hmidoffer with ⟨st', hst', htick⟩ | ⟨since, rfl, -, hst', htick⟩
  · exact ⟨st', hst', .rests _ _ (hdrifts.trans htick)⟩
  · rw [htick]
    cases hdrifts
    exact ⟨.outside, hst', .expires since rfl⟩

/-- A turn with an input among others, the tick at its end, part by part. -/
theorem run_around (h : Host) (before after : List Input) :
    h.run ((before ++ i :: after ++ [Input.tick]).map (m, ·)) =
      andThen (h.run (before.map (m, ·))) fun h => andThen (h.react m i) fun h =>
        andThen (h.run (after.map (m, ·))) (·.react m .tick) := by
  rw [Host.run, List.append_assoc, List.map_append, runWith_append, List.cons_append, List.map_cons]
  simp only [runWith, runWith_concat]
  rfl

/-- A visitor outside that asks to register in a turn is answered in the turn. -/
theorem Receives.turn_asks (hreceives : h.Receives r guests) (hroom : guests.length ≤ r.maxUsers.toNat)
    (hduration : 0 < r.sessionDuration.ms.toNat) (hu : u ∈ guests) (hguest : r.isHost u = false)
    (hstands : h.booth.Stands u st) (hout : ∀ since, st ≠ .inside since)
    (hinputs : ∀ i ∈ inputs, i ≠ .tick ∧ i.FromGuests r guests)
    (hsaid : inputs.filterMap (Input.dealing? u) = [.registerRequest]) :
    ∃ st', (h.run ((inputs ++ [Input.tick]).map (m, ·))).1.booth.Stands u st' ∧
      st.Turn m.now [.registerRequest] st'
        (dealings u (Action.sent (h.run ((inputs ++ [Input.tick]).map (m, ·))).2)) := by
  obtain ⟨before, i, after, rfl, hbefore, hi, hafter⟩ := List.filterMap_eq_cons_iff.mp hsaid
  obtain ⟨-, rssi, snr, rfl⟩ := Input.of_dealing hi
  obtain ⟨first, hfirst, hdrifts⟩ := hreceives.run_drifts (m := m) hstands
    (fun i hi => hinputs i (List.mem_append_left _ hi)) hbefore
  have hearlier := hreceives.run_at m fun i hi => (hinputs i (List.mem_append_left _ hi)).2
  obtain ⟨second, hsecond, hasks⟩ := hearlier.asks hroom hu hguest hfirst m rssi snr
  have hanswered := hearlier.react m (hinputs (Input.message u .registerRequest rssi snr) (by simp)).2
  obtain ⟨third, hthird, hdrifts'⟩ := hanswered.run_drifts (m := m) hsecond
    (fun i hi => hinputs i (by simp [hi])) (List.filterMap_eq_nil_iff.mp hafter)
  have hlater := hanswered.run_at m fun i (hi : i ∈ after) => (hinputs i (by simp [hi])).2
  obtain ⟨st', hst', htick⟩ := hlater.tick_of_fresh hduration hthird
    (hdrifts'.fresh (hasks.fresh (hdrifts.not_inside hout)))
  rw [run_around]
  simp only [andThen, Action.sent_append, dealings_append]
  exact ⟨st', hst', .asks first second st' _ _ _ hdrifts hasks (hdrifts'.trans htick)⟩

/-- A visitor that takes leave in a turn is outside after it. -/
theorem Receives.turn_parts (hreceives : h.Receives r guests) (hguest : r.isHost u = false)
    (hduration : 0 < r.sessionDuration.ms.toNat) (hstands : h.booth.Stands u st)
    (hst : st = .outside ∨ ∃ since, st = .inside since)
    (hinputs : ∀ i ∈ inputs, i ≠ .tick ∧ i.FromGuests r guests)
    (hsaid : inputs.filterMap (Input.dealing? u) = [.exitRequest]) :
    ∃ st', (h.run ((inputs ++ [Input.tick]).map (m, ·))).1.booth.Stands u st' ∧
      st.Turn m.now [.exitRequest] st'
        (dealings u (Action.sent (h.run ((inputs ++ [Input.tick]).map (m, ·))).2)) := by
  obtain ⟨before, i, after, rfl, hbefore, hi, hafter⟩ := List.filterMap_eq_cons_iff.mp hsaid
  obtain ⟨-, rssi, snr, rfl⟩ := Input.of_dealing hi
  obtain ⟨first, hfirst, hdrifts⟩ := hreceives.run_drifts (m := m) hstands
    (fun i hi => hinputs i (List.mem_append_left _ hi)) hbefore
  have hearlier := hreceives.run_at m fun i hi => (hinputs i (List.mem_append_left _ hi)).2
  obtain ⟨hsame, hsilent⟩ := hdrifts.of_not_waiting hst
  obtain ⟨hout, hanswer⟩ := hearlier.parts hguest hfirst (hsame ▸ hst) m rssi snr
  have hparted := hearlier.react m (hinputs (Input.message u .exitRequest rssi snr) (by simp)).2
  obtain ⟨second, hsecond, hdrifts'⟩ := hparted.run_drifts (m := m) hout
    (fun i hi => hinputs i (by simp [hi])) (List.filterMap_eq_nil_iff.mp hafter)
  obtain ⟨rfl, hsilent'⟩ := hdrifts'.of_not_waiting (.inl rfl)
  have hlater := hparted.run_at m fun i (hi : i ∈ after) => (hinputs i (by simp [hi])).2
  obtain ⟨st', hst', htick⟩ := hlater.tick_of_fresh hduration hsecond trivial
  obtain ⟨rfl, hsilent''⟩ := htick.of_not_waiting (.inl rfl)
  rw [run_around]
  simp only [andThen, Action.sent_append, dealings_append, hsilent, hanswer, hsilent', List.nil_append]
  rw [hsilent'']
  exact ⟨.outside, hst', .parts hst⟩

/-- A host deals with nobody but nodes with addresses of their own. -/
theorem react_deals (hserves : h.Serves r)
    (hsource : ∀ s msg rssi snr, i = .message s msg rssi snr → s.isBroadcast = false) {x : NodeId × Message}
    (hx : x ∈ Action.sent (h.react m i).2) (hdealing : x.2.isDealing = true) : x.1.isBroadcast = false := by
  have hnone {dest : NodeId} {msg : Message} (hmsg : msg.isDealing = false) (heq : x = (dest, msg)) :
      x.1.isBroadcast = false := by
    subst heq
    exact absurd (hmsg.symm.trans hdealing) nofun
  cases i with
  | start => exact hnone rfl (List.mem_singleton.mp hx)
  | timer => cases hx
  | intent intent =>
    cases intent with
    | announce => exact hnone rfl (List.mem_singleton.mp hx)
    | chat text =>
      change x ∈ Action.sent (h.booth.activeUsers.map fun v => .send v (.adminMessage text)) at hx
      rw [Action.sent_map_send] at hx
      obtain ⟨_, -, heq⟩ := List.mem_map.mp hx
      exact hnone rfl heq.symm
    | _ => cases hx
  | tick =>
    change x ∈ Action.sent (h.onTick m).2 at hx
    rw [onTick_sent] at hx
    rcases List.mem_append.mp hx with hswept | hannounced
    · split at hswept
      · exact sweep_addressees hserves.orderly hserves.addressed.waiting hserves.addressed.active m.now x hswept
      · cases hswept
    · rw [broadcast_sent] at hannounced
      split at hannounced
      · exact hnone rfl (List.mem_singleton.mp hannounced)
      · cases hannounced
  | message source msg rssi snr =>
    exact onMessage_addressees (hsource source msg rssi snr rfl) hserves.addressed.waiting hserves.addressed.active
      m.now msg x hx

/-- A host deals with nobody but nodes with addresses of their own in a whole run. -/
theorem run_deals (hserves : h.Serves r) {events : List (Moment × Input)}
    (hsource : ∀ m s msg rssi snr, (m, .message s msg rssi snr) ∈ events → s.isBroadcast = false) {x : NodeId × Message}
    (hx : x ∈ Action.sent (h.run events).2) (hdealing : x.2.isDealing = true) : x.1.isBroadcast = false := by
  induction events generalizing h with
  | nil => cases hx
  | cons e rest ih =>
    have hfirst : ∀ s msg rssi snr, e.2 = .message s msg rssi snr → s.isBroadcast = false :=
      fun s msg rssi snr heq => hsource e.1 s msg rssi snr (heq ▸ List.mem_cons_self)
    rw [run_cons, Action.sent_append] at hx
    rcases List.mem_append.mp hx with hx | hx
    · exact react_deals hserves hfirst hx hdealing
    · exact ih (hserves.react hfirst)
        (fun m s msg rssi snr hmem => hsource m s msg rssi snr (List.mem_cons_of_mem _ hmem)) hx

end Host

end BoothFloor
