import BoothFloor.Proofs.Dealings
import BoothFloor.Proofs.Host.Confirmation

/-!
# Where a user stands with a booth

A user is outside a booth, inside it since some instant, in its queue or at the head of the queue with an
offer. What others do at the booth moves nobody but those in the queue, who may be offered a slot, and tells
nobody but those in the queue anything: the user's standing only drifts.
-/

namespace BoothFloor

/-- Where a user stands with a booth. -/
inductive Standing where
  | outside
  | inside (since : Instant)
  | queued
  | offered (since : Instant)

/-- How a user's standing may change at an instant without the user's doing, and what the user is told. -/
inductive Standing.Drifts (now : Instant) : Standing → Standing → List Message → Prop
  | outside : Drifts now .outside .outside []
  | inside (since : Instant) : Drifts now (.inside since) (.inside since) []
  | queued (news : List Message) (hnews : ∀ msg ∈ news, msg.isNews = true) : Drifts now .queued .queued news
  | called (earlier later : List Message) (hearlier : ∀ msg ∈ earlier, msg.isNews = true)
      (hlater : ∀ msg ∈ later, msg.isNews = true) :
      Drifts now .queued (.offered now) (earlier ++ .queueReady :: later)
  | offered (since : Instant) (news : List Message) (hnews : ∀ msg ∈ news, msg.isNews = true) :
      Drifts now (.offered since) (.offered since) news

namespace Standing

variable {now : Instant} {st mid st' : Standing} {first second : List Message}

/-- All of two rows is news if all of each is. -/
theorem isNews_append (hfirst : ∀ msg ∈ first, msg.isNews = true) (hsecond : ∀ msg ∈ second, msg.isNews = true) :
    ∀ msg ∈ first ++ second, msg.isNews = true :=
  fun msg hmem => (List.mem_append.mp hmem).elim (hfirst msg) (hsecond msg)

/-- Where nothing is done nobody's standing changes. -/
theorem Drifts.refl (now : Instant) (st : Standing) : st.Drifts now st [] := by
  cases st with
  | outside => exact .outside
  | inside since => exact .inside since
  | queued => exact .queued [] fun _ h => absurd h List.not_mem_nil
  | offered since => exact .offered since [] fun _ h => absurd h List.not_mem_nil

/-- What drifts twice drifts. -/
theorem Drifts.trans (hfirst : st.Drifts now mid first) (hsecond : mid.Drifts now st' second) :
    st.Drifts now st' (first ++ second) := by
  cases hfirst with
  | outside =>
    cases hsecond
    exact .outside
  | inside since =>
    cases hsecond
    exact .inside since
  | queued _ hnews =>
    cases hsecond with
    | queued _ hnews' => exact .queued _ (isNews_append hnews hnews')
    | called earlier later hearlier hlater =>
      rw [← List.append_assoc]
      exact .called _ later (isNews_append hnews hearlier) hlater
  | called earlier later hearlier hlater =>
    cases hsecond with
    | offered _ _ hnews =>
      rw [List.append_assoc, List.cons_append]
      exact .called earlier _ hearlier (isNews_append hlater hnews)
  | offered since _ hnews =>
    cases hsecond with
    | offered _ _ hnews' => exact .offered since _ (isNews_append hnews hnews')

end Standing

namespace Booth

/-- A user's standing with a booth. -/
def Stands (b : Booth) (u : NodeId) : Standing → Prop
  | .outside => u ∉ b.activeUsers ∧ u ∉ b.waiting
  | .inside since => ⟨u, since⟩ ∈ b.active
  | .queued => u ∈ b.waiting ∧ b.isOffered u = false
  | .offered since => b.offer = some ⟨u, since⟩

variable {b : Booth} {u s : NodeId} {now : Instant} {st : Standing}

/-- A session is one of a user inside. -/
theorem mem_activeUsers_of_mem {since : Instant} (h : ⟨u, since⟩ ∈ b.active) : u ∈ b.activeUsers :=
  List.mem_map_of_mem h

/-- Whoever is outside a booth or inside it does not wait. -/
theorem Stands.not_waiting (horderly : b.Orderly) (h : b.Stands u st)
    (hst : st = .outside ∨ ∃ since, st = .inside since) : u ∉ b.waiting := by
  rcases hst with rfl | ⟨since, rfl⟩
  · exact h.2
  · exact fun hwait => horderly.not_active_of_waiting hwait (mem_activeUsers_of_mem h)

/-- A count that is not zero is not announced as zero. -/
theorem clampByte_ne_zero {n : Nat} (h : n ≠ 0) : clampByte n ≠ 0 := by
  intro hzero
  have hnat := congrArg UInt8.toNat hzero
  rw [clampByte, UInt8.toNat_ofNat_of_lt' (by simp only [UInt8.size]; omega)] at hnat
  change min n 255 = 0 at hnat
  omega

/-- The news of the queue says of everyone in it that there is a place. -/
theorem isNews_of_mem_queueUpdates {msg : Message} (h : (u, msg) ∈ b.queueUpdates) : msg.isNews = true := by
  rw [queueUpdates, List.mem_mapIdx] at h
  obtain ⟨i, hi, heq⟩ := h
  obtain ⟨-, rfl⟩ := Prod.mk.inj heq
  simp [Message.isNews, clampByte_ne_zero (Nat.succ_ne_zero i), clampByte_ne_zero (Nat.ne_zero_of_lt hi)]

/-- Being told of the queue is no change of a user's standing. -/
theorem Stands.queueUpdates (horderly : b.Orderly) (h : b.Stands u st) (now : Instant) :
    st.Drifts now st (dealings u b.queueUpdates) := by
  have hnews : ∀ msg ∈ dealings u b.queueUpdates, msg.isNews = true :=
    fun msg hmem => isNews_of_mem_queueUpdates (mem_dealings.mp hmem).1
  have hsilent (hout : u ∉ b.waiting) : dealings u b.queueUpdates = [] :=
    dealings_eq_nil fun msg hmem => absurd (mem_queueUpdates hmem).1 hout
  cases st with
  | outside =>
    rw [hsilent (h.not_waiting horderly (.inl rfl))]
    exact .outside
  | inside since =>
    rw [hsilent (h.not_waiting horderly (.inr ⟨since, rfl⟩))]
    exact .inside since
  | queued => exact .queued _ hnews
  | offered since => exact .offered since _ hnews

/-- Handing a free slot on is no change but for a user to whom the slot is offered. -/
theorem Stands.offerNext (horderly : b.Orderly) (h : b.Stands u st) (now : Instant) :
    ∃ st', (b.offerNext now).2.Stands u st' ∧ st.Drifts now st' (dealings u (b.offerLetters now)) := by
  rcases b.offerLetters_cases now with ⟨head, rest, hwait, hnone, hnext, hletters⟩ | ⟨hnext, hletters⟩ <;>
    rw [hnext, hletters]
  · have hletter : dealings u [(head, Message.queueReady)] = if head = u then [.queueReady] else [] := by
      simp [dealings_cons, Message.isDealing]
    rw [hletter]
    by_cases hhead : head = u
    · subst hhead
      rw [if_pos rfl]
      have hmem : head ∈ b.waiting := hwait ▸ List.mem_cons_self
      cases st with
      | outside => exact absurd hmem h.2
      | inside since => exact absurd hmem (h.not_waiting horderly (.inr ⟨since, rfl⟩))
      | queued =>
        exact ⟨.offered now, rfl, .called [] [] (fun _ h => absurd h List.not_mem_nil)
          fun _ h => absurd h List.not_mem_nil⟩
      | offered since => exact absurd (hnone.symm.trans h) nofun
    · rw [if_neg hhead]
      refine ⟨st, ?_, .refl now st⟩
      cases st with
      | outside | inside => exact h
      | queued => exact ⟨h.1, by simpa [isOffered, setOffer] using hhead⟩
      | offered since => exact absurd (hnone.symm.trans h) nofun
  · exact ⟨st, h, .refl now st⟩

/-- An offer that is withdrawn with another user is not made out to this one. -/
theorem isOffered_of_release (hnone : b.isOffered u = false) {b' : Booth}
    (hoffer : b'.offer = if b.isOffered s then none else b.offer) : b'.isOffered u = false := by
  rw [Bool.eq_false_iff, ne_eq, isOffered_iff] at hnone ⊢
  rintro ⟨o, ho, huser⟩
  exact hnone ⟨o, (offer_of_releaseOffer (hoffer ▸ ho)).1, huser⟩

/-- An offer stays when that of another user is withdrawn. -/
theorem offer_of_release {since : Instant} (hoffer : b.offer = some ⟨u, since⟩) (hs : s ≠ u) :
    (if b.isOffered s then none else b.offer) = some ⟨u, since⟩ := by
  rw [if_neg, hoffer]
  rw [isOffered_iff]
  rintro ⟨o, ho, rfl⟩
  exact hs (congrArg Offer.user (Option.some.inj (ho.symm.trans hoffer)))

/-- A request of another user to register changes nobody's standing. -/
theorem Stands.register (h : b.Stands u st) (hs : s ≠ u) (now : Instant) : (b.register s now).2.Stands u st := by
  have hjudged := register_judged b s now
  generalize b.register s now = outcome at hjudged
  cases hjudged with
  | joins =>
    cases st with
    | outside => exact ⟨h.1, by simpa using ⟨h.2, hs.symm⟩⟩
    | inside | offered => exact h
    | queued => exact ⟨List.mem_append_left _ h.1, h.2⟩
  | enters =>
    cases st with
    | outside =>
      refine ⟨?_, fun hwait => h.2 (List.mem_of_mem_erase hwait)⟩
      rw [activeUsers, welcome, List.map_append]
      simpa using ⟨by simpa [activeUsers] using h.1, hs.symm⟩
    | inside since => exact List.mem_append_left _ h
    | queued => exact ⟨(List.mem_erase_of_ne hs.symm).mpr h.1, isOffered_of_release (s := s) h.2 rfl⟩
    | offered since => exact offer_of_release h hs
  | _ => exact h

/-- The exit of another user changes nobody's standing. -/
theorem Stands.removeActive (h : b.Stands u st) (hs : s ≠ u) : (b.removeActive s).2.Stands u st := by
  cases st with
  | outside => exact ⟨fun hin => h.1 ((List.eraseP_sublist.map _).subset hin), h.2⟩
  | inside since => exact (List.mem_eraseP_of_neg (by simpa using hs.symm)).mpr h
  | queued | offered => exact h

/-- The departure of another user from the queue changes nobody's standing. -/
theorem Stands.leaveQueue (h : b.Stands u st) (hs : s ≠ u) : (b.leaveQueue s).2.Stands u st := by
  change ((b.removeWaiting s).releaseOffer s).Stands u st
  rw [releaseOffer_eq]
  cases st with
  | outside => exact ⟨h.1, fun hwait => h.2 (List.mem_of_mem_erase hwait)⟩
  | inside since => exact h
  | queued => exact ⟨(List.mem_erase_of_ne hs.symm).mpr h.1, isOffered_of_release (s := s) h.2 rfl⟩
  | offered since => exact offer_of_release h hs

/-- The answer to another user's request tells a user nothing but the news of the queue and an offer. -/
theorem dealings_answerLetters (hs : s ≠ u) (judged : Verdict × Booth) :
    dealings u (answerLetters s now judged) =
      if judged.1 = .admitted true then
        dealings u judged.2.queueUpdates ++ dealings u (judged.2.offerLetters now)
      else [] := by
  obtain ⟨verdict, after⟩ := judged
  rcases verdict with (_ | _) | _ | _ | _ | _ <;> simp [answerLetters, dealings_cons, hs]

/-- Ending overdue sessions moves nobody but those who are over their time. -/
theorem Stands.sweepSessions (horderly : b.Orderly) (h : b.Stands u st) (now : Instant) (limit : Span) :
    (b.sweepSessions now limit).2.Stands u st ∧ u ∉ b.expired now limit ∨
      ∃ since, st = .inside since ∧ limit ≤ now.since since ∧ (b.sweepSessions now limit).2.Stands u .outside ∧
        u ∈ b.expired now limit := by
  have hactive : u ∈ b.expired now limit → u ∈ b.activeUsers := fun hgone => (b.expired_sublist now limit).subset hgone
  rw [horderly.sweepSessions_eq]
  cases st with
  | outside =>
    refine .inl ⟨⟨fun hin => h.1 ((List.filter_sublist.map _).subset hin), h.2⟩, fun hgone => h.1 (hactive hgone)⟩
  | queued =>
    exact .inl ⟨h, fun hgone => horderly.not_active_of_waiting h.1 (hactive hgone)⟩
  | offered since =>
    exact .inl ⟨h, fun hgone => horderly.not_active_of_waiting (horderly.offer_mem h) (hactive hgone)⟩
  | inside since =>
    have hout : u ∉ b.waiting := h.not_waiting horderly (.inr ⟨since, rfl⟩)
    have hown (session : Session) (hsession : session ∈ b.active) (huser : session.user = u) : session.start = since :=
      congrArg Session.start (List.inj_on_of_nodup_map horderly.active_nodup hsession h huser)
    by_cases hover : limit ≤ now.since since
    · refine .inr ⟨since, rfl, hover, ⟨fun hin => ?_, hout⟩, ?_⟩
      · obtain ⟨session, hsession, huser⟩ := List.mem_map.mp hin
        obtain ⟨hsession, hkept⟩ := List.mem_filter.mp hsession
        rw [hown session hsession huser] at hkept
        exact of_decide_eq_true hkept hover
      · exact List.mem_map.mpr ⟨_, List.mem_filter.mpr ⟨h, decide_eq_true hover⟩, rfl⟩
    · refine .inl ⟨List.mem_filter.mpr ⟨h, by simpa using hover⟩, fun hgone => ?_⟩
      obtain ⟨session, hsession, huser⟩ := List.mem_map.mp hgone
      obtain ⟨hsession, hlimit⟩ := List.mem_filter.mp hsession
      rw [hown session hsession huser] at hlimit
      exact hover (of_decide_eq_true hlimit)

/-- Withdrawing an overdue offer changes nobody's standing but the holder's. -/
theorem Stands.sweepOffer (horderly : b.Orderly) (h : b.Stands u st) (now : Instant) (limit : Span)
    (hlimit : ∀ since, st = .offered since → now.since since ≤ limit) :
    (b.sweepOffer now limit).2.Stands u st ∧ st.Drifts now st (dealings u (b.withdrawalLetters now limit)) := by
  have hswept := horderly.sweepOffer now limit
  unfold withdrawalLetters
  rcases b.sweepOffer_cases now limit with ⟨o, ho, hover, heq⟩ | heq
  · have hother : o.user ≠ u ∨ ∀ since, st ≠ .offered since := by
      by_contra hholder
      push Not at hholder
      obtain ⟨-, since, rfl⟩ := hholder
      obtain rfl := Option.some.inj (ho.symm.trans h)
      exact absurd (hlimit since rfl) (UInt64.not_le.mpr hover)
    rw [heq] at hswept ⊢
    have hne : o.user ≠ u := by
      rintro rfl
      cases st with
      | outside => exact h.2 (horderly.offer_mem ho)
      | inside since => exact h.not_waiting horderly (.inr ⟨since, rfl⟩) (horderly.offer_mem ho)
      | queued => exact absurd ((isOffered_iff b o.user).mpr ⟨o, ho, rfl⟩) (Bool.eq_false_iff.mp h.2)
      | offered since => exact hother.elim (fun hne => hne rfl) fun hnone => hnone since rfl
    have hstands : ({ b with offer := none, waiting := b.waiting.erase o.user } : Booth).Stands u st := by
      cases st with
      | outside => exact ⟨h.1, fun hwait => h.2 (List.mem_of_mem_erase hwait)⟩
      | inside since => exact h
      | queued => exact ⟨(List.mem_erase_of_ne hne.symm).mpr h.1, rfl⟩
      | offered since =>
        obtain rfl := Option.some.inj (ho.symm.trans h)
        exact absurd rfl hne
    refine ⟨hstands, ?_⟩
    rw [dealings_cons, if_neg fun hboth => hne hboth.1]
    exact hstands.queueUpdates hswept now
  · rw [heq]
    exact ⟨h, .refl now st⟩

end Booth

end BoothFloor
