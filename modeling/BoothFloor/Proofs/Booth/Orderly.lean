import BoothFloor.Proofs.Booth.Register
import Mathlib.Data.List.Nodup

/-!
# A booth's register in order

The lists of a booth stay within their limits and agree with each other: `Booth.Orderly`. Every
operation that a host carries out on its booth keeps the register in order, whatever the user, the
moment and the limit, so an orderly register needs no other knowledge of the host.
-/

namespace BoothFloor

namespace Booth

/-- The lists of a register are within their limits, without duplicates and in agreement, also with the set of
those ever admitted. -/
structure Orderly (b : Booth) : Prop where
  active_le : b.active.length ≤ b.capacity
  active_nodup : b.activeUsers.Nodup
  waiting_le : b.waiting.length ≤ b.maxUsers
  waiting_nodup : b.waiting.Nodup
  registered_le : b.registered.length ≤ b.maxUsers
  registered_nodup : b.registered.Nodup
  agrees : b.Agrees
  active_registered : ∀ u ∈ b.activeUsers, u ∈ b.registered
  waiting_new : ∀ u ∈ b.waiting, u ∉ b.registered
  offer_head : ∀ o, b.offer = some o → b.waiting.head? = some o.user

/-- A booth that has just been opened is in order. -/
theorem orderly_ofRules (id : NodeId) (r : Rules) : (ofRules id r).Orderly where
  active_le := Nat.zero_le _
  active_nodup := List.nodup_nil
  waiting_le := Nat.zero_le _
  waiting_nodup := List.nodup_nil
  registered_le := Nat.zero_le _
  registered_nodup := List.nodup_nil
  agrees := agrees_opened _ _ _ _
  active_registered := fun _ h => absurd h List.not_mem_nil
  waiting_new := fun _ h => absurd h List.not_mem_nil
  offer_head := fun _ h => by cases h

/-- The head of a list stays in front when another element is taken out. -/
theorem head?_erase_of_ne {a u : NodeId} {l : List NodeId} (hhead : l.head? = some a) (hne : a ≠ u) :
    (l.erase u).head? = some a := by
  obtain ⟨rest, rfl⟩ := List.head?_eq_some_iff.mp hhead
  rw [List.erase_cons_tail (by simpa using hne)]
  rfl

/-- The holder of an orderly register's offer waits. -/
theorem Orderly.offer_mem {b : Booth} (h : b.Orderly) {o : Offer} (ho : b.offer = some o) :
    o.user ∈ b.waiting :=
  List.mem_of_head? (h.offer_head o ho)

/-- Of an orderly register only a waiter holds the offer. -/
theorem Orderly.isOffered_of_not_mem {b : Booth} (h : b.Orderly) {u : NodeId}
    (hout : u ∉ b.waiting) : b.isOffered u = false := by
  rw [Bool.eq_false_iff, ne_eq, isOffered_iff]
  rintro ⟨o, ho, rfl⟩
  exact hout (h.offer_mem ho)

/-- Nobody waits and is inside at once. -/
theorem Orderly.not_active_of_waiting {b : Booth} (h : b.Orderly) {u : NodeId}
    (hwait : u ∈ b.waiting) : u ∉ b.activeUsers :=
  fun hin => h.waiting_new u hwait (h.active_registered u hin)

/-- Taking sessions off the list of those inside leaves a register in order. -/
theorem Orderly.of_active_sublist {b : Booth} (h : b.Orderly) {sessions : List Session}
    (hsub : sessions.Sublist b.active) : ({ b with active := sessions } : Booth).Orderly :=
  { h with
    active_le := Nat.le_trans hsub.length_le h.active_le
    active_nodup := h.active_nodup.sublist (hsub.map _)
    active_registered := fun u hu => h.active_registered u ((hsub.map _).subset hu) }

/-- An offer that is not withdrawn with a user is made out to another one. -/
theorem offer_of_releaseOffer {b : Booth} {u : NodeId} {o : Offer}
    (ho : (if b.isOffered u then none else b.offer) = some o) : b.offer = some o ∧ o.user ≠ u := by
  by_cases hu : b.isOffered u = true
  · rw [if_pos hu] at ho
    cases ho
  · rw [if_neg hu] at ho
    exact ⟨ho, fun h => hu ((isOffered_iff b u).mpr ⟨o, ho, h⟩)⟩

/-- Taking a user off the queue together with its offer leaves a register in order. -/
theorem Orderly.leaveQueue {b : Booth} (h : b.Orderly) (u : NodeId) : (b.leaveQueue u).2.Orderly := by
  change ((b.removeWaiting u).releaseOffer u).Orderly
  rw [releaseOffer_eq]
  exact { h with
    waiting_le := Nat.le_trans List.length_erase_le h.waiting_le
    waiting_nodup := h.waiting_nodup.erase u
    waiting_new := fun v hv => h.waiting_new v (List.mem_of_mem_erase hv)
    offer_head := fun o ho =>
      have hother := offer_of_releaseOffer (b := b) ho
      head?_erase_of_ne (h.offer_head o hother.1) hother.2 }

/-- Letting in a newcomer for whom there is a slot and a line leaves a register in order. -/
theorem Orderly.welcome {b : Booth} (h : b.Orderly) {u : NodeId} (now : Instant)
    (hnew : u ∉ b.registered) (hslot : b.active.length < b.capacity)
    (hline : b.registered.length < b.maxUsers) : (b.welcome u now).Orderly where
  active_le := by
    rw [Booth.welcome, List.length_append]
    exact hslot
  active_nodup := by
    rw [activeUsers, Booth.welcome, List.map_append]
    change (b.activeUsers ++ [u]).Nodup
    exact h.active_nodup.append (List.nodup_singleton u) fun v hv hu =>
      hnew (List.mem_singleton.mp hu ▸ h.active_registered v hv)
  waiting_le := Nat.le_trans List.length_erase_le h.waiting_le
  waiting_nodup := h.waiting_nodup.erase u
  registered_le := by
    rw [Booth.welcome, List.length_append]
    exact hline
  registered_nodup := h.registered_nodup.append (List.nodup_singleton u) fun v hv hu =>
    hnew (List.mem_singleton.mp hu ▸ hv)
  agrees := h.agrees.insert rfl rfl
  active_registered := by
    intro v hv
    rw [activeUsers, Booth.welcome, List.map_append] at hv
    rcases List.mem_append.mp hv with hv | hv
    · exact List.mem_append_left _ (h.active_registered v hv)
    · exact List.mem_append_right _ hv
  waiting_new := by
    intro v hv hold
    obtain ⟨hne, hwait⟩ := h.waiting_nodup.mem_erase_iff.mp hv
    rcases List.mem_append.mp hold with hold | hold
    · exact h.waiting_new v hwait hold
    · exact hne (List.mem_singleton.mp hold)
  offer_head := fun o ho =>
    have hother := offer_of_releaseOffer (b := b) ho
    head?_erase_of_ne (h.offer_head o hother.1) hother.2

/-- A newcomer at the end of a queue with room leaves a register in order. -/
theorem Orderly.join {b : Booth} (h : b.Orderly) {u : NodeId} (hnew : u ∉ b.registered)
    (hwait : u ∉ b.waiting) (hroom : b.waiting.length < b.maxUsers) :
    ({ b with waiting := b.waiting ++ [u] } : Booth).Orderly :=
  { h with
    waiting_le := by
      rw [List.length_append]
      exact hroom
    waiting_nodup := h.waiting_nodup.append (List.nodup_singleton u) fun v hv hu =>
      hwait (List.mem_singleton.mp hu ▸ hv)
    waiting_new := by
      intro v hv
      rcases List.mem_append.mp hv with hv | hv
      · exact h.waiting_new v hv
      · exact List.mem_singleton.mp hv ▸ hnew
    offer_head := by
      intro o ho
      obtain ⟨rest, hrest⟩ := List.head?_eq_some_iff.mp (h.offer_head o ho)
      rw [hrest]
      rfl }

/-- However a request to register ends, the register is in order. -/
theorem Orderly.register {b : Booth} (h : b.Orderly) (u : NodeId) (now : Instant) :
    (b.register u now).2.Orderly := by
  have hjudged := register_judged b u now
  generalize b.register u now = outcome at hjudged
  cases hjudged with
  | confirmed => exact h
  | refused => exact h
  | stays => exact h
  | joins _ hnew hwait _ hroom => exact h.join (h.agrees.not_mem hnew) hwait hroom
  | turnedAway => exact h
  | unlisted => exact h
  | enters _ hnew hslot hline => exact h.welcome now (h.agrees.not_mem hnew) (by omega) hline

/-- Ending a session leaves a register in order. -/
theorem Orderly.removeActive {b : Booth} (h : b.Orderly) (u : NodeId) :
    (b.removeActive u).2.Orderly :=
  h.of_active_sublist List.eraseP_sublist

/-- Taking one user's session off a list of distinct users keeps exactly those of the others. -/
theorem eraseP_eq_filter {l : List Session} (hnodup : (l.map (·.user)).Nodup) (u : NodeId) :
    l.eraseP (·.user == u) = l.filter (·.user ≠ u) := by
  induction l with
  | nil => rfl
  | cons s rest ih =>
    obtain ⟨hhead, hrest⟩ := List.nodup_cons.mp hnodup
    by_cases hs : s.user = u
    · subst hs
      have hothers : ∀ t ∈ rest, t.user ≠ s.user := fun t ht heq =>
        hhead (List.mem_map.mpr ⟨t, ht, heq⟩)
      rw [List.eraseP_cons_of_pos (by simp), List.filter_cons_of_neg (by simp)]
      exact (List.filter_eq_self.mpr fun t ht => by simpa using hothers t ht).symm
    · rw [List.eraseP_cons_of_neg (by simpa using hs), List.filter_cons_of_pos (by simpa using hs),
        ih hrest]

/-- Taking the sessions of some users off a list of distinct users keeps those of the others. -/
theorem foldl_eraseP_eq_filter {l : List Session} (hnodup : (l.map (·.user)).Nodup)
    (gone : List NodeId) :
    gone.foldl (fun l u => l.eraseP (·.user == u)) l = l.filter (·.user ∉ gone) := by
  induction gone generalizing l with
  | nil => simp
  | cons u rest ih =>
    rw [List.foldl_cons, eraseP_eq_filter hnodup,
      ih (hnodup.sublist (List.filter_sublist.map _)), List.filter_filter]
    refine List.filter_congr fun s _ => ?_
    by_cases hs : s.user = u <;> simp [hs]

/-- An exit takes one user off those inside. -/
theorem Orderly.removeActive_activeUsers {b : Booth} (h : b.Orderly) (u : NodeId) :
    (b.removeActive u).2.activeUsers = b.activeUsers.filter (· ≠ u) := by
  change (b.active.eraseP (·.user == u)).map (·.user) = _
  rw [eraseP_eq_filter h.active_nodup, activeUsers, List.filter_map]
  rfl

/-- A sweep takes those off who are over their time. -/
theorem Orderly.sweepSessions_activeUsers {b : Booth} (h : b.Orderly) (now : Instant) (limit : Span) :
    (b.sweepSessions now limit).2.activeUsers = b.activeUsers.filter (· ∉ b.expired now limit) := by
  rw [activeUsers, sweepSessions_snd]
  change ((b.expired now limit).foldl (fun l u => l.eraseP (·.user == u)) b.active).map (·.user) = _
  rw [foldl_eraseP_eq_filter h.active_nodup, activeUsers, List.filter_map]
  rfl

/-- A sweep keeps exactly the sessions that have not lasted for the limit. -/
theorem Orderly.sweepSessions_eq {b : Booth} (h : b.Orderly) (now : Instant) (limit : Span) :
    (b.sweepSessions now limit).2 =
      { b with active := b.active.filter fun s => ¬ limit ≤ now.since s.start } := by
  rw [sweepSessions_snd, foldl_eraseP_eq_filter h.active_nodup]
  congr 1
  refine List.filter_congr fun s hs => ?_
  have hiff : s.user ∈ b.expired now limit ↔ limit ≤ now.since s.start := by
    rw [expired, List.mem_map]
    constructor
    · rintro ⟨t, ht, heq⟩
      obtain ⟨htmem, hlimit⟩ := List.mem_filter.mp ht
      obtain rfl := List.inj_on_of_nodup_map h.active_nodup htmem hs heq
      simpa using hlimit
    · exact fun hlimit => ⟨s, List.mem_filter.mpr ⟨hs, by simpa using hlimit⟩, rfl⟩
  simp only [hiff]

/-- Ending overdue sessions leaves a register in order. -/
theorem Orderly.sweepSessions {b : Booth} (h : b.Orderly) (now : Instant) (limit : Span) :
    (b.sweepSessions now limit).2.Orderly := by
  rw [h.sweepSessions_eq]
  exact h.of_active_sublist List.filter_sublist

/-- Withdrawing an overdue offer leaves a register in order. -/
theorem Orderly.sweepOffer {b : Booth} (h : b.Orderly) (now : Instant) (limit : Span) :
    (b.sweepOffer now limit).2.Orderly := by
  rcases b.sweepOffer_cases now limit with ⟨o, -, -, heq⟩ | heq <;> rw [heq]
  · exact { h with
      waiting_le := Nat.le_trans List.length_erase_le h.waiting_le
      waiting_nodup := h.waiting_nodup.erase _
      waiting_new := fun v hv => h.waiting_new v (List.mem_of_mem_erase hv)
      offer_head := fun _ ho => by cases ho }
  · exact h

/-- Offering a slot leaves a register in order. -/
theorem Orderly.offerNext {b : Booth} (h : b.Orderly) (now : Instant) : (b.offerNext now).2.Orderly := by
  rcases b.offerNext_cases now with ⟨head, rest, hwait, -, -, heq⟩ | ⟨-, heq⟩ <;> rw [heq]
  · refine { h with offer_head := fun o ho => ?_ }
    obtain rfl := Option.some.inj ho
    exact List.head?_eq_some_iff.mpr ⟨rest, hwait⟩
  · exact h

end Booth

end BoothFloor
