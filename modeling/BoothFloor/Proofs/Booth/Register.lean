import BoothFloor.Booth.Admission
import BoothFloor.Proofs.NodeId
import Mathlib.Data.List.Basic

/-!
# How a request to register ends

A request to register ends in one of seven ways, `Booth.Judged`, each with its condition and the
booth that it leaves behind. In particular a user is let in by one closed update, `Booth.welcome`:
the checks made first leave no way for the later ones to fail.
-/

namespace BoothFloor

namespace Booth

/-- The flag for a user inside says that it is one of the active users. -/
theorem isActive_iff (b : Booth) (u : NodeId) : b.isActive u = true ↔ u ∈ b.activeUsers := by
  simp only [isActive, activeUsers, List.any_eq_true, beq_iff_eq, List.mem_map]

/-- The set of those ever admitted and the list of them hold the same users. -/
def Agrees (b : Booth) : Prop := ∀ u, b.isRegistered u = true ↔ u ∈ b.registered

/-- Whoever is not in the set is not on the list of an agreeing register either. -/
theorem Agrees.not_mem {b : Booth} (h : b.Agrees) {u : NodeId} (hnew : b.isRegistered u = false) :
    u ∉ b.registered := fun hold => absurd ((h u).mpr hold) (Bool.eq_false_iff.mp hnew)

/-- Whoever is not on the list of an agreeing register is not in the set either. -/
theorem Agrees.isRegistered_of_not_mem {b : Booth} (h : b.Agrees) {u : NodeId} (hnew : u ∉ b.registered) :
    b.isRegistered u = false := Bool.eq_false_iff.mpr (mt (h u).mp hnew)

/-- A register that has just been opened agrees: nobody is in the set and nobody on the list. -/
theorem agrees_opened (id : NodeId) (capacity maxUsers : Nat) (description : String) :
    (opened id capacity maxUsers description).Agrees := fun u =>
  iff_of_false (Bool.eq_false_iff.mp (NodeSet.contains_empty u)) List.not_mem_nil

/-- Noting a user in both places keeps them in agreement, whatever else changes. -/
theorem Agrees.insert {b b' : Booth} (h : b.Agrees) {u : NodeId} (hset : b'.admitted = b.admitted.insert u)
    (hlist : b'.registered = b.registered ++ [u]) : b'.Agrees := by
  intro v
  rw [isRegistered, hset, NodeSet.contains_insert, Bool.or_eq_true, beq_iff_eq, hlist, List.mem_append,
    List.mem_singleton, Or.comm]
  exact or_congr_left (h v)

/-- The flag for a waiter says that it is in the queue. -/
theorem isWaiting_iff (b : Booth) (u : NodeId) : b.isWaiting u = true ↔ u ∈ b.waiting := by
  simp only [isWaiting, List.contains_iff_mem]

/-- The flag for an offer's holder says that the offer is made out to it. -/
theorem isOffered_iff (b : Booth) (u : NodeId) :
    b.isOffered u = true ↔ ∃ o, b.offer = some o ∧ o.user = u := by
  unfold isOffered
  cases b.offer <;> simp

/-- Each session has one active user. -/
theorem length_activeUsers (b : Booth) : b.activeUsers.length = b.active.length := by
  rw [activeUsers, List.length_map]

/-- Those who do not wait have no place in the queue. -/
theorem position?_of_not_mem {b : Booth} {u : NodeId} (h : u ∉ b.waiting) :
    b.position? u = none := by
  rw [position?, List.idxOf?_eq_none_iff.mpr h, Option.map_none]

/-- A waiter's place, counted from one, is one more than its index in the queue. -/
theorem position?_of_mem {b : Booth} {u : NodeId} (h : u ∈ b.waiting) :
    b.position? u = some (b.waiting.idxOf u + 1) := by
  obtain ⟨i, hi⟩ := Option.isSome_iff_exists.mp (List.isSome_idxOf?.mpr h)
  have hfind : b.waiting.idxOf u = i := by
    rw [List.idxOf, List.findIdx_eq_getD_findIdx?]
    change (b.waiting.idxOf? u).getD b.waiting.length = i
    rw [hi, Option.getD_some]
  rw [position?, hi, hfind, Option.map_some]

/-- The waiters ahead of a user are those before its index; that of an outsider is the length. -/
theorem ahead_eq (b : Booth) (u : NodeId) : b.ahead u = b.waiting.idxOf u := by
  by_cases h : u ∈ b.waiting
  · rw [ahead, position?_of_mem h]
    rfl
  · rw [ahead, position?_of_not_mem h, List.idxOf_of_notMem h]

/-- The booth after a user was let in: its own offer and its place in the queue are gone. -/
def welcome (b : Booth) (u : NodeId) (now : Instant) : Booth :=
  { b with
    active := b.active ++ [⟨u, now⟩]
    admitted := b.admitted.insert u
    registered := b.registered ++ [u]
    waiting := b.waiting.erase u
    offer := if b.isOffered u then none else b.offer }

/-- Whoever was let in is inside. -/
theorem mem_activeUsers_welcome (b : Booth) (u : NodeId) (now : Instant) : u ∈ (b.welcome u now).activeUsers := by
  rw [activeUsers, welcome, List.map_append]
  exact List.mem_append_right _ (List.mem_singleton_self u)

/-- Whoever was in the set of those admitted stays there, and so does whoever was let in. -/
theorem isRegistered_welcome (b : Booth) (u v : NodeId) (now : Instant) :
    (b.welcome u now).isRegistered v = (v == u || b.isRegistered v) := b.admitted.contains_insert u v

/-- Withdrawing the offer of its holder changes nothing but the offer. -/
theorem releaseOffer_eq (b : Booth) (u : NodeId) :
    b.releaseOffer u = { b with offer := if b.isOffered u then none else b.offer } := by
  unfold releaseOffer
  split <;> rfl

/-- A user not in the set of those admitted is put there and at the end of the list, if a line is left. -/
theorem record_of_new {b : Booth} {u : NodeId} (hnew : b.isRegistered u = false)
    (hline : b.registered.length < b.maxUsers) :
    b.record u = .ok (true, { b with admitted := b.admitted.insert u, registered := b.registered ++ [u] }) := by
  rw [record, if_neg (Bool.eq_false_iff.mp hnew), if_neg (Nat.not_le_of_lt hline)]

/-- A user outside gets a session, if there is a slot. -/
theorem addActive_of_not_mem {b : Booth} {u : NodeId} (now : Instant) (hout : u ∉ b.activeUsers)
    (hslot : b.active.length < b.capacity) :
    b.addActive u now = .ok { b with active := b.active ++ [⟨u, now⟩] } := by
  rw [addActive, if_neg (mt (isActive_iff b u).mp hout), if_neg (Nat.not_le_of_lt hslot)]

/-- With a slot free and a line left on the list of those admitted, letting a user in cannot fail. -/
theorem letIn_eq {b : Booth} {u : NodeId} (now : Instant) (hout : u ∉ b.activeUsers)
    (hnew : b.isRegistered u = false) (hslot : b.active.length < b.capacity)
    (hline : b.registered.length < b.maxUsers) : b.letIn u now = (.ok (), b.welcome u now) := by
  rw [letIn, releaseOffer_eq, record_of_new (by exact hnew) (by exact hline)]
  dsimp only
  rw [addActive_of_not_mem now (by exact hout) (by exact hslot)]
  rfl

/-- A newcomer without a place in the queue is put at its end, if there is room. -/
theorem enqueue_of_not_mem {b : Booth} {u : NodeId} (h : u ∉ b.waiting)
    (hroom : b.waiting.length < b.maxUsers) :
    b.enqueue u = .ok (b.waiting.length + 1, { b with waiting := b.waiting ++ [u] }) := by
  rw [enqueue, position?_of_not_mem h]
  exact if_neg (by omega)

/-- How a request to register can end: the verdict and the booth left behind, each under its condition. -/
inductive Judged (b : Booth) (u : NodeId) (now : Instant) : Verdict × Booth → Prop
  /-- Who is inside is confirmed once more. -/
  | confirmed (hin : u ∈ b.activeUsers) : Judged b u now (.alreadyActive, b)
  /-- Who was inside before is refused. -/
  | refused (hout : u ∉ b.activeUsers) (hold : b.isRegistered u = true) : Judged b u now (.alreadyUsed, b)
  /-- A waiter without a slot keeps its place. -/
  | stays (hout : u ∉ b.activeUsers) (hnew : b.isRegistered u = false) (hwait : u ∈ b.waiting)
      (hfull : b.capacity ≤ b.active.length + b.ahead u) :
      Judged b u now (.queued (b.waiting.idxOf u + 1) b.waiting.length, b)
  /-- A newcomer without a slot goes to the end of the queue. -/
  | joins (hout : u ∉ b.activeUsers) (hnew : b.isRegistered u = false) (hwait : u ∉ b.waiting)
      (hfull : b.capacity ≤ b.active.length + b.waiting.length)
      (hroom : b.waiting.length < b.maxUsers) :
      Judged b u now (.queued (b.waiting.length + 1) (b.waiting.length + 1),
        { b with waiting := b.waiting ++ [u] })
  /-- A newcomer finds the queue full as well. -/
  | turnedAway (hout : u ∉ b.activeUsers) (hnew : b.isRegistered u = false) (hwait : u ∉ b.waiting)
      (hfull : b.capacity ≤ b.active.length + b.waiting.length)
      (hroom : b.maxUsers ≤ b.waiting.length) :
      Judged b u now (.rejected (.waitingQueueFull b.maxUsers), b)
  /-- There is a slot, but no line left on the list of those admitted. -/
  | unlisted (hout : u ∉ b.activeUsers) (hnew : b.isRegistered u = false)
      (hslot : b.active.length + b.ahead u < b.capacity) (hline : b.maxUsers ≤ b.registered.length) :
      Judged b u now (.rejected (.registeredListFull b.maxUsers), b)
  /-- The user is let in. -/
  | enters (hout : u ∉ b.activeUsers) (hnew : b.isRegistered u = false)
      (hslot : b.active.length + b.ahead u < b.capacity) (hline : b.registered.length < b.maxUsers) :
      Judged b u now (.admitted (b.isWaiting u), b.welcome u now)

/-- Every request to register ends in one of these ways. -/
theorem register_judged (b : Booth) (u : NodeId) (now : Instant) : Judged b u now (b.register u now) := by
  unfold register
  by_cases hin : b.isActive u = true
  · rw [if_pos hin]
    exact .confirmed ((isActive_iff b u).mp hin)
  rw [if_neg hin]
  have hout : u ∉ b.activeUsers := mt (isActive_iff b u).mpr hin
  by_cases hold : b.isRegistered u = true
  · rw [if_pos hold]
    exact .refused hout hold
  rw [if_neg hold]
  have hnew : b.isRegistered u = false := Bool.eq_false_iff.mpr hold
  by_cases hfull : b.capacity ≤ b.active.length + b.ahead u
  · rw [if_pos hfull]
    by_cases hwait : u ∈ b.waiting
    · rw [enqueue, position?_of_mem hwait]
      exact .stays hout hnew hwait hfull
    · have hfull' : b.capacity ≤ b.active.length + b.waiting.length := by
        rwa [ahead_eq, List.idxOf_of_notMem hwait] at hfull
      by_cases hroom : b.waiting.length < b.maxUsers
      · rw [enqueue_of_not_mem hwait hroom]
        have hjoins : Judged b u now _ := .joins hout hnew hwait hfull' hroom
        simpa only [List.length_append, List.length_singleton] using hjoins
      · rw [enqueue, position?_of_not_mem hwait]
        simp only [if_pos (Nat.le_of_not_lt hroom)]
        exact .turnedAway hout hnew hwait hfull' (Nat.le_of_not_lt hroom)
  · rw [if_neg hfull]
    have hslot : b.active.length + b.ahead u < b.capacity := Nat.lt_of_not_le hfull
    by_cases hline : b.maxUsers ≤ b.registered.length
    · rw [if_pos hline]
      exact .unlisted hout hnew hslot hline
    · rw [if_neg hline, letIn_eq now hout hnew (by omega) (Nat.lt_of_not_le hline)]
      exact .enters hout hnew hslot (Nat.lt_of_not_le hline)

/-- Whoever was in the set of those admitted stays there while others ask. -/
theorem isRegistered_register {b : Booth} {v : NodeId} (hv : b.isRegistered v = true) (u : NodeId) (now : Instant) :
    (b.register u now).2.isRegistered v = true := by
  have hjudged := register_judged b u now
  generalize b.register u now = outcome at hjudged
  cases hjudged with
  | enters => rw [isRegistered_welcome, hv, Bool.or_true]
  | _ => exact hv

/-- Two states of one booth: its id, its limits and its description are the same. -/
structure SameFixtures (a b : Booth) : Prop where
  id : b.id = a.id
  capacity : b.capacity = a.capacity
  maxUsers : b.maxUsers = a.maxUsers
  description : b.description = a.description

/-- A booth is a state of itself. -/
theorem SameFixtures.refl (b : Booth) : b.SameFixtures b := ⟨rfl, rfl, rfl, rfl⟩

/-- States of one booth can be compared across a third one. -/
theorem SameFixtures.trans {a b c : Booth} (hab : a.SameFixtures b) (hbc : b.SameFixtures c) :
    a.SameFixtures c :=
  ⟨hbc.id.trans hab.id, hbc.capacity.trans hab.capacity, hbc.maxUsers.trans hab.maxUsers,
    hbc.description.trans hab.description⟩

/-- Judging a request leaves the fixtures alone. -/
theorem register_sameFixtures (b : Booth) (u : NodeId) (now : Instant) :
    b.SameFixtures (b.register u now).2 := by
  have hjudged := register_judged b u now
  generalize b.register u now = outcome at hjudged
  cases hjudged <;> exact ⟨rfl, rfl, rfl, rfl⟩

/-- Leaving the queue leaves the fixtures alone. -/
theorem leaveQueue_sameFixtures (b : Booth) (u : NodeId) : b.SameFixtures (b.leaveQueue u).2 := by
  change b.SameFixtures ((b.removeWaiting u).releaseOffer u)
  rw [releaseOffer_eq]
  exact ⟨rfl, rfl, rfl, rfl⟩

/-- Those who are over their time are inside, and each of them is counted once. -/
theorem expired_sublist (b : Booth) (now : Instant) (limit : Span) :
    (b.expired now limit).Sublist b.activeUsers := List.filter_sublist.map _

/-- Ending overdue sessions changes the sessions only. -/
theorem sweepSessions_snd (b : Booth) (now : Instant) (limit : Span) :
    (b.sweepSessions now limit).2 = { b with
      active := (b.expired now limit).foldl (fun l u => l.eraseP (·.user == u)) b.active } := by
  change (b.expired now limit).foldl (fun b u => (b.removeActive u).2) b = _
  induction b.expired now limit generalizing b with
  | nil => rfl
  | cons u rest ih =>
    rw [List.foldl_cons, ih]
    rfl

/-- Ending overdue sessions leaves the queue as it is. -/
theorem sweepSessions_waiting (b : Booth) (now : Instant) (limit : Span) :
    (b.sweepSessions now limit).2.waiting = b.waiting := by
  rw [sweepSessions_snd]

/-- Taking users off the list of those inside brings in nobody. -/
theorem foldl_eraseP_sublist (l : List Session) (gone : List NodeId) :
    (gone.foldl (fun l u => l.eraseP (·.user == u)) l).Sublist l := by
  induction gone generalizing l with
  | nil => exact .refl l
  | cons u rest ih => exact (ih _).trans List.eraseP_sublist

/-- Ending overdue sessions leaves the fixtures alone. -/
theorem sweepSessions_sameFixtures (b : Booth) (now : Instant) (limit : Span) :
    b.SameFixtures (b.sweepSessions now limit).2 := by
  rw [sweepSessions_snd]
  exact ⟨rfl, rfl, rfl, rfl⟩

/-- A sweep withdraws the offer together with its holder's place, or changes nothing. -/
theorem sweepOffer_cases (b : Booth) (now : Instant) (limit : Span) :
    (∃ o, b.offer = some o ∧ limit < now.since o.since ∧ b.sweepOffer now limit =
        (some o.user, { b with offer := none, waiting := b.waiting.erase o.user })) ∨
      b.sweepOffer now limit = (none, b) := by
  unfold sweepOffer
  split
  · next o ho =>
    split
    · next hlimit => exact .inl ⟨o, ho, hlimit, rfl⟩
    · exact .inr rfl
  · exact .inr rfl

/-- Withdrawing an overdue offer leaves the fixtures alone. -/
theorem sweepOffer_sameFixtures (b : Booth) (now : Instant) (limit : Span) :
    b.SameFixtures (b.sweepOffer now limit).2 := by
  rcases b.sweepOffer_cases now limit with ⟨o, -, -, heq⟩ | heq <;> rw [heq]
  · exact ⟨rfl, rfl, rfl, rfl⟩
  · exact .refl b

/-- A free slot is offered to the head of the queue, unless there is none, an offer stands or nobody waits. -/
theorem offerNext_cases (b : Booth) (now : Instant) :
    (∃ head rest, b.waiting = head :: rest ∧ b.offer = none ∧ b.active.length < b.capacity ∧
        b.offerNext now = (some head, b.setOffer head now)) ∨
      (b.offer.isSome = true ∨ b.capacity ≤ b.active.length ∨ b.waiting = []) ∧ b.offerNext now = (none, b) := by
  unfold offerNext
  by_cases hoffer : b.offer.isSome = true
  · exact .inr ⟨.inl hoffer, if_pos (by simp [hoffer])⟩
  by_cases hslot : b.active.length < b.capacity
  · rw [if_neg (by simp [hoffer, hasFreeSlot, hslot])]
    cases hwait : b.waiting with
    | nil => exact .inr ⟨.inr (.inr rfl), rfl⟩
    | cons head rest => exact .inl ⟨head, rest, rfl, by simpa using hoffer, hslot, rfl⟩
  · exact .inr ⟨.inr (.inl (Nat.not_lt.mp hslot)), if_pos (by simp [hasFreeSlot, hslot])⟩

/-- Offering a slot changes the offer only. -/
theorem offerNext_snd (b : Booth) (now : Instant) :
    (b.offerNext now).2 = { b with offer := (b.offerNext now).2.offer } := by
  rcases b.offerNext_cases now with ⟨head, rest, -, -, -, heq⟩ | ⟨-, heq⟩
  · rw [heq]
    rfl
  · rw [heq]

/-- Offering a slot leaves the fixtures alone. -/
theorem offerNext_sameFixtures (b : Booth) (now : Instant) : b.SameFixtures (b.offerNext now).2 := by
  rw [offerNext_snd]
  exact ⟨rfl, rfl, rfl, rfl⟩

end Booth

end BoothFloor
