import BoothFloor.Proofs.Booth.Register

/-!
# Refused requests

A request to register gives up the user's offer and its place in the queue before the user is listed and gets a
session, and both of these can fail. The checks made first are what keeps a refusal from leaving the register
half changed. They rely on nothing that a host keeps in order: a booth may have any limits, and anything may
have been done to its register, in any order.
-/

namespace BoothFloor

namespace Booth

/-- What can be done to the register of a booth. -/
inductive Operation where
  | record (u : NodeId)
  | addActive (u : NodeId) (now : Instant)
  | removeActive (u : NodeId)
  | enqueue (u : NodeId)
  | removeWaiting (u : NodeId)
  | setOffer (u : NodeId) (now : Instant)
  | clearOffer
  | register (u : NodeId) (now : Instant)
  | offerNext (now : Instant)
  | leaveQueue (u : NodeId)
  | sweepSessions (now : Instant) (limit : Span)
  | sweepOffer (now : Instant) (limit : Span)
  deriving DecidableEq, Repr

/-- The booth after an operation; an operation on a full list leaves it as it was. -/
def apply (b : Booth) : Operation → Booth
  | .record u => match b.record u with
    | .ok (_, b') => b'
    | .error _ => b
  | .addActive u now => match b.addActive u now with
    | .ok b' => b'
    | .error _ => b
  | .removeActive u => (b.removeActive u).2
  | .enqueue u => match b.enqueue u with
    | .ok (_, b') => b'
    | .error _ => b
  | .removeWaiting u => b.removeWaiting u
  | .setOffer u now => b.setOffer u now
  | .clearOffer => b.clearOffer
  | .register u now => (b.register u now).2
  | .offerNext now => (b.offerNext now).2
  | .leaveQueue u => (b.leaveQueue u).2
  | .sweepSessions now limit => (b.sweepSessions now limit).2
  | .sweepOffer now limit => (b.sweepOffer now limit).2

/-- The booth after some operations. -/
def after (b : Booth) (past : List Operation) : Booth := past.foldl apply b

/-- The lists of a booth are within its limits, and the set and the list of those admitted agree. -/
structure WithinLimits (b : Booth) : Prop where
  active_le : b.active.length ≤ b.capacity
  waiting_le : b.waiting.length ≤ b.maxUsers
  registered_le : b.registered.length ≤ b.maxUsers
  agrees : b.Agrees

/-- The lists of an empty booth are within any limits. -/
theorem withinLimits_opened (id : NodeId) (capacity maxUsers : Nat) (description : String) :
    (opened id capacity maxUsers description).WithinLimits :=
  ⟨Nat.zero_le _, Nat.zero_le _, Nat.zero_le _, agrees_opened _ _ _ _⟩

/-- Noting an admission succeeds without a change, adds a line within the limit or fails. -/
theorem record_cases (b : Booth) (u : NodeId) :
    b.record u = .ok (false, b) ∨
      (b.registered.length < b.maxUsers ∧
        b.record u = .ok (true, { b with admitted := b.admitted.insert u, registered := b.registered ++ [u] })) ∨
      b.record u = .error (.registeredListFull b.maxUsers) := by
  unfold record
  split
  · exact .inl rfl
  · split
    · exact .inr (.inr rfl)
    · next hline => exact .inr (.inl ⟨Nat.lt_of_not_le hline, rfl⟩)

/-- Adding a session succeeds without a change, adds one within the capacity or fails. -/
theorem addActive_cases (b : Booth) (u : NodeId) (now : Instant) :
    b.addActive u now = .ok b ∨
      (b.active.length < b.capacity ∧
        b.addActive u now = .ok { b with active := b.active ++ [⟨u, now⟩] }) ∨
      b.addActive u now = .error (.activeListFull b.capacity) := by
  unfold addActive
  split
  · exact .inl rfl
  · split
    · exact .inr (.inr rfl)
    · next hslot => exact .inr (.inl ⟨Nat.lt_of_not_le hslot, rfl⟩)

/-- Putting a user in the queue succeeds without a change, adds it within the limit or fails. -/
theorem enqueue_cases (b : Booth) (u : NodeId) :
    (∃ place, b.enqueue u = .ok (place, b)) ∨
      (b.waiting.length < b.maxUsers ∧
        b.enqueue u = .ok (b.waiting.length + 1, { b with waiting := b.waiting ++ [u] })) ∨
      b.enqueue u = .error (.waitingQueueFull b.maxUsers) := by
  unfold enqueue
  split
  · next place _ => exact .inl ⟨place, rfl⟩
  · split
    · exact .inr (.inr rfl)
    · next hroom => exact .inr (.inl ⟨Nat.lt_of_not_le hroom, rfl⟩)

/-- Letting a user in for whom there is a slot and a line keeps the lists within the limits. -/
theorem WithinLimits.register {b : Booth} (h : b.WithinLimits) (u : NodeId) (now : Instant) :
    (b.register u now).2.WithinLimits := by
  have hjudged := register_judged b u now
  generalize b.register u now = outcome at hjudged
  cases hjudged with
  | confirmed | refused | stays | turnedAway | unlisted => exact h
  | joins _ _ _ _ hroom =>
    refine { h with waiting_le := ?_ }
    rw [List.length_append]
    exact hroom
  | enters _ _ hslot hline =>
    -- the waiters ahead only leave fewer slots
    have hfree : b.active.length < b.capacity := by omega
    refine ⟨?_, Nat.le_trans List.length_erase_le h.waiting_le, ?_, h.agrees.insert rfl rfl⟩
    · rw [welcome, List.length_append]
      exact hfree
    · rw [welcome, List.length_append]
      exact hline

/-- Every operation keeps the lists within the limits. -/
theorem WithinLimits.apply {b : Booth} (h : b.WithinLimits) (op : Operation) : (b.apply op).WithinLimits := by
  have hfewer (u : NodeId) : (b.removeWaiting u).WithinLimits :=
    { h with waiting_le := Nat.le_trans List.length_erase_le h.waiting_le }
  cases op with
  | record u =>
    rcases b.record_cases u with heq | ⟨hline, heq⟩ | heq <;> simp only [Booth.apply, heq]
    · exact h
    · refine { h with registered_le := ?_, agrees := h.agrees.insert rfl rfl }
      rw [List.length_append]
      exact hline
    · exact h
  | addActive u now =>
    rcases b.addActive_cases u now with heq | ⟨hslot, heq⟩ | heq <;> simp only [Booth.apply, heq]
    · exact h
    · refine { h with active_le := ?_ }
      rw [List.length_append]
      exact hslot
    · exact h
  | removeActive u => exact { h with active_le := Nat.le_trans List.eraseP_sublist.length_le h.active_le }
  | enqueue u =>
    rcases b.enqueue_cases u with ⟨_, heq⟩ | ⟨hroom, heq⟩ | heq <;> simp only [Booth.apply, heq]
    · exact h
    · refine { h with waiting_le := ?_ }
      rw [List.length_append]
      exact hroom
    · exact h
  | removeWaiting u => exact hfewer u
  | setOffer => exact { h with }
  | clearOffer => exact { h with }
  | register u now => exact h.register u now
  | offerNext now =>
    rw [Booth.apply, offerNext_snd]
    exact { h with }
  | leaveQueue u =>
    change ((b.removeWaiting u).releaseOffer u).WithinLimits
    rw [releaseOffer_eq]
    exact { hfewer u with }
  | sweepSessions now limit =>
    rw [Booth.apply, sweepSessions_snd]
    exact { h with active_le := Nat.le_trans (foldl_eraseP_sublist _ _).length_le h.active_le }
  | sweepOffer now limit =>
    rcases b.sweepOffer_cases now limit with ⟨o, -, -, heq⟩ | heq <;> simp only [Booth.apply, heq]
    · exact { hfewer o.user with }
    · exact h

/-- Every operation leaves the fixtures alone. -/
theorem apply_sameFixtures (b : Booth) (op : Operation) : b.SameFixtures (b.apply op) := by
  cases op with
  | record u =>
    rcases b.record_cases u with heq | ⟨-, heq⟩ | heq <;> simp only [apply, heq] <;>
      exact ⟨rfl, rfl, rfl, rfl⟩
  | addActive u now =>
    rcases b.addActive_cases u now with heq | ⟨-, heq⟩ | heq <;> simp only [apply, heq] <;>
      exact ⟨rfl, rfl, rfl, rfl⟩
  | enqueue u =>
    rcases b.enqueue_cases u with ⟨_, heq⟩ | ⟨-, heq⟩ | heq <;> simp only [apply, heq] <;>
      exact ⟨rfl, rfl, rfl, rfl⟩
  | removeActive | removeWaiting | setOffer | clearOffer => exact ⟨rfl, rfl, rfl, rfl⟩
  | register u now => exact b.register_sameFixtures u now
  | offerNext now => exact b.offerNext_sameFixtures now
  | leaveQueue u => exact b.leaveQueue_sameFixtures u
  | sweepSessions now limit => exact b.sweepSessions_sameFixtures now limit
  | sweepOffer now limit => exact b.sweepOffer_sameFixtures now limit

/-- Whatever is done to a booth, its lists stay within the limits with which it was opened. -/
theorem after_withinLimits {b : Booth} (h : b.WithinLimits) (past : List Operation) :
    (b.after past).WithinLimits ∧ b.SameFixtures (b.after past) := by
  induction past generalizing b with
  | nil => exact ⟨h, .refl b⟩
  | cons op rest ih =>
    obtain ⟨hlater, hfixtures⟩ := ih (h.apply op)
    exact ⟨hlater, (b.apply_sameFixtures op).trans hfixtures⟩

/-- A request is refused exactly if the user is new and either there is a slot for it and no line left, or there is
no slot and no room for one more waiter. -/
theorem register_rejected_iff {b : Booth} (h : b.Agrees) (u : NodeId) (now : Instant) (e : RegistryError) :
    (b.register u now).1 = .rejected e ↔ u ∉ b.activeUsers ∧ u ∉ b.registered ∧
      ((b.active.length + b.waiting.idxOf u < b.capacity ∧ b.maxUsers ≤ b.registered.length ∧
          e = .registeredListFull b.maxUsers) ∨
        (b.capacity ≤ b.active.length + b.waiting.idxOf u ∧ u ∉ b.waiting ∧
          b.maxUsers ≤ b.waiting.length ∧ e = .waitingQueueFull b.maxUsers)) := by
  have hjudged := register_judged b u now
  generalize b.register u now = outcome at hjudged
  rw [← ahead_eq]
  rw [← not_congr (h u), Bool.not_eq_true]
  -- one who does not wait has the whole queue ahead, so both reasons count those ahead alike
  cases hjudged with
  | confirmed hin => simp [hin]
  | refused hout hold => simp [hold]
  | stays hout hnew hwait hfull => simp [hwait, Nat.not_lt_of_le hfull]
  | joins hout hnew hwait hfull hroom =>
    rw [← List.idxOf_of_notMem hwait, ← ahead_eq] at hfull
    simp [Nat.not_lt_of_le hfull, Nat.not_le_of_lt hroom]
  | turnedAway hout hnew hwait hfull hroom =>
    rw [← List.idxOf_of_notMem hwait, ← ahead_eq] at hfull
    simp [hout, hnew, hwait, hfull, hroom, Nat.not_lt_of_le hfull, eq_comm]
  | unlisted hout hnew hslot hline =>
    simp [hout, hnew, hslot, hline, Nat.not_le_of_lt hslot, eq_comm]
  | enters hout hnew hslot hline => simp [Nat.not_le_of_lt hslot, Nat.not_le_of_lt hline]

/-- A refused request leaves the register as it was. -/
theorem register_of_rejected {b : Booth} {u : NodeId} {now : Instant} {e : RegistryError}
    (h : (b.register u now).1 = .rejected e) : (b.register u now).2 = b := by
  have hjudged := register_judged b u now
  generalize b.register u now = outcome at hjudged h
  cases hjudged with
  | turnedAway | unlisted => rfl
  | confirmed | refused | stays | joins | enters => cases h

/-- Whatever the limits of a booth and whatever has been done to its register, a refused request leaves all of the
register as it was. The list of those admitted is the reason exactly if the user is new to the booth, those inside
and the waiters ahead leave a slot and the list is at its limit; the queue is the reason exactly if they leave no
slot, the user is new and does not wait and the queue is at its limit; the slots never are. Once the checks are
passed, letting the user in succeeds, so no failure after its offer and its place were given up is ever seen. -/
theorem after_refuses_whole (id : NodeId) (capacity maxUsers : Nat) (description : String)
    (past : List Operation) (u : NodeId) (now : Instant) :
    let b := (opened id capacity maxUsers description).after past
    let judged := b.register u now
    let taken := b.active.length + b.waiting.idxOf u
    (∀ e, judged.1 = .rejected e → judged.2 = b) ∧
      (∀ limit, judged.1 = .rejected (.registeredListFull limit) ↔
        u ∉ b.activeUsers ∧ u ∉ b.registered ∧ taken < capacity ∧
          b.registered.length = maxUsers ∧ limit = maxUsers) ∧
      (∀ limit, judged.1 = .rejected (.waitingQueueFull limit) ↔
        capacity ≤ taken ∧ u ∉ b.activeUsers ∧ u ∉ b.registered ∧ u ∉ b.waiting ∧
          b.waiting.length = maxUsers ∧ limit = maxUsers) ∧
      (∀ limit, judged.1 ≠ .rejected (.activeListFull limit)) ∧
      (u ∉ b.activeUsers → u ∉ b.registered → taken < capacity → b.registered.length < maxUsers →
        (b.letIn u now).1 = .ok ()) := by
  intro b judged taken
  have hopened := withinLimits_opened id capacity maxUsers description
  obtain ⟨hlimits, hfixtures⟩ : b.WithinLimits ∧ _ := after_withinLimits hopened past
  have hcapacity : b.capacity = capacity := hfixtures.capacity
  have hmax : b.maxUsers = maxUsers := hfixtures.maxUsers
  have hlisted : b.maxUsers ≤ b.registered.length ↔ b.registered.length = maxUsers := by
    have := hlimits.registered_le
    omega
  have hqueued : b.maxUsers ≤ b.waiting.length ↔ b.waiting.length = maxUsers := by
    have := hlimits.waiting_le
    omega
  refine ⟨fun e => register_of_rejected, fun limit => ?_, fun limit => ?_, fun limit hfull => ?_,
    fun hout hnew hslot hline => ?_⟩
  · rw [register_rejected_iff hlimits.agrees, hlisted, hcapacity, hmax]
    simp [taken]
  · rw [register_rejected_iff hlimits.agrees, hqueued, hcapacity, hmax]
    simp only [taken, reduceCtorEq, and_false, false_or, RegistryError.waitingQueueFull.injEq]
    tauto
  · obtain ⟨-, -, ⟨-, -, heq⟩ | ⟨-, -, -, heq⟩⟩ := (register_rejected_iff hlimits.agrees u now _).mp hfull <;> cases heq
  · rw [letIn_eq now hout (hlimits.agrees.isRegistered_of_not_mem hnew) (by omega) (by omega)]

/-- A booth with two slots and a single line, which somebody holds who never came in; a waiter has an offer. -/
def oddBooth : Booth := (opened ⟨1⟩ 2 1 "").after [.record ⟨8⟩, .enqueue ⟨7⟩, .setOffer ⟨7⟩ ⟨3⟩]

/-- There is a slot for the waiter but no line; it keeps its place and its offer. -/
theorem after_refuses_whole_oddBooth :
    oddBooth.register ⟨7⟩ ⟨5⟩ = (.rejected (.registeredListFull 1), oddBooth) ∧
      oddBooth.waiting = [⟨7⟩] ∧ oddBooth.offer = some ⟨⟨7⟩, ⟨3⟩⟩ := by
  obtain ⟨hwhole, hlisted, -⟩ :=
    after_refuses_whole ⟨1⟩ 2 1 "" [.record ⟨8⟩, .enqueue ⟨7⟩, .setOffer ⟨7⟩ ⟨3⟩] ⟨7⟩ ⟨5⟩
  have hrefused := (hlisted 1).mpr (by decide)
  exact ⟨Prod.ext hrefused (hwhole _ hrefused), by decide, by decide⟩

end Booth

end BoothFloor
