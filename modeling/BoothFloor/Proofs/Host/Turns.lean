import BoothFloor.Proofs.Host.Admissions
import BoothFloor.Proofs.Host.Queue

/-!
# Admission in turn

Those who wait keep the order in which they came, and a waiter is let in on its own request if there is a slot
for it beside one for everybody ahead of it. So with no more free slots than waiters ahead nobody is let in out
of turn. With more of them somebody may be, and then everyone whom it passes is left a slot.
-/

namespace BoothFloor

namespace Booth

variable {b : Booth} {u w : NodeId} {now : Instant}

/-- Whoever a request to register admits has found a slot beside those for everybody ahead of it. -/
theorem mem_answer_admitted :
    u ∈ (answerNotices u now (b.register u now)).filterMap Notice.admitted? ↔
      ∃ left, (b.register u now).1 = .admitted left := by
  generalize b.register u now = outcome
  obtain ⟨verdict, after⟩ := outcome
  rcases verdict with (_ | _) | _ | _ | _ | _ <;>
    simp [answerNotices, List.filterMap_cons, Notice.admitted?, offerNotices_admitted]

/-- A waiter is let in exactly if there is a slot for it and a line left on the list of those admitted. -/
theorem Orderly.admits_waiter (h : b.Orderly) (hwait : u ∈ b.waiting) (now : Instant) :
    (∃ left, (b.register u now).1 = .admitted left) ↔ b.HasSlot u ∧ b.registered.length < b.maxUsers := by
  rw [hasSlot_iff, and_iff_right hwait, ← ahead_eq]
  have hjudged := register_judged b u now
  generalize b.register u now = outcome at hjudged
  cases hjudged with
  | confirmed hin => exact absurd hin (h.not_active_of_waiting hwait)
  | refused _ hold => exact absurd ((h.agrees u).mp hold) (h.waiting_new u hwait)
  | stays _ _ _ hfull => simp [Nat.not_lt_of_le hfull]
  | joins _ _ hout => exact absurd hwait hout
  | turnedAway _ _ hout => exact absurd hwait hout
  | unlisted _ _ _ hline => simp [Nat.not_lt_of_le hline]
  | enters _ _ hslot hline => simp [hslot, hline]

/-- Whoever waits ahead of a user for whom there is a slot has one too. -/
theorem Before.hasSlot (h : b.Before w u) (hslot : b.active.length + b.ahead u < b.capacity) : b.HasSlot w := by
  unfold Before at h
  rw [ahead_eq] at hslot
  rw [hasSlot_iff]
  exact ⟨List.idxOf_lt_length_iff.mp (Nat.lt_of_lt_of_le h List.idxOf_le_length), by omega⟩

end Booth

namespace Host

variable {h : Host} {m : Moment} {i : Input} {u w : NodeId}

/-- Two users keep their order over a run at whose every moment the first of them waits. -/
theorem run_keeps_before (horderly : h.booth.Orderly) (hbefore : h.booth.Before w u)
    {events : List (Moment × Input)} (hwaits : ∀ part, part <+: events → w ∈ (h.run part).1.booth.waiting) :
    (h.run events).1.booth.Before w u := by
  induction events generalizing h with
  | nil => exact hbefore
  | cons e rest ih =>
    have hfirst := hwaits [e] ⟨rest, rfl⟩
    rw [run_singleton] at hfirst
    rw [run_cons]
    apply ih (react_orderly horderly e.1 e.2) (react_before horderly e.1 e.2 hbefore hfirst)
    intro part hpart
    exact hwaits (e :: part) (List.cons_prefix_cons.mpr ⟨rfl, hpart⟩)

/-- A reaction lets somebody in who has asked for it, and for whom there is a slot beside one for everybody
ahead of it; those keep waiting, and keep their slots. -/
theorem react_admits_in_turn (hmem : u ∈ Action.admissions (h.react m i).2) :
    (∃ rssi snr, i = .message u .registerRequest rssi snr) ∧
      h.booth.active.length + h.booth.ahead u < h.booth.capacity ∧
      ∀ w, h.booth.Before w u → (h.react m i).1.booth.HasSlot w := by
  obtain ⟨⟨rssi, snr, rfl⟩, hguest⟩ := react_admits hmem
  change u ∈ Action.admissions (h.onMessage m.now u .registerRequest).2 at hmem
  rw [onMessage_admissions, if_neg (by simp [hguest])] at hmem
  obtain ⟨left, hleft⟩ := Booth.mem_answer_admitted.mp hmem
  obtain ⟨hslot, -⟩ := Booth.welcome_of_admitted hleft
  refine ⟨⟨rssi, snr, rfl⟩, hslot, fun w hbefore => ?_⟩
  have hne : w ≠ u := by
    rintro rfl
    exact Nat.lt_irrefl _ hbefore
  have hkept : (h.booth.register u m.now).2.HasSlot w := (hbefore.hasSlot hslot).register hne
  rw [react_register_booth, if_neg (by simp [hguest])]
  split
  · exact hkept.offerNext m.now
  · exact hkept

/-- Users are let in from the queue in the order in which they have come, unless there are slots to spare. Let
one user wait ahead of another one, who may have come later or not yet, and keep waiting: then it stays ahead,
and the other one is let in meanwhile only on its own request, while more slots are free than there are waiters
ahead of it. Then the first user is among those, and keeps waiting with a slot for it. A waiter who asks under
this condition is let in, as long as a line is left on the list of those admitted. -/
theorem run_admits_in_turn (id : NodeId) (r : Rules) {events later : List (Moment × Input)} {first second : NodeId}
    (hbefore : ((ofRules id r).run events).1.booth.Before first second)
    (hwaits : ∀ part, part <+: later → first ∈ ((ofRules id r).run (events ++ part)).1.booth.waiting)
    (m : Moment) :
    let h := ((ofRules id r).run (events ++ later)).1
    h.booth.Before first second ∧
      (∀ i, second ∈ Action.admissions (h.react m i).2 →
        (∃ rssi snr, i = .message second .registerRequest rssi snr) ∧
        0 < h.booth.ahead second ∧ h.booth.active.length + h.booth.ahead second < h.booth.capacity ∧
        first ∈ (h.react m i).1.booth.waiting ∧ (h.react m i).1.booth.HasSlot first) ∧
      (second ∈ h.booth.waiting → ∀ rssi snr,
        (second ∈ Action.admissions (h.react m (.message second .registerRequest rssi snr)).2 ↔
          h.booth.active.length + h.booth.ahead second < h.booth.capacity ∧
            h.booth.registered.length < h.booth.maxUsers)) := by
  intro h
  have horderly : h.booth.Orderly := run_orderly (Booth.orderly_ofRules id r) _
  have hstays : h.booth.Before first second := by
    have hrun := run_keeps_before (run_orderly (Booth.orderly_ofRules id r) events) hbefore
      fun part hpart => by
        have hpresent := hwaits part hpart
        rwa [run_append] at hpresent
    simpa only [h, run_append] using hrun
  refine ⟨hstays, fun i hmem => ?_, fun hwait rssi snr => ?_⟩
  · obtain ⟨hown, hslot, hkept⟩ := react_admits_in_turn hmem
    refine ⟨hown, ?_, hslot, ((Booth.hasSlot_iff _ _).mp (hkept first hstays)).1, hkept first hstays⟩
    rw [Booth.ahead_eq]
    exact Nat.zero_lt_of_lt hstays
  · have hguest : h.rules.isHost second = false := by
      have hrules : h.rules = r := run_rules (ofRules id r) _
      exact hrules ▸ run_guests id r _ second hwait
    have hslot : h.booth.HasSlot second ↔ h.booth.active.length + h.booth.ahead second < h.booth.capacity := by
      rw [Booth.hasSlot_iff, and_iff_right hwait, Booth.ahead_eq]
    change second ∈ Action.admissions (h.onMessage m.now second .registerRequest).2 ↔ _
    rw [onMessage_admissions, if_neg (by simp [hguest]), Booth.mem_answer_admitted, horderly.admits_waiter hwait,
      hslot]

/-- Both of those inside leave, so that two slots are free. -/
def bothLeave : List (Moment × Input) :=
  [(⟨⟨30⟩, 2⟩, .message ⟨4⟩ .exitRequest 0 0), (⟨⟨30⟩, 2⟩, .message ⟨5⟩ .exitRequest 0 0)]

/-- With two slots free the second of two waiters is let in while the first one holds the offer, and a slot is
left for the first one. -/
theorem run_admits_in_turn_fourVisitors :
    let h := ((ofRules ⟨1⟩ .brisk).run (fourVisitors ++ bothLeave)).1
    let next := h.react ⟨⟨40⟩, 3⟩ (.message ⟨7⟩ .registerRequest 0 0)
    Action.admissions next.2 = [⟨7⟩] ∧ h.booth.Before ⟨6⟩ ⟨7⟩ ∧
      h.booth.active.length + h.booth.ahead ⟨7⟩ < h.booth.capacity ∧ next.1.booth.HasSlot ⟨6⟩ := by
  intro h next
  have hadmitted : Action.admissions next.2 = [⟨7⟩] := by decide
  have hwaits : ∀ part ∈ bothLeave.inits,
      ⟨6⟩ ∈ ((ofRules ⟨1⟩ .brisk).run (fourVisitors ++ part)).1.booth.waiting := by decide
  have hbefore : ((ofRules ⟨1⟩ .brisk).run fourVisitors).1.booth.Before ⟨6⟩ ⟨7⟩ := by
    change _ < _
    decide
  obtain ⟨hstays, hadmits, -⟩ := run_admits_in_turn ⟨1⟩ .brisk hbefore
    (fun part hpart => hwaits part ((List.mem_inits part bothLeave).mpr hpart)) ⟨⟨40⟩, 3⟩
  obtain ⟨-, -, hslot, -, hkept⟩ := hadmits (.message ⟨7⟩ .registerRequest 0 0) (hadmitted ▸ List.mem_singleton_self _)
  exact ⟨hadmitted, hstays, hslot, hkept⟩

/-- Admission is not strictly in the order of arrival: of two waiters with the offer made out to the first one,
the second one asks and is let in while the first one goes on waiting. -/
theorem second_waiter_admitted_fourVisitors :
    let h := ((ofRules ⟨1⟩ .brisk).run (fourVisitors ++ bothLeave)).1
    let next := h.react ⟨⟨40⟩, 3⟩ (.message ⟨7⟩ .registerRequest 0 0)
    Rules.brisk.Valid ∧ h.booth.waiting = [⟨6⟩, ⟨7⟩] ∧ h.booth.offer = some ⟨⟨6⟩, ⟨30⟩⟩ ∧
      Action.admissions next.2 = [⟨7⟩] ∧ next.1.booth.activeUsers = [⟨7⟩] ∧ next.1.booth.waiting = [⟨6⟩] := by
  decide

end Host

end BoothFloor
