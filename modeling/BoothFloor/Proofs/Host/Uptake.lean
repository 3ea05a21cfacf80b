import BoothFloor.Proofs.Host.Queue

/-!
# Taking up an offer

The holder of an offer stands at the head of the queue beside a free slot, so its request to register
does not fail for want of a slot. What can still fail it is the list of those admitted, which only
grows and is as long as the rules allow at some time: then the request is dropped without an answer.
-/

namespace BoothFloor

namespace Booth

/-- The holder of an offer that asks for its slot is let in, unless the list of those admitted is
full. -/
theorem Orderly.register_offered {b : Booth} (h : b.Orderly) (hbacked : b.Backed) {o : Offer}
    (ho : b.offer = some o) (now : Instant) :
    b.register o.user now =
      if b.registered.length < b.maxUsers then (.admitted true, b.welcome o.user now)
      else (.rejected (.registeredListFull b.maxUsers), b) := by
  have hwait : o.user ∈ b.waiting := h.offer_mem ho
  have hfree : b.active.length < b.capacity := hbacked (by rw [ho]; rfl)
  have hahead : b.ahead o.user = 0 := by
    obtain ⟨rest, hrest⟩ := List.head?_eq_some_iff.mp (h.offer_head o ho)
    rw [ahead_eq, hrest, List.idxOf_cons_self]
  have hjudged := register_judged b o.user now
  generalize b.register o.user now = outcome at hjudged
  cases hjudged with
  | confirmed hin => exact absurd hin (h.not_active_of_waiting hwait)
  | refused _ hold => exact absurd ((h.agrees _).mp hold) (h.waiting_new _ hwait)
  | stays _ _ _ hfull => omega
  | joins _ _ hout => exact absurd hwait hout
  | turnedAway _ _ hout => exact absurd hwait hout
  | unlisted _ _ _ hline => rw [if_neg (Nat.not_lt_of_le hline)]
  | enters _ _ _ hline => rw [if_pos hline, (isWaiting_iff b o.user).mpr hwait]

end Booth

namespace Host

/-- An offer of a run is honoured as long as the list of those admitted has a line left: its holder is
let in, leaves the queue and is told so. On a full list the request is dropped and nothing changes. -/
theorem run_offer_honoured (id : NodeId) (r : Rules) (events : List (Moment × Input)) :
    let h := ((ofRules id r).run events).1
    ∀ o, h.booth.offer = some o → ∀ m rssi snr,
      let verdict := (h.booth.register o.user m.now).1
      let reaction := h.react m (.message o.user .registerRequest rssi snr)
      (h.booth.registered.length < r.maxUsers.toNat →
        verdict = .admitted true ∧ o.user ∈ reaction.1.booth.activeUsers ∧
          o.user ∉ reaction.1.booth.waiting ∧
          (o.user, .registerResponse true .success) ∈ Action.sent reaction.2) ∧
      (r.maxUsers.toNat ≤ h.booth.registered.length →
        verdict = .rejected (.registeredListFull r.maxUsers.toNat) ∧ reaction = (h, [])) := by
  intro h o ho m rssi snr
  have horderly : h.booth.Orderly := run_orderly (Booth.orderly_ofRules id r) events
  have hprompt : h.booth.Prompt :=
    run_prompt (Booth.orderly_ofRules id r) (Booth.prompt_ofRules id r) events
  have hmax : h.booth.maxUsers = r.maxUsers.toNat := (run_sameFixtures (ofRules id r) events).maxUsers
  have hrules : h.rules = r := run_rules (ofRules id r) events
  have hguest : h.rules.isHost o.user = false := by
    rw [hrules]
    exact run_guests id r events o.user (horderly.offer_mem ho)
  have hverdict := horderly.register_offered hprompt.backed ho m.now
  rw [hmax] at hverdict
  simp only [react_register_guest hguest]
  constructor
  · intro hline
    rw [if_pos hline] at hverdict
    have hbooth : (h.onRegister m.now o.user).1.booth =
        ((h.booth.welcome o.user m.now).offerNext m.now).2 := by
      rw [onRegister_fst, hverdict]
      rfl
    refine ⟨by rw [hverdict], ?_, ?_, ?_⟩
    · rw [hbooth, Booth.activeUsers, Booth.offerNext_active, Booth.welcome, List.map_append]
      exact List.mem_append_right _ List.mem_cons_self
    · rw [hbooth, Booth.offerNext_waiting]
      exact horderly.waiting_nodup.not_mem_erase
    · rw [onRegister_sent, hverdict]
      exact List.mem_cons_self
  · intro hfull
    rw [if_neg (Nat.not_lt_of_le hfull)] at hverdict
    exact ⟨by rw [hverdict], by rw [onRegister, hverdict]⟩

/-- The third visitor takes up the offer that it was made in `threeVisitors`. -/
theorem run_offer_honoured_threeVisitors :
    let h := ((ofRules ⟨1⟩ .brisk).run threeVisitors).1
    let reaction := h.react ⟨⟨40⟩, 3⟩ (.message ⟨6⟩ .registerRequest 0 0)
    h.booth.offer = some ⟨⟨6⟩, ⟨30⟩⟩ ∧ h.booth.registered.length < Rules.brisk.maxUsers.toNat ∧
      ⟨6⟩ ∈ reaction.1.booth.activeUsers ∧ ⟨6⟩ ∉ reaction.1.booth.waiting ∧
      (⟨6⟩, .registerResponse true .success) ∈ Action.sent reaction.2 := by
  intro h reaction
  have hoffer : h.booth.offer = some ⟨⟨6⟩, ⟨30⟩⟩ := by decide
  have hline : h.booth.registered.length < Rules.brisk.maxUsers.toNat := by decide
  exact ⟨hoffer, hline,
    ((run_offer_honoured ⟨1⟩ .brisk threeVisitors _ hoffer ⟨⟨40⟩, 3⟩ 0 0).1 hline).2⟩

/-- A booth that one visitor may ever enter. -/
def oneAdmission : Rules := { Rules.brisk with boothCapacity := 1, maxUsers := 1 }

/-- The first visitor enters and leaves while the second one waits. -/
def succession : List (Moment × Input) :=
  [(⟨⟨10⟩, 1⟩, .message ⟨4⟩ .registerRequest 0 0), (⟨⟨20⟩, 2⟩, .message ⟨5⟩ .registerRequest 0 0),
    (⟨⟨30⟩, 3⟩, .message ⟨4⟩ .exitRequest 0 0)]

/-- On a full list of those admitted the holder of an offer asks for its slot in vain. -/
theorem offer_not_honoured_oneAdmission :
    let h := ((ofRules ⟨1⟩ oneAdmission).run succession).1
    let reaction := h.react ⟨⟨40⟩, 4⟩ (.message ⟨5⟩ .registerRequest 0 0)
    oneAdmission.Valid ∧ h.booth.offer = some ⟨⟨5⟩, ⟨30⟩⟩ ∧
      (h.booth.register ⟨5⟩ ⟨40⟩).1 = .rejected (.registeredListFull 1) ∧
      ⟨5⟩ ∉ reaction.1.booth.activeUsers ∧ ⟨5⟩ ∈ reaction.1.booth.waiting ∧
      Action.sent reaction.2 = [] := by decide

end Host

end BoothFloor
