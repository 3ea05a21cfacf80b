import BoothFloor.Proofs.Booth.Refusal
import BoothFloor.Proofs.Host.Queue

/-!
# The answer to a request tells the truth

A host answers a request to register from the verdict alone, while the register is changed elsewhere and a free
slot may be offered to somebody else on the way. Still the answer says where the user stands afterwards: inside,
inside at some earlier time, or at the place of the queue that the next message names. Silence says that nothing
has happened.
-/

namespace BoothFloor

/-- The answers to requests to register that some messages give a user. -/
def replies (u : NodeId) (letters : List (NodeId × Message)) : List (Bool × RegisterReason) :=
  letters.filterMap fun
    | (dest, .registerResponse success reason) => if dest = u then some (success, reason) else none
    | _ => none

/-- The answers to a user are the answers among the messages to it. -/
theorem mem_replies {u : NodeId} {letters : List (NodeId × Message)} {success : Bool} {reason : RegisterReason} :
    (success, reason) ∈ replies u letters ↔ (u, .registerResponse success reason) ∈ letters := by
  rw [replies, List.mem_filterMap]
  constructor
  · rintro ⟨⟨dest, msg⟩, hmem, heq⟩
    cases msg <;> simp at heq
    obtain ⟨rfl, rfl, rfl⟩ := heq
    exact hmem
  · exact fun hmem => ⟨_, hmem, if_pos rfl⟩

namespace Verdict

variable {verdict : Verdict}

/-- An answer tells of success exactly if success is the reason that it gives. -/
theorem success_iff_of_reply? {success : Bool} {reason : RegisterReason}
    (h : verdict.reply? = some (success, reason)) : success = true ↔ reason = .success := by
  cases verdict <;> cases h <;> decide

/-- Only an error calls for no answer. -/
theorem reply?_eq_none_iff : verdict.reply? = none ↔ ∃ e, verdict = .rejected e := by
  cases verdict <;> simp [reply?]

/-- The answer that the queue is full calls for is that there is a place in the queue. -/
theorem reply?_eq_fullWaiting_iff :
    verdict.reply? = some (false, .fullWaiting) ↔ ∃ position total, verdict = .queued position total := by
  cases verdict <;> simp [reply?]

end Verdict

namespace Booth

/-- The messages that a request leads to answer it once, if its verdict calls for an answer. -/
theorem replies_answerLetters (u : NodeId) (now : Instant) (judged : Verdict × Booth) :
    replies u (answerLetters u now judged) = judged.1.reply?.toList := by
  obtain ⟨verdict, b⟩ := judged
  rcases verdict with (_ | _) | _ | _ | _ | _
  case admitted.true =>
    -- the news and the offer that follow go to waiters and answer nothing
    have hrest : replies u (b.queueUpdates ++ b.offerLetters now) = [] := by
      refine List.eq_nil_iff_forall_not_mem.mpr fun ⟨success, reason⟩ hmem => ?_
      rcases List.mem_append.mp (mem_replies.mp hmem) with hnews | hoffer
      · exact b.not_answer_queueUpdates u success reason hnews
      · exact b.not_answer_offerLetters now u success reason hoffer
    have hfirst : replies u (answerLetters u now (.admitted true, b)) =
        (true, .success) :: replies u (b.queueUpdates ++ b.offerLetters now) := by
      simp [answerLetters, replies]
    rw [hfirst, hrest]
    rfl
  all_goals simp [answerLetters, Verdict.reply?, replies]

variable (b : Booth) (u : NodeId) (now : Instant)

/-- The verdict on a request calls for a confirmation exactly if the user is inside afterwards. -/
theorem register_confirms_iff :
    (b.register u now).1.reply? = some (true, .success) ↔ u ∈ (b.register u now).2.activeUsers := by
  have hjudged := register_judged b u now
  generalize b.register u now = outcome at hjudged
  cases hjudged with
  | confirmed hin => simp [Verdict.reply?, hin]
  | enters => simp [Verdict.reply?, mem_activeUsers_welcome]
  | refused hout | stays hout | turnedAway hout | unlisted hout => simp [Verdict.reply?, hout]
  | joins hout => simpa [Verdict.reply?, activeUsers] using hout

/-- The verdict on a request calls for a refusal exactly if the user was inside before and is not now. -/
theorem register_refuses_iff (hagrees : b.Agrees) :
    (b.register u now).1.reply? = some (false, .alreadyUsed) ↔
      u ∈ (b.register u now).2.registered ∧ u ∉ (b.register u now).2.activeUsers := by
  have hjudged := register_judged b u now
  generalize b.register u now = outcome at hjudged
  cases hjudged with
  | confirmed hin => simp [Verdict.reply?, hin]
  | enters => simp [Verdict.reply?, mem_activeUsers_welcome]
  | refused hout hold => simp [Verdict.reply?, hout, (hagrees u).mp hold]
  | stays _ hnew | joins _ hnew | turnedAway _ hnew | unlisted _ hnew =>
    simp [Verdict.reply?, hagrees.not_mem hnew]

variable {b u now}

/-- The place to which a request leads is the one where the user stands afterwards. -/
theorem register_place {position total : Nat} (h : (b.register u now).1 = .queued position total) :
    u ∈ (b.register u now).2.waiting ∧ position = (b.register u now).2.waiting.idxOf u + 1 ∧
      total = (b.register u now).2.waiting.length := by
  have hjudged := register_judged b u now
  generalize b.register u now = outcome at hjudged h
  cases hjudged with
  | stays _ _ hwait =>
    cases h
    exact ⟨hwait, rfl, rfl⟩
  | joins _ _ hwait =>
    cases h
    exact ⟨by simp, by simp [List.idxOf_append_of_notMem hwait], by simp⟩
  | confirmed | refused | turnedAway | unlisted | enters => cases h

/-- A place in the queue of an orderly booth is within the limit of the queue. -/
theorem Orderly.queued_bounds (h : b.Orderly) {position total : Nat}
    (hqueued : (b.register u now).1 = .queued position total) :
    0 < position ∧ position ≤ total ∧ total ≤ b.maxUsers := by
  obtain ⟨hwait, rfl, rfl⟩ := register_place hqueued
  have hlimit := (h.register u now).waiting_le
  rw [(b.register_sameFixtures u now).maxUsers] at hlimit
  exact ⟨Nat.succ_pos _, List.idxOf_lt_length_iff.mpr hwait, hlimit⟩

end Booth

namespace Host

variable {h : Host} {u : NodeId}

/-- The messages that a guest's request leads to answer it once, if its verdict calls for an answer. -/
theorem react_replies (hguest : h.rules.isHost u = false) (m : Moment) (rssi : Int16) (snr : Int8) :
    replies u (Action.sent (h.react m (.message u .registerRequest rssi snr)).2) =
      (h.booth.register u m.now).1.reply?.toList := by
  rw [react_register_guest hguest, onRegister_sent, Booth.replies_answerLetters]

/-- A visitor that has to wait is told so, and then what its place is. -/
theorem queued_sent (hguest : h.rules.isHost u = false) {m : Moment} {position total : Nat}
    (hqueued : (h.booth.register u m.now).1 = .queued position total) (rssi : Int16) (snr : Int8) :
    Action.sent (h.react m (.message u .registerRequest rssi snr)).2 =
      [(u, .registerResponse false .fullWaiting), (u, .queueInfo (clampByte position) (clampByte total))] := by
  rw [react_register_guest hguest, onRegister_sent, Booth.answerLetters, hqueued]

/-- A request that is refused as such leaves the host as it was, and nobody is told anything. -/
theorem react_rejected (hguest : h.rules.isHost u = false) {m : Moment} {e : RegistryError}
    (hrejected : (h.booth.register u m.now).1 = .rejected e) (rssi : Int16) (snr : Int8) :
    h.react m (.message u .registerRequest rssi snr) = (h, []) := by
  have hsame : h.booth.register u m.now = (.rejected e, h.booth) :=
    Prod.ext hrejected (Booth.register_of_rejected hrejected)
  rw [react_register_guest hguest, onRegister, hsame]

/-- In every run an answer tells of success exactly if success is the reason that it gives. -/
theorem run_success_iff {events : List (Moment × Input)} {success : Bool} {reason : RegisterReason}
    (hsent : (u, .registerResponse success reason) ∈ Action.sent (h.run events).2) :
    success = true ↔ reason = .success := by
  induction events generalizing h with
  | nil => cases hsent
  | cons e rest ih =>
    rw [run_cons, Action.sent_append, List.mem_append] at hsent
    rcases hsent with hfirst | hrest
    · exact Verdict.success_iff_of_reply? (Booth.mem_answerLetters.mp (react_answers hfirst).2.2).2
    · exact ih hrest

/-- Who is inside, who was and who waits after a guest's request has been handled is what the judgement says;
the offer that may follow changes nothing of it. -/
theorem react_register_lists (hguest : h.rules.isHost u = false) (m : Moment) (rssi : Int16) (snr : Int8) :
    let b := (h.react m (.message u .registerRequest rssi snr)).1.booth
    let judged := (h.booth.register u m.now).2
    b.activeUsers = judged.activeUsers ∧ b.registered = judged.registered ∧ b.waiting = judged.waiting := by
  intro b judged
  have hbooth :
      b = if (h.booth.register u m.now).1 = .admitted true then (judged.offerNext m.now).2 else judged := by
    simp only [b, judged, react_register_booth, hguest, Bool.false_eq_true, if_false]
  rw [hbooth]
  split
  · rw [Booth.activeUsers, Booth.offerNext_active, Booth.offerNext_registered, Booth.offerNext_waiting]
    exact ⟨rfl, rfl, rfl⟩
  · exact ⟨rfl, rfl, rfl⟩

/-- Whatever a host has been given, it never says that a registration has succeeded with any other reason, or that
it has not with this one. A visitor that asks to be registered is answered once at most. It is told that it has
succeeded exactly if it is inside afterwards, and that it has had its turn exactly if it was inside before and is no
more. If it is told to wait, it stands in the queue at the very place that the next message names. It is left
without an answer exactly if the request is refused as such, and then nobody is told anything and the host is as it
was. -/
theorem run_replies_truly (id : NodeId) (r : Rules) (valid : r.Valid) (events : List (Moment × Input)) :
    let h := ((ofRules id r).run events).1
    (∀ u success reason, (u, .registerResponse success reason) ∈ Action.sent ((ofRules id r).run events).2 →
      (success = true ↔ reason = .success)) ∧
    ∀ u, r.isHost u = false → ∀ m rssi snr,
      let next := h.react m (.message u .registerRequest rssi snr)
      let letters := Action.sent next.2
      (replies u letters).length ≤ 1 ∧
      (replies u letters = [(true, .success)] ↔ u ∈ next.1.booth.activeUsers) ∧
      (replies u letters = [(false, .alreadyUsed)] ↔
        u ∈ next.1.booth.registered ∧ u ∉ next.1.booth.activeUsers) ∧
      (replies u letters = [(false, .fullWaiting)] → u ∈ next.1.booth.waiting ∧ ∃ position total,
        letters = [(u, .registerResponse false .fullWaiting), (u, .queueInfo position total)] ∧
          position.toNat = next.1.booth.waiting.idxOf u + 1 ∧ total.toNat = next.1.booth.waiting.length) ∧
      (replies u letters = [] ↔ ∃ e, (h.booth.register u m.now).1 = .rejected e) ∧
      (replies u letters = [] → next = (h, [])) := by
  intro h
  have horderly : h.booth.Orderly := run_orderly (Booth.orderly_ofRules id r) events
  have hmax : h.booth.maxUsers = r.maxUsers.toNat := (run_sameFixtures (ofRules id r) events).maxUsers
  have hrules : h.rules = r := run_rules (ofRules id r) events
  have hbyte := valid.bounds.maxUsers_le
  refine ⟨fun u success reason => run_success_iff, fun u hguest m rssi snr => ?_⟩
  rw [← hrules] at hguest
  intro next letters
  have hreplies : replies u letters = (h.booth.register u m.now).1.reply?.toList := react_replies hguest m rssi snr
  obtain ⟨hactive, hregistered, hwaiting⟩ :
      next.1.booth.activeUsers = _ ∧ next.1.booth.registered = _ ∧ next.1.booth.waiting = _ :=
    react_register_lists hguest m rssi snr
  rw [hreplies, hactive, hregistered, hwaiting]
  simp only [Option.toList_eq_singleton_iff, Option.toList_eq_nil_iff]
  refine ⟨Option.length_toList_le, h.booth.register_confirms_iff u m.now,
    h.booth.register_refuses_iff u m.now horderly.agrees, fun hwaits => ?_, Verdict.reply?_eq_none_iff,
    fun hsilent => ?_⟩
  · obtain ⟨position, total, hqueued⟩ := Verdict.reply?_eq_fullWaiting_iff.mp hwaits
    obtain ⟨-, hle, hlimit⟩ := horderly.queued_bounds hqueued
    obtain ⟨hwait, hposition, htotal⟩ := Booth.register_place hqueued
    refine ⟨hwait, clampByte position, clampByte total, queued_sent hguest hqueued rssi snr, ?_, ?_⟩
    · rw [clampByte_toNat (by omega), hposition]
    · rw [clampByte_toNat (by omega), htotal]
  · obtain ⟨e, hrejected⟩ := Verdict.reply?_eq_none_iff.mp hsilent
    exact react_rejected hguest hrejected rssi snr

/-- After `threeVisitors` a fourth one is told to wait behind the third one, who has been offered the free slot; the
one who has left is told that it has had its turn. -/
theorem run_replies_truly_threeVisitors :
    let h := ((ofRules ⟨1⟩ .brisk).run threeVisitors).1
    let next := h.react ⟨⟨40⟩, 3⟩ (.message ⟨7⟩ .registerRequest 0 0)
    Rules.brisk.Valid ∧ (∃ position total,
        Action.sent next.2 = [(⟨7⟩, .registerResponse false .fullWaiting), (⟨7⟩, .queueInfo position total)] ∧
          position.toNat = 2 ∧ total.toNat = 2) ∧
      ⟨5⟩ ∈ h.booth.registered ∧
      replies ⟨5⟩ (Action.sent (h.react ⟨⟨40⟩, 3⟩ (.message ⟨5⟩ .registerRequest 0 0)).2) =
        [(false, .alreadyUsed)] := by
  intro h next
  have hvalid : Rules.brisk.Valid := by decide
  obtain ⟨-, hanswer⟩ := run_replies_truly ⟨1⟩ .brisk hvalid threeVisitors
  obtain ⟨-, -, -, hwaits, -⟩ := hanswer ⟨7⟩ (by decide) ⟨⟨40⟩, 3⟩ 0 0
  obtain ⟨-, -, hlate, -⟩ := hanswer ⟨5⟩ (by decide) ⟨⟨40⟩, 3⟩ 0 0
  obtain ⟨-, position, total, hsent, hposition, htotal⟩ := hwaits (by decide)
  exact ⟨hvalid, ⟨position, total, hsent, hposition.trans (by decide), htotal.trans (by decide)⟩, by decide,
    hlate.mpr (by decide)⟩

end Host

end BoothFloor
