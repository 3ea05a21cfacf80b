import BoothFloor.Proofs.Host.Admissions
import BoothFloor.Proofs.Host.Replies

/-!
# A host that is told something twice

A host remembers no requests. What keeps a request from being carried out twice is what the first one leaves
behind: who was let in is inside, who was queued has its place, who has left is gone, and a slot that became free
has been offered already. The clock is read for those who are let in or offered a slot only, so the repetition may
come at any time.
-/

namespace BoothFloor

namespace Booth

variable {b : Booth} {u : NodeId} {now : Instant}

/-- The messages to the user who has asked that a verdict calls for. -/
def answerTo (u : NodeId) : Verdict → List (NodeId × Message)
  | .admitted _ | .alreadyActive => [(u, .registerResponse true .success)]
  | .alreadyUsed => [(u, .registerResponse false .alreadyUsed)]
  | .queued position total =>
    [(u, .registerResponse false .fullWaiting), (u, .queueInfo (clampByte position) (clampByte total))]
  | .rejected _ => []

/-- Of the messages that a request leads to, those to the user who has asked are called for by the verdict. -/
theorem Orderly.own_answerLetters (h : b.Orderly) (u : NodeId) (now : Instant) :
    (answerLetters u now (b.register u now)).filter (·.1 = u) = answerTo u (b.register u now).1 := by
  have hjudged := register_judged b u now
  generalize b.register u now = outcome at hjudged
  cases hjudged with
  | confirmed | refused | stays | joins | turnedAway | unlisted => simp [answerLetters, answerTo]
  | enters =>
    cases b.isWaiting u with
    | false => simp [answerLetters, answerTo]
    | true =>
      -- the others are told of the place that has become free
      have hgone : u ∉ (b.welcome u now).waiting := h.waiting_nodup.not_mem_erase
      have hrest :
          ((b.welcome u now).queueUpdates ++ (b.welcome u now).offerLetters now).filter (·.1 = u) = [] := by
        rw [List.filter_eq_nil_iff]
        rintro ⟨v, msg⟩ hmem hv
        obtain rfl : v = u := by simpa using hv
        rcases List.mem_append.mp hmem with hnews | hoffer
        · exact hgone (mem_queueUpdates hnews).1
        · exact hgone (mem_offerLetters hoffer).1
      simp only [answerLetters, answerTo]
      rw [List.filter_cons_of_pos (by simp), hrest]

/-- A waiter for whom there is no slot keeps its place. -/
theorem register_of_waiting (hout : u ∉ b.activeUsers) (hnew : b.isRegistered u = false) (hwait : u ∈ b.waiting)
    (hfull : b.capacity ≤ b.active.length + b.waiting.idxOf u) (now : Instant) :
    b.register u now = (.queued (b.waiting.idxOf u + 1) b.waiting.length, b) := by
  have hjudged := register_judged b u now
  generalize b.register u now = outcome at hjudged
  rw [← ahead_eq] at hfull
  cases hjudged with
  | confirmed hin => exact absurd hin hout
  | refused _ hold => exact absurd hold (Bool.eq_false_iff.mp hnew)
  | stays => rfl
  | joins _ _ habsent | turnedAway _ _ habsent => exact absurd hwait habsent
  | unlisted _ _ hslot | enters _ _ hslot => omega

/-- A request that is refused as such is refused at any time and with any offer. -/
theorem Agrees.register_refused_again {e : RegistryError} (hagrees : b.Agrees)
    (h : (b.register u now).1 = .rejected e) (later : Instant) (o : Option Offer) :
    ({ b with offer := o } : Booth).register u later = (.rejected e, { b with offer := o }) := by
  have hrejected : (({ b with offer := o } : Booth).register u later).1 = .rejected e :=
    (register_rejected_iff (b := { b with offer := o }) hagrees u later e).mpr
      ((register_rejected_iff hagrees u now e).mp h)
  exact Prod.ext hrejected (register_of_rejected hrejected)

/-- A request that is made again on the register that the first one has left, with whatever offer there is by then,
changes nothing and leads to the same answer. -/
theorem Orderly.register_again (h : b.Orderly) (u : NodeId) (now later : Instant) (o : Option Offer) :
    let judged := b.register u now
    let left : Booth := { judged.2 with offer := o }
    ∃ verdict, left.register u later = (verdict, left) ∧ verdict ≠ .admitted true ∧
      answerTo u verdict = answerTo u judged.1 := by
  have hjudged := register_judged b u now
  have hrefused (e : RegistryError) (he : (b.register u now).1 = .rejected e) :=
    h.agrees.register_refused_again he later o
  generalize b.register u now = outcome at hjudged hrefused
  intro judged left
  have hinside (hin : u ∈ left.activeUsers) (hold : left.isRegistered u = true) :
      left.register u later = (.alreadyActive, left) := by
    rw [register_of_registered hold, if_pos hin]
  cases hjudged with
  | confirmed hin => exact ⟨_, hinside hin ((h.agrees u).mpr (h.active_registered u hin)), by simp, rfl⟩
  | refused hout hold =>
    have hrefusal : left.register u later = (.alreadyUsed, left) := by
      rw [register_of_registered (by exact hold), if_neg (by exact hout)]
    exact ⟨_, hrefusal, by simp, rfl⟩
  | stays hout hnew hwait hfull =>
    rw [ahead_eq] at hfull
    exact ⟨_, register_of_waiting (b := left) hout hnew hwait hfull later, by simp, rfl⟩
  | joins hout hnew hwait hfull =>
    have hplace : (b.waiting ++ [u]).idxOf u = b.waiting.length := by simp [List.idxOf_append_of_notMem hwait]
    refine ⟨_, register_of_waiting (b := left) hout hnew (by simp [left, judged]) ?_ later, by simp, ?_⟩
    · exact hplace ▸ hfull
    · simp [left, judged, hplace]
  | turnedAway => exact ⟨_, hrefused _ rfl, by simp, rfl⟩
  | unlisted => exact ⟨_, hrefused _ rfl, by simp, rfl⟩
  | enters =>
    have hlisted : (b.welcome u now).isRegistered u = true := by
      rw [isRegistered_welcome, beq_self_eq_true, Bool.true_or]
    exact ⟨_, hinside (b.mem_activeUsers_welcome u now) hlisted, by simp, rfl⟩

/-- One who neither waits nor holds an offer leaves the queue as it is. -/
theorem leaveQueue_of_not_mem (hout : u ∉ b.waiting) (hoffer : b.isOffered u = false) :
    b.leaveQueue u = (⟨false, false⟩, b) := by
  have hwaiting : b.isWaiting u = false := by
    rw [Bool.eq_false_iff, ne_eq, isWaiting_iff]
    exact hout
  rw [leaveQueue, hwaiting, hoffer, removeWaiting, List.erase_of_not_mem hout, releaseOffer,
    if_neg (by simp [hoffer])]

end Booth

namespace Host

variable {h : Host}

/-- A request to register that is made again changes nothing, and its user is told the same again. -/
theorem react_register_twice (horderly : h.booth.Orderly) {u : NodeId} (hguest : h.rules.isHost u = false)
    (m later : Moment) (rssi : Int16) (snr : Int8) :
    let once := h.react m (.message u .registerRequest rssi snr)
    let twice := once.1.react later (.message u .registerRequest rssi snr)
    twice.1 = once.1 ∧
      (Action.sent twice.2).filter (·.1 = u) = (Action.sent once.2).filter (·.1 = u) := by
  intro once twice
  have horderly' : once.1.booth.Orderly := react_orderly horderly m _
  have hguest' : once.1.rules.isHost u = false := by rw [h.react_rules]; exact hguest
  have honce : once = h.onRegister m.now u := react_register_guest hguest m rssi snr
  have htwice : twice = once.1.onRegister later.now u := react_register_guest hguest' later rssi snr
  have hleft : once.1.booth = { (h.booth.register u m.now).2 with offer := once.1.booth.offer } := by
    rw [honce, onRegister_fst]
    dsimp only
    split
    · exact Booth.offerNext_snd _ m.now
    · rfl
  obtain ⟨verdict, hagain, hverdict, hanswer⟩ := horderly.register_again u m.now later.now once.1.booth.offer
  rw [← hleft] at hagain
  constructor
  · rw [htwice, onRegister_fst, hagain, if_neg hverdict]
  · have hfirst : (Action.sent once.2).filter (·.1 = u) = Booth.answerTo u (h.booth.register u m.now).1 := by
      rw [honce, onRegister_sent, horderly.own_answerLetters]
    rw [htwice, onRegister_sent, horderly'.own_answerLetters, hagain, hfirst]
    exact hanswer

/-- A request to exit that is made again changes nothing. -/
theorem onExit_again (horderly : h.booth.Orderly) (u : NodeId) (now later : Instant) :
    ((h.onExit now u).1.onExit later u).1 = (h.onExit now u).1 := by
  have hgone : u ∉ (h.onExit now u).1.booth.activeUsers := by
    rw [onExit_fst]
    dsimp only
    split
    · rw [Booth.activeUsers, Booth.offerNext_active, ← Booth.activeUsers, horderly.removeActive_activeUsers]
      simp
    · next hnone => exact mt (h.booth.isSome_removeActive u).mpr hnone
  rw [onExit_fst _ later, if_neg (mt (Booth.isSome_removeActive _ u).mp hgone)]

/-- One who has left the queue of an orderly booth is gone from it. -/
theorem not_mem_onQueueLeave (horderly : h.booth.Orderly) (u : NodeId) (now : Instant) :
    u ∉ (h.onQueueLeave now u).1.booth.waiting := by
  have hleft : u ∉ (h.booth.leaveQueue u).2.waiting := by
    rw [Booth.leaveQueue_waiting]
    exact horderly.waiting_nodup.not_mem_erase
  rw [onQueueLeave_fst]
  dsimp only
  split
  · rwa [Booth.offerNext_waiting]
  · exact hleft

/-- Leaving the queue changes nothing for one who is not in it. -/
theorem onQueueLeave_of_not_mem (horderly : h.booth.Orderly) {u : NodeId} (hout : u ∉ h.booth.waiting)
    (now : Instant) : (h.onQueueLeave now u).1 = h := by
  rw [onQueueLeave_fst, Booth.leaveQueue_of_not_mem hout (horderly.isOffered_of_not_mem hout)]
  rfl

/-- A message that is handled again leaves the host as it was, and an answer to a request to register is given
again. -/
theorem react_again (horderly : h.booth.Orderly) (m later : Moment) (source : NodeId) (msg : Message)
    (rssi : Int16) (snr : Int8) :
    let once := h.react m (.message source msg rssi snr)
    let twice := once.1.react later (.message source msg rssi snr)
    twice.1 = once.1 ∧ (msg = .registerRequest →
      (Action.sent twice.2).filter (·.1 = source) = (Action.sent once.2).filter (·.1 = source)) := by
  intro once twice
  cases hhost : h.rules.isHost source with
  | true =>
    -- another host's message is ignored, however often it comes
    have hignored (m : Moment) : h.react m (.message source msg rssi snr) = (h, []) := by
      simp only [react, onMessage, hhost, if_true]
    simp only [twice, once, hignored, implies_true, and_self]
  | false =>
    have horderly' : once.1.booth.Orderly := react_orderly horderly m _
    have hguest : once.1.rules.isHost source = false := by rw [h.react_rules]; exact hhost
    have hfst : once.1 = _ := h.onMessage_fst m.now source msg
    have hfst' : twice.1 = _ := once.1.onMessage_fst later.now source msg
    rw [if_neg (by simp [hhost])] at hfst
    rw [if_neg (by simp [hguest])] at hfst'
    cases msg with
    | registerRequest =>
      exact (react_register_twice horderly hhost m later rssi snr).imp_right fun hanswer _ => hanswer
    | exitRequest =>
      rw [hfst', hfst]
      exact ⟨onExit_again horderly source m.now later.now, by simp⟩
    | queueLeave =>
      have hgone : source ∉ once.1.booth.waiting := hfst ▸ not_mem_onQueueLeave horderly source m.now
      exact ⟨hfst'.trans (onQueueLeave_of_not_mem horderly' hgone later.now), by simp⟩
    | _ => exact ⟨hfst', by simp⟩

end Host

end BoothFloor
