import BoothFloor.Proofs.Dealings
import BoothFloor.Proofs.Visitor.Errand

/-!
# How a visitor stands with a booth

To a booth a visitor is a stranger, asks it for admission, is in its queue, claims a slot that it offered or
is inside. Only the booth's dealings with the visitor move it on, but for a stranger that asks and for a
visitor that ends its session by itself; a turn follows what the visitor is told step by step.
-/

namespace BoothFloor

/-- How a visitor stands with a booth. -/
inductive Stance where
  | stranger
  | asking
  | queueing
  | claiming
  | inside
  deriving DecidableEq

namespace Stance

/-- Whether the visitor waits for the answer to a request. -/
def awaits : Stance → Bool
  | asking | claiming => true
  | _ => false

/-- Whether the visitor is in the booth's queue. -/
def waits : Stance → Bool
  | queueing | claiming => true
  | _ => false

/-- What a dealing of the booth makes of a visitor, and how the visitor replies. -/
def hear (s : Stance) : Message → Stance × List Message
  | .queueReady => if s.waits then (claiming, [.registerRequest]) else (s, [])
  | .timeoutAlert => (if s = inside then stranger else s, [])
  | .registerResponse true _ => (if s.awaits then inside else s, [])
  | .registerResponse false .fullWaiting => (if s.awaits then queueing else s, [])
  | .registerResponse false .alreadyUsed => (if s.awaits then stranger else s, [])
  | .queueInfo position total | .queueUpdate position total =>
    (if s.waits ∧ (position = 0 ∨ total = 0) then stranger else s, [])
  | _ => (s, [])

/-- The course of a visitor that hears some dealings of a booth in order, and what it says to the booth on the
way. A stranger may ask the booth for admission at any time. -/
inductive Course : Stance → List Message → Stance → List Message → Prop
  | done (s : Stance) : Course s [] s []
  | hears (s s' : Stance) (msg : Message) (told said : List Message) (h : Course (s.hear msg).1 told s' said) :
      Course s (msg :: told) s' ((s.hear msg).2 ++ said)
  | asks (s' : Stance) (told said : List Message) (h : Course asking told s' said) :
      Course stranger told s' (.registerRequest :: said)

/-- What a turn makes of a visitor: it takes its course, and if that ends inside the visitor may take leave. -/
inductive Turn (s : Stance) (told : List Message) : Stance → List Message → Prop
  | ends (s' : Stance) (said : List Message) (h : s.Course told s' said) : Turn s told s' said
  | exits (said : List Message) (h : s.Course told inside said) : Turn s told stranger (said ++ [.exitRequest])

variable {s mid s' : Stance} {told told' said said' : List Message}

/-- A stranger has nothing to do with what it hears. -/
theorem hear_stranger (msg : Message) : stranger.hear msg = (stranger, []) := by
  cases msg with
  | registerResponse success reason => cases success <;> cases reason <;> rfl
  | _ => simp [hear, waits]

end Stance

/-- How a visitor in a phase stands with the booth that it deals with. -/
def Phase.stance : Phase → Stance
  | connected _ .registration => .asking
  | waiting _ claiming _ => if claiming then .claiming else .queueing
  | inUse .. => .inside
  | _ => .stranger

namespace Visitor

/-- How a visitor stands with a booth. -/
def stance (b : NodeId) (v : Visitor) : Stance := if v.booth? = some b then v.phase.stance else .stranger

variable {v : Visitor} {m : Moment} {i : Input} {b : NodeId}

/-- A visitor is a stranger to every booth but its own. -/
theorem booth?_of_stance (h : v.stance b ≠ .stranger) : v.booth? = some b := by
  by_contra hother
  exact h (if_neg hother)

/-- A visitor in a phase with a booth stands with the booth as the phase says. -/
theorem stance_of_phase {p : Phase} (hphase : v.phase = p) (hbooth : p.booth? = some b) : v.stance b = p.stance := by
  subst hphase
  exact if_pos hbooth

/-- A visitor in a phase without a booth is a stranger to all. -/
theorem stance_of_booth?_eq_none (h : v.booth? = none) (b : NodeId) : v.stance b = .stranger := by
  rw [stance, h]
  exact if_neg nofun

/-- A visitor waits for the answer of the booth to which it registers, and of no other. -/
theorem registering?_eq_some_iff : v.registering? = some b ↔ (v.stance b).awaits = true := by
  unfold stance booth? registering?
  cases v.phase with
  | connected booth awaiting =>
    by_cases hbooth : booth = b <;> cases awaiting <;> simp [Phase.booth?, Phase.stance, hbooth] <;> rfl
  | waiting booth claiming place =>
    by_cases hbooth : booth = b <;> cases claiming <;> simp [Phase.booth?, Phase.stance, hbooth] <;> rfl
  | inUse booth start => by_cases hbooth : booth = b <;> simp [Phase.booth?, Phase.stance, Stance.awaits, hbooth]
  | scanning => simp [Phase.booth?, Stance.awaits]

/-- A visitor that drops its booth is a stranger to all. -/
@[simp]
theorem stance_freed (v : Visitor) (tick : Nat) (b : NodeId) : (v.freed tick).stance b = .stranger :=
  stance_of_booth?_eq_none rfl b

/-- What an outcome has to do with a booth is what the visitor's stance calls for. -/
def Heeds (b : NodeId) (outcome : Visitor × List Action) (reply : Stance × List Message) : Prop :=
  outcome.1.stance b = reply.1 ∧ dealings b (Action.sent outcome.2) = reply.2

/-- A visitor that moves on says nothing. -/
theorem moveTo_heeds (v : Visitor) (acts : List Action) (hsilent : Action.sent acts = []) {p : Phase}
    (hbooth : p.booth? = some b) : Heeds b (andThen (v, acts) (·.moveTo p)) (p.stance, []) := by
  refine ⟨stance_of_phase rfl hbooth, ?_⟩
  rw [andThen, Action.sent_append, hsilent, moveTo]
  split <;> rfl

/-- A visitor that drops its booth in silence is a stranger. -/
theorem backToScanning_heeds (v : Visitor) (tick : Nat) (acts : List Action) (hsilent : Action.sent acts = []) :
    Heeds b (andThen (v, acts) (backToScanning tick)) (.stranger, []) := by
  refine ⟨stance_of_booth?_eq_none rfl b, ?_⟩
  rw [andThen, Action.sent_append, hsilent, backToScanning, andThen, Action.sent_append, moveTo]
  split <;> rfl

/-- The answer to a registration is taken by a visitor that waits for it. -/
theorem onRegisterResponse_heeds (hbooth : v.booth? = some b) (m : Moment) (success : Bool) (reason : RegisterReason) :
    Heeds b (v.onRegisterResponse m success reason) ((v.stance b).hear (.registerResponse success reason)) := by
  unfold onRegisterResponse
  cases hregistering : v.registering? with
  | none =>
    have hawaits : (v.stance b).awaits = false := by
      rw [Bool.eq_false_iff, ne_eq, ← registering?_eq_some_iff, hregistering]
      exact nofun
    cases success <;> cases reason <;> simp [Heeds, Stance.hear, hawaits, Action.sent]
  | some booth =>
    obtain rfl : booth = b := Option.some.inj ((booth?_of_registering? hregistering).symm.trans hbooth)
    have hawaits := registering?_eq_some_iff.mp hregistering
    cases success with
    | true =>
      rw [Stance.hear, if_pos hawaits]
      exact moveTo_heeds _ _ rfl rfl
    | false =>
      cases reason with
      | success => exact ⟨rfl, rfl⟩
      | fullWaiting =>
        rw [Stance.hear, if_pos hawaits]
        exact moveTo_heeds _ _ rfl rfl
      | alreadyUsed =>
        rw [Stance.hear, if_pos hawaits]
        exact backToScanning_heeds _ _ _ rfl

/-- A visitor with a booth is in its queue exactly in the waiting phase. -/
theorem waits_stance (hbooth : v.booth? = some b) :
    (v.stance b).waits = true ↔ ∃ booth claiming place, v.phase = .waiting booth claiming place := by
  rw [stance, if_pos hbooth]
  cases hphase : v.phase with
  | waiting booth claiming place => cases claiming <;> simp [Phase.stance, Stance.waits]
  | connected booth awaiting => cases awaiting <;> simp [Phase.stance, Stance.waits]
  | _ => simp [Phase.stance, Stance.waits]

/-- A visitor with a booth is inside exactly in the phase of use. -/
theorem stance_eq_inside (hbooth : v.booth? = some b) :
    v.stance b = .inside ↔ ∃ booth start, v.phase = .inUse booth start := by
  rw [stance, if_pos hbooth]
  cases hphase : v.phase with
  | inUse booth start => simp [Phase.stance]
  | connected booth awaiting => cases awaiting <;> simp [Phase.stance]
  | waiting booth claiming place => cases claiming <;> simp [Phase.stance]
  | scanning => simp [Phase.stance]

/-- News of the place in the queue says whether there still is one. -/
theorem onQueuePosition_heeds (hbooth : v.booth? = some b) (tick : Nat) (position total : UInt8) :
    Heeds b (v.onQueuePosition tick position total) ((v.stance b).hear (.queueUpdate position total)) := by
  unfold onQueuePosition
  by_cases hwaits : (v.stance b).waits = true
  · obtain ⟨booth, claiming, place, hphase⟩ := (waits_stance hbooth).mp hwaits
    have hown : (Phase.waiting booth claiming place).booth? = some b := hphase ▸ hbooth
    rw [hphase]
    by_cases hzero : position = 0 ∨ total = 0
    · rw [Stance.hear, if_pos ⟨hwaits, hzero⟩]
      simp only [if_pos hzero]
      exact backToScanning_heeds _ _ _ rfl
    · rw [Stance.hear, if_neg fun hboth => hzero hboth.2, stance_of_phase hphase hown]
      simp only [if_neg hzero]
      exact ⟨stance_of_phase rfl hown, rfl⟩
  · rw [Stance.hear, if_neg fun hboth => hwaits hboth.1]
    split
    · next hphase => exact absurd ((waits_stance hbooth).mpr ⟨_, _, _, hphase⟩) hwaits
    · exact ⟨rfl, rfl⟩

/-- An offer is claimed by a visitor in the queue. -/
theorem onQueueReady_heeds (hbooth : v.booth? = some b) : Heeds b v.onQueueReady ((v.stance b).hear .queueReady) := by
  unfold onQueueReady
  by_cases hwaits : (v.stance b).waits = true
  · obtain ⟨booth, claiming, place, hphase⟩ := (waits_stance hbooth).mp hwaits
    obtain rfl : booth = b := Option.some.inj ((congrArg Phase.booth? hphase).symm.trans hbooth)
    rw [Stance.hear, if_pos hwaits, hphase]
    refine ⟨stance_of_phase rfl rfl, ?_⟩
    simp [dealings_cons, Message.isDealing]
  · rw [Stance.hear, if_neg hwaits]
    split
    · next hphase => exact absurd ((waits_stance hbooth).mpr ⟨_, _, _, hphase⟩) hwaits
    · exact ⟨rfl, rfl⟩

/-- An alert ends the session of a visitor inside. -/
theorem onTimeoutAlert_heeds (hbooth : v.booth? = some b) (tick : Nat) :
    Heeds b (v.onTimeoutAlert tick) ((v.stance b).hear .timeoutAlert) := by
  unfold onTimeoutAlert
  by_cases hinside : v.stance b = .inside
  · obtain ⟨booth, start, hphase⟩ := (stance_eq_inside hbooth).mp hinside
    rw [Stance.hear, if_pos hinside, hphase]
    exact backToScanning_heeds _ _ _ rfl
  · rw [Stance.hear, if_neg hinside]
    split
    · next hphase => exact absurd ((stance_eq_inside hbooth).mpr ⟨_, _, hphase⟩) hinside
    · exact ⟨rfl, rfl⟩

/-- A visitor does with a dealing of a booth what its stance calls for. -/
theorem react_heeds {msg : Message} (hdealing : msg.isDealing = true) (v : Visitor) (b : NodeId) (m : Moment)
    (rssi : Int16) (snr : Int8) : Heeds b (v.react m (.message b msg rssi snr)) ((v.stance b).hear msg) := by
  have hreact : v.react m (.message b msg rssi snr) =
      if v.booth? = some b then v.onBoothMessage m msg else (v, []) := by
    cases msg <;> first | rfl | cases hdealing
  rw [hreact]
  split
  · next hbooth =>
    cases msg with
    | registerResponse success reason => exact onRegisterResponse_heeds hbooth m success reason
    | queueInfo position total | queueUpdate position total => exact onQueuePosition_heeds hbooth m.tick position total
    | queueReady => exact onQueueReady_heeds hbooth
    | timeoutAlert => exact onTimeoutAlert_heeds hbooth m.tick
    | registerRequest | queueLeave | exitRequest => exact ⟨rfl, rfl⟩
    | _ => cases hdealing
  · next hbooth =>
    have hstranger : v.stance b = .stranger := if_neg hbooth
    rw [hstranger, Stance.hear_stranger]
    exact ⟨hstranger, rfl⟩

/-- A visitor in a phase without dealings is a stranger to all. -/
theorem stance_of_stranger (h : v.phase.stance = .stranger) (b : NodeId) : v.stance b = .stranger := by
  unfold stance
  split
  · exact h
  · rfl

/-- To a booth with which a visitor has nothing to do it is a stranger after any message. -/
theorem message_heeds_of_other (hbooth : v.booth? ≠ some b) (m : Moment) (source : NodeId) (msg : Message)
    (rssi : Int16) (snr : Int8) : Heeds b (v.react m (.message source msg rssi snr)) (.stranger, []) := by
  refine ⟨?_, dealings_eq_nil fun reply hreply => absurd (sent_of_message hreply).1 hbooth⟩
  rcases v.booth?_of_message m source msg rssi snr with hsame | hnone
  · exact if_neg (hsame ▸ hbooth)
  · exact stance_of_booth?_eq_none hnone b

/-- A message that is no dealing of a booth changes nothing between the booth and a visitor, but for a stranger
that asks for admission. -/
theorem message_heeds {source : NodeId} {msg : Message} {rssi : Int16} {snr : Int8}
    (hother : (Input.message source msg rssi snr).dealing? b = none) (v : Visitor) (m : Moment) :
    Heeds b (v.react m (.message source msg rssi snr)) (v.stance b, []) ∨
      v.stance b = .stranger ∧ Heeds b (v.react m (.message source msg rssi snr)) (.asking, [.registerRequest]) := by
  by_cases hbooth : v.booth? = some b
  swap
  · rw [stance, if_neg hbooth]
    exact .inl (message_heeds_of_other hbooth m source msg rssi snr)
  have hown {booth : NodeId} {p : Phase} (hphase : v.phase = p) (hp : p.booth? = some booth) : booth = b :=
    Option.some.inj (hp.symm.trans ((congrArg Phase.booth? hphase).symm.trans hbooth))
  have hreaction := v.react_reaction m (.message source msg rssi snr)
  generalize v.react m (.message source msg rssi snr) = outcome at hreaction
  cases hreaction with
  | idle | hears | showsText | showsChat | showsExit => exact .inl ⟨rfl, rfl⟩
  | accepts _ _ _ _ _ _ _ hphase =>
    obtain rfl := hown hphase rfl
    refine .inr ⟨stance_of_phase hphase rfl, stance_of_phase rfl rfl, ?_⟩
    simp [dealings_cons, Message.isDealing]
  | consults _ _ _ _ _ _ _ hphase =>
    rw [stance_of_stranger (by rw [hphase]; rfl) b]
    exact .inl ⟨stance_of_stranger rfl b, rfl⟩
  | claims _ _ _ _ _ hphase | timesOut _ _ _ _ hphase => exact absurd (hown hphase rfl) (Input.not_dealing hother rfl)
  | enters _ _ _ _ hregistering | queues _ _ _ hregistering | refused _ _ _ hregistering =>
    have hsource := (booth?_of_registering? hregistering).symm.trans hbooth
    exact absurd (Option.some.inj hsource) (Input.not_dealing hother rfl)
  | placed _ _ _ _ _ _ _ _ hmessage hphase | dropped _ _ _ _ _ _ _ _ hmessage hphase =>
    rcases hmessage with rfl | rfl <;> exact absurd (hown hphase rfl) (Input.not_dealing hother rfl)

/-- Whoever opens a scan deals with no booth on that account. -/
theorem startScan_heeds (tick : Nat) (v : Visitor) (b : NodeId) : Heeds b (startScan tick v) (v.stance b, []) := by
  refine ⟨rfl, dealings_eq_nil fun msg hmem => ?_⟩
  rw [startScan_sent] at hmem
  obtain ⟨_, -, heq⟩ := List.mem_map.mp hmem
  obtain ⟨-, rfl⟩ := Prod.mk.inj heq
  rfl

/-- The end of a scan changes nothing between a booth and a visitor. -/
theorem selection_heeds (v : Visitor) (m : Moment) (b : NodeId) :
    Heeds b (v.react m (.timer .selection)) (v.stance b, []) := by
  have hreaction := v.react_reaction m (.timer .selection)
  generalize v.react m (.timer .selection) = outcome at hreaction
  cases hreaction with
  | idle | findsNone => exact ⟨rfl, rfl⟩
  | connects booth score hphase =>
    rw [stance_of_stranger (by rw [hphase]; rfl) b]
    refine ⟨stance_of_stranger rfl b, ?_⟩
    simp [dealings_cons, Message.isDealing, Action.sent_append]

/-- An overdue answer that the visitor does not wait for from a booth changes nothing between the two. -/
theorem retry_heeds (h : v.registering? = none) (m : Moment) (b : NodeId) :
    Heeds b (v.react m (.timer .retry)) (v.stance b, []) := by
  have hreaction := v.react_reaction m (.timer .retry)
  generalize v.react m (.timer .retry) = outcome at hreaction
  cases hreaction with
  | idle => exact ⟨rfl, rfl⟩
  | reconnects => exact ⟨rfl, by simp [dealings_cons, Message.isDealing]⟩
  | losesBooth booth hphase =>
    rw [stance_of_stranger (by rw [hphase]; rfl) b]
    exact ⟨stance_freed v m.tick b, rfl⟩
  | reaffirms booth hphase | givesUp booth hphase | reclaims booth _ hphase | abandons booth _ hphase =>
    simp [registering?, hphase] at h

/-- At a tick a visitor stays as it stands, or ends its session by itself. -/
theorem tick_heeds (v : Visitor) (m : Moment) (b : NodeId) :
    Heeds b (v.react m .tick) (v.stance b, []) ∨
      v.stance b = .inside ∧ Heeds b (v.react m .tick) (.stranger, [.exitRequest]) := by
  have hreaction := v.react_reaction m .tick
  generalize v.react m .tick = outcome at hreaction
  cases hreaction with
  | idle => exact .inl ⟨rfl, rfl⟩
  | rescans => exact .inl (startScan_heeds m.tick v b)
  | expires booth start hphase =>
    by_cases hbooth : booth = b
    · subst hbooth
      refine .inr ⟨stance_of_phase hphase rfl, stance_freed v m.tick booth, ?_⟩
      simp [dealings_cons, Message.isDealing]
    · have hother : v.stance b = .stranger := if_neg fun hown =>
        hbooth (Option.some.inj ((congrArg Phase.booth? hphase).symm.trans hown))
      rw [hother]
      refine .inl ⟨stance_freed v m.tick b, ?_⟩
      simp [dealings_cons, hbooth]

/-- The inputs of a turn before an overdue answer. -/
def IsNews (i : Input) : Prop :=
  i = .start ∨ (∃ source msg rssi snr, i = .message source msg rssi snr) ∨ i = .timer .selection

/-- Over the news of a turn a visitor takes its course with every booth. -/
theorem run_course {inputs : List Input} (hinputs : ∀ i ∈ inputs, IsNews i) (v : Visitor) (m : Moment) (b : NodeId) :
    (v.stance b).Course (inputs.filterMap (Input.dealing? b)) ((v.run (inputs.map (m, ·))).1.stance b)
      (dealings b (Action.sent (v.run (inputs.map (m, ·))).2)) := by
  induction inputs generalizing v with
  | nil => exact .done _
  | cons i rest ih =>
    have hrest := ih (fun j hj => hinputs j (List.mem_cons_of_mem _ hj)) (v.react m i).1
    have hrun : v.run ((i :: rest).map (m, ·)) = andThen (v.react m i) (·.run (rest.map (m, ·))) := rfl
    rw [hrun, andThen, Action.sent_append, dealings_append]
    cases hdealing : i.dealing? b with
    | some msg =>
      obtain ⟨hkind, rssi, snr, rfl⟩ := Input.of_dealing hdealing
      obtain ⟨hstance, hreply⟩ := react_heeds hkind v b m rssi snr
      rw [List.filterMap_cons_some hdealing, hreply]
      exact .hears _ _ msg _ _ (hstance ▸ hrest)
    | none =>
      rw [List.filterMap_cons_none hdealing]
      have hheeds : Heeds b (v.react m i) (v.stance b, []) ∨
          v.stance b = .stranger ∧ Heeds b (v.react m i) (.asking, [.registerRequest]) := by
        rcases hinputs i List.mem_cons_self with rfl | ⟨source, msg, rssi, snr, rfl⟩ | rfl
        · exact .inl (startScan_heeds m.tick v b)
        · exact message_heeds hdealing v m
        · exact .inl (selection_heeds v m b)
      rcases hheeds with ⟨hstance, hreply⟩ | ⟨hstranger, hstance, hreply⟩
      · rw [hstance] at hrest
        rw [hreply]
        exact hrest
      · rw [hstance] at hrest
        rw [hreply, hstranger]
        exact .asks _ _ _ hrest

/-- In a whole turn in which no answer is overdue that it waits for, a visitor takes its course with every
booth and may take leave at the end. -/
theorem run_turn {news : List Input} (hnews : ∀ i ∈ news, IsNews i) {m : Moment} {retries : Bool}
    (hretries : retries = true → (v.run (news.map (m, ·))).1.registering? = none) (b : NodeId) :
    let inputs := news ++ (if retries then [Input.timer .retry] else []) ++ [Input.tick]
    (v.stance b).Turn (news.filterMap (Input.dealing? b)) ((v.run (inputs.map (m, ·))).1.stance b)
      (dealings b (Action.sent (v.run (inputs.map (m, ·))).2)) := by
  intro inputs
  have hcourse := v.run_course hnews m b
  have hretried : Heeds b (v.run ((news ++ if retries then [Input.timer .retry] else []).map (m, ·)))
      ((v.run (news.map (m, ·))).1.stance b, dealings b (Action.sent (v.run (news.map (m, ·))).2)) := by
    cases retries with
    | false => simp [Heeds]
    | true =>
      obtain ⟨hstance, hreply⟩ := retry_heeds (hretries rfl) m b
      rw [if_pos rfl, run_concat]
      refine ⟨hstance, ?_⟩
      rw [Action.sent_append, dealings_append, hreply, List.append_nil]
  obtain ⟨hstance, hreply⟩ := hretried
  dsimp only at hstance hreply
  rw [run_concat, Action.sent_append, dealings_append, hreply]
  dsimp only
  rw [← hstance] at hcourse
  rcases tick_heeds (v.run ((news ++ if retries then [Input.timer .retry] else []).map (m, ·))).1 m b with
    ⟨hticked, hsilent⟩ | ⟨hinside, hticked, hexit⟩
  · rw [hticked, hsilent, List.append_nil]
    exact .ends _ _ hcourse
  · rw [hticked, hexit]
    rw [hinside] at hcourse
    exact .exits _ hcourse

end Visitor

end BoothFloor
