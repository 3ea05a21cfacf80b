import BoothFloor.Proofs.Inbox
import BoothFloor.Proofs.Run

/-!
# A turn is a run

In one turn a node hands its machine a row of inputs, all at the same moment: the start at its very
first turn, the messages that it can read in order of arrival, the timers that have fired, the
intents in order and the tick. What the turn sends and reports is what the machine's run over this
row asks for, and its mail afterwards is what a turn leaves of an inbox.
-/

namespace BoothFloor

/-- What a node makes of a frame: a message, if the frame can be read. -/
def Rules.hear (r : Rules) (f : Frame) : Option Input :=
  match Wire.decode f.bytes (r.hosts.roleOf f.source) with
  | .ok m => some (.message f.source m f.rssi f.snr)
  | .error _ => none

/-- What is heard in a frame is the message that it carries, from its source. -/
theorem Rules.hear_eq_some_iff {r : Rules} {f : Frame} {source : NodeId} {message : Message} {rssi : Int16}
    {snr : Int8} : r.hear f = some (.message source message rssi snr) ↔
      f.source = source ∧ Wire.decode f.bytes (r.hosts.roleOf source) = .ok message ∧ f.rssi = rssi ∧ f.snr = snr := by
  unfold Rules.hear
  constructor
  · intro h
    split at h
    · next hdecode =>
      cases h
      exact ⟨rfl, hdecode, rfl, rfl⟩
    · cases h
  · rintro ⟨rfl, hdecode, rfl, rfl⟩
    rw [hdecode]

namespace Node

/-- The messages that the next turn hands to the machine. -/
def heard (n : Node) : List Input :=
  if n.inbox.signals.isSet .messageArrived then n.inbox.frames.items.filterMap n.rules.hear else []

/-- The intents that the next turn hands to the machine. -/
def asked (n : Node) : List Input :=
  if n.inbox.signals.isSet .keyboardIntent then n.inbox.intents.items.map .intent else []

/-- The start, at the first turn only. -/
def opening (n : Node) : List Input := if n.started then [] else [.start]

/-- The moment of the next turn. -/
def moment (n : Node) (now : Instant) : Moment := ⟨now, n.tick + 1⟩

end Node

namespace Turn

/-- The effect of one input, with the reaction written out. -/
theorem feed_eq (t : Turn) (i : Input) :
    t.feed i =
      { node :=
          { t.node with
            machine := (t.node.machine.react ⟨t.node.now, t.node.tick⟩ i).1
            timers := (Action.alarmsAfter t.node.now ⟨t.node.timers, t.node.inbox.signals⟩
              (t.node.machine.react ⟨t.node.now, t.node.tick⟩ i).2).timers
            inbox :=
              { t.node.inbox with
                signals := (Action.alarmsAfter t.node.now ⟨t.node.timers, t.node.inbox.signals⟩
                  (t.node.machine.react ⟨t.node.now, t.node.tick⟩ i).2).signals } }
        sent := t.sent ++ Action.sent (t.node.machine.react ⟨t.node.now, t.node.tick⟩ i).2
        notices := t.notices ++ Action.emitted (t.node.machine.react ⟨t.node.now, t.node.tick⟩ i).2
        fault := t.fault.or (t.node.machine.fault? ⟨t.node.now, t.node.tick⟩ i) } := rfl

/-- The moment at which a turn hands inputs to its machine. -/
def moment (t : Turn) : Moment := ⟨t.node.now, t.node.tick⟩

/-- A turn `t` is what has become of a turn `s` once the machine has run over some inputs: what it
wanted was done, and a timer's signal that is still set was set all along. -/
structure Follows (s t : Turn) (inputs : List Input) : Prop where
  rules : t.node.rules = s.node.rules
  moment : t.moment = s.moment
  started : s.node.started = true → t.node.started = true
  machine : t.node.machine = (s.node.machine.run (inputs.map (s.moment, ·))).1
  sent : t.sent = s.sent ++ Action.sent (s.node.machine.run (inputs.map (s.moment, ·))).2
  notices : t.notices = s.notices ++ Action.emitted (s.node.machine.run (inputs.map (s.moment, ·))).2
  fault : t.fault = s.fault.or (s.node.machine.firstFault (inputs.map (s.moment, ·)))
  signal : ∀ k : TimerKind, t.node.inbox.signals.isSet k.signal = true →
    s.node.inbox.signals.isSet k.signal = true ∧
      ∀ act ∈ (s.node.machine.run (inputs.map (s.moment, ·))).2, act.settles k.signal = false

variable {s t u : Turn} {first second : List Input}

/-- Work on the mail and the counters is not the machine's. -/
theorem Follows.of_eq (hrules : t.node.rules = s.node.rules) (hmoment : t.moment = s.moment)
    (hstarted : s.node.started = true → t.node.started = true)
    (hmachine : t.node.machine = s.node.machine) (hsent : t.sent = s.sent)
    (hnotices : t.notices = s.notices) (hfault : t.fault = s.fault)
    (hsignal : ∀ k : TimerKind, t.node.inbox.signals.isSet k.signal = true →
      s.node.inbox.signals.isSet k.signal = true) : Follows s t [] where
  rules := hrules
  moment := hmoment
  started := hstarted
  machine := hmachine
  sent := hsent.trans (List.append_nil _).symm
  notices := hnotices.trans (List.append_nil _).symm
  fault := hfault.trans Option.or_none.symm
  signal := fun k hk => ⟨hsignal k hk, fun _ hact => absurd hact List.not_mem_nil⟩

/-- A turn follows itself on no input. -/
theorem Follows.refl (t : Turn) : Follows t t [] := .of_eq rfl rfl id rfl rfl rfl rfl fun _ hk => hk

/-- The rows of two stretches of a turn make up the row of both. -/
theorem Follows.trans (hst : Follows s t first) (htu : Follows t u second) :
    Follows s u (first ++ second) := by
  have hrun : s.node.machine.run ((first ++ second).map (s.moment, ·)) =
      ((t.node.machine.run (second.map (t.moment, ·))).1,
        (s.node.machine.run (first.map (s.moment, ·))).2 ++
          (t.node.machine.run (second.map (t.moment, ·))).2) := by
    rw [List.map_append, Machine.run, runWith_append, hst.machine, hst.moment]
    rfl
  refine ⟨htu.rules.trans hst.rules, htu.moment.trans hst.moment, fun hs => htu.started (hst.started hs),
    ?_, ?_, ?_, ?_, fun k hk => ?_⟩
  · rw [hrun, htu.machine]
  · rw [hrun, htu.sent, hst.sent, Action.sent_append, List.append_assoc]
  · rw [hrun, htu.notices, hst.notices, Action.emitted_append, List.append_assoc]
  · rw [List.map_append, Machine.firstFault_append, htu.fault, hst.fault, hst.machine, hst.moment, Option.or_assoc]
  · obtain ⟨hmid, hlater⟩ := htu.signal k hk
    obtain ⟨hset, hearlier⟩ := hst.signal k hmid
    refine ⟨hset, fun act hact => ?_⟩
    rw [hrun] at hact
    exact (List.mem_append.mp hact).elim (hearlier act) (hlater act)

/-- Feeding an input lets the machine run over it. -/
theorem feed_follows (t : Turn) (i : Input) : Follows t (t.feed i) [i] := by
  have hrun : t.node.machine.run ([i].map (t.moment, ·)) = t.node.machine.react t.moment i := by
    simp only [List.map_cons, List.map_nil, Machine.run, runWith, andThen, List.append_nil]
  refine ⟨rfl, rfl, id, ?_, ?_, ?_, ?_, fun k hk => ?_⟩
  · rw [hrun]
    rfl
  · rw [hrun]
    rfl
  · rw [hrun]
    rfl
  · rw [List.map_singleton, Machine.firstFault, Machine.firstFault, Option.or_none]
    rfl
  · rw [feed_eq] at hk
    simp only [Action.isSet_alarmsAfter, Bool.and_eq_true, Bool.not_eq_true', List.any_eq_false,
      Bool.not_eq_true] at hk
    rw [hrun]
    exact hk

/-- Acting on a signal follows the turn on the inputs of the act, if the signal is set. -/
theorem onSignal_follows (g : Signal) (act : Turn → Turn) (inputs : List Input) (t : Turn)
    (hact : ∀ s : Turn, s = { t with node := { t.node with inbox := t.node.inbox.clear g } } →
      Follows s (act s) inputs) :
    Follows t (t.onSignal g act) (if t.node.inbox.signals.isSet g then inputs else []) := by
  unfold onSignal
  split
  · have hcleared : Follows t { t with node := { t.node with inbox := t.node.inbox.clear g } } [] := by
      refine .of_eq rfl rfl id rfl rfl rfl rfl fun k hk => ?_
      simp only [Inbox.clear, Signals.isSet_clear, Bool.and_eq_true] at hk
      exact hk.1
    exact hcleared.trans (hact _ rfl)
  · exact .refl t

/-- Counting is not the machine's work. -/
theorem counting_follows (f : Counters → Counters) (t : Turn) : Follows t (t.counting f) [] :=
  .of_eq rfl rfl id rfl rfl rfl rfl fun _ hk => hk

/-- A frame is counted, and then it is given to the machine or counted as dropped. -/
theorem readFrame_eq (t : Turn) (f : Frame) : t.readFrame f =
    match t.node.rules.hear f with
    | some i => (t.counting countFrame).feed i
    | none => (t.counting countFrame).counting countDrop := by
  unfold readFrame Rules.hear
  have hrules : (t.counting countFrame).node.rules = t.node.rules := rfl
  dsimp only
  rw [hrules]
  cases Wire.decode f.bytes (t.node.rules.hosts.roleOf f.source) <;> rfl

/-- Reading a frame hands over its message, if it can be read. -/
theorem readFrame_follows (t : Turn) (f : Frame) :
    Follows t (t.readFrame f) (t.node.rules.hear f).toList := by
  rw [readFrame_eq]
  cases t.node.rules.hear f with
  | some i => exact (counting_follows countFrame t).trans (feed_follows _ i)
  | none => exact (counting_follows countFrame t).trans (counting_follows countDrop _)

/-- Reading some frames hands over the messages that can be read, in order. -/
theorem foldl_readFrame_follows (t : Turn) (frames : List Frame) :
    Follows t (frames.foldl readFrame t) (frames.filterMap t.node.rules.hear) := by
  induction frames generalizing t with
  | nil => exact .refl t
  | cons f rest ih =>
    have hfirst := readFrame_follows t f
    have hboth := hfirst.trans (ih (t.readFrame f))
    rw [hfirst.rules] at hboth
    rw [List.foldl_cons, List.filterMap_cons]
    cases hf : t.node.rules.hear f with
    | none => simpa only [hf, Option.toList_none, List.nil_append] using hboth
    | some i => simpa only [hf, Option.toList_some, List.singleton_append] using hboth

/-- Reading the inbox hands over the messages that can be read. -/
theorem readFrames_follows (t : Turn) :
    Follows t t.readFrames (t.node.inbox.frames.items.filterMap t.node.rules.hear) := by
  have hdrained : Follows t { t with node := { t.node with inbox := t.node.inbox.drainFrames.2 } } [] :=
    .of_eq rfl rfl id rfl rfl rfl rfl fun _ hk => hk
  exact hdrained.trans (foldl_readFrame_follows _ _)

/-- Handling some intents hands over those, in order. -/
theorem foldl_intent_follows (t : Turn) (intents : List Intent) :
    Follows t (intents.foldl (fun t i => t.feed (.intent i)) t) (intents.map .intent) := by
  induction intents generalizing t with
  | nil => exact .refl t
  | cons i rest ih => exact (feed_follows t (.intent i)).trans (ih (t.feed (.intent i)))

/-- Handling the intents of the inbox hands over those. -/
theorem readIntents_follows (t : Turn) :
    Follows t t.readIntents (t.node.inbox.intents.items.map .intent) := by
  have hdrained : Follows t { t with node := { t.node with inbox := t.node.inbox.drainIntents.2 } } [] :=
    .of_eq rfl rfl id rfl rfl rfl rfl fun _ hk => hk
  exact hdrained.trans (foldl_intent_follows _ _)

/-- The first step of a node hands over the start. -/
theorem begin_follows (t : Turn) : Follows t t.begin (if t.node.started then [] else [.start]) := by
  unfold begin
  split
  · exact .refl t
  · have hstarted : Follows t { t with node := { t.node with started := true } } [] :=
      .of_eq rfl rfl (fun _ => rfl) rfl rfl rfl rfl fun _ hk => hk
    exact hstarted.trans (feed_follows _ _)

/-- Feeding an input leaves the mail alone. -/
theorem feed_sameMail (t : Turn) (i : Input) : t.node.inbox.SameMail (t.feed i).node.inbox := by
  rw [feed_eq]
  refine ⟨rfl, rfl, fun g hg => ?_, rfl⟩
  simp [Action.isSet_alarmsAfter, Action.settles_of_isExternal hg]

/-- Feeding some inputs leaves the mail alone. -/
theorem foldl_feed_sameMail {α : Type} (act : Turn → α → Turn)
    (hact : ∀ (t : Turn) (a : α), t.node.inbox.SameMail (act t a).node.inbox) (l : List α) (t : Turn) :
    t.node.inbox.SameMail (l.foldl act t).node.inbox := by
  induction l generalizing t with
  | nil => exact .refl _
  | cons a rest ih => exact (hact t a).trans (ih (act t a))

/-- Reading a frame that was taken out leaves the mail alone. -/
theorem readFrame_sameMail (t : Turn) (f : Frame) : t.node.inbox.SameMail (t.readFrame f).node.inbox := by
  rw [readFrame_eq]
  cases t.node.rules.hear f with
  | some i => exact (t.counting countFrame).feed_sameMail i
  | none => exact .refl _

/-- The first turn's start leaves the mail alone. -/
theorem begin_sameMail (t : Turn) : t.node.inbox.SameMail t.begin.node.inbox := by
  unfold begin
  split
  · exact .refl _
  · exact feed_sameMail { t with node := { t.node with started := true } } .start

/-- Polling the timers leaves the mail alone. -/
theorem pollTimers_sameMail (t : Turn) : t.node.inbox.SameMail t.pollTimers.node.inbox :=
  ⟨rfl, rfl, fun _ hg => t.node.timers.isSet_poll t.node.now t.node.inbox.signals hg, rfl⟩

/-- Handling a timer's signal leaves the mail alone. -/
theorem onTimer_sameMail (k : TimerKind) (t : Turn) :
    t.node.inbox.SameMail (t.onSignal k.signal (·.feed (.timer k))).node.inbox := by
  unfold onSignal
  split
  · have hcleared : t.node.inbox.SameMail (t.node.inbox.clear k.signal) := by
      refine ⟨rfl, rfl, fun g hg => ?_, rfl⟩
      simp [Inbox.clear, Signals.isSet_clear, (k.signal_ne_of_isExternal hg).symm]
    exact hcleared.trans (feed_sameMail { t with node := { t.node with inbox := t.node.inbox.clear k.signal } }
      (.timer k))
  · exact .refl _

end Turn

namespace Inbox.SameMail

variable {a : Inbox} {t : Turn}

/-- Reading the frames takes them out. -/
theorem readFrames (h : a.SameMail t.node.inbox) :
    a.afterFrames.SameMail (t.onSignal .messageArrived Turn.readFrames).node.inbox := by
  unfold Inbox.afterFrames Turn.onSignal
  rw [h.signals .messageArrived rfl]
  split
  · have hdrained : ((a.clear .messageArrived).drainFrames.2).SameMail
        ((t.node.inbox.clear .messageArrived).drainFrames.2) :=
      ⟨congrArg (fun m : Mailbox Frame => m.drain.2) h.frames, h.intents,
        (h.clear .messageArrived).signals, h.coalesced⟩
    exact hdrained.trans (Turn.foldl_feed_sameMail Turn.readFrame Turn.readFrame_sameMail _
      { t with node := { t.node with inbox := (t.node.inbox.clear .messageArrived).drainFrames.2 } })
  · exact h

/-- Handling the intents takes them out. -/
theorem readIntents (h : a.SameMail t.node.inbox) :
    a.afterIntents.SameMail (t.onSignal .keyboardIntent Turn.readIntents).node.inbox := by
  unfold Inbox.afterIntents Turn.onSignal
  rw [h.signals .keyboardIntent rfl]
  split
  · have hdrained : ((a.clear .keyboardIntent).drainIntents.2).SameMail
        ((t.node.inbox.clear .keyboardIntent).drainIntents.2) :=
      ⟨h.frames, congrArg (fun m : Mailbox Intent => m.drain.2) h.intents,
        (h.clear .keyboardIntent).signals, h.coalesced⟩
    exact hdrained.trans (Turn.foldl_feed_sameMail _ (fun t i => t.feed_sameMail (.intent i)) _
      { t with node := { t.node with inbox := (t.node.inbox.clear .keyboardIntent).drainIntents.2 } })
  · exact h

end Inbox.SameMail

namespace Node

/-- The node's turn once it has woken up and polled its timers. -/
def polled (n : Node) (now : Instant) : Turn :=
  let woken : Turn := { node := { n with now := now, tick := n.tick + 1 } }
  ((woken.begin).counting Turn.countTick).pollTimers

/-- The node's turn once the frames have been read. -/
def read (n : Node) (now : Instant) : Turn := (n.polled now).onSignal .messageArrived Turn.readFrames

/-- Whether the end of a scan is handled in the next turn. -/
def selects (n : Node) (now : Instant) : Bool := (n.read now).node.inbox.signals.isSet .selectionTimeout

/-- The node's turn once the end of a scan has been handled. -/
def selected (n : Node) (now : Instant) : Turn :=
  (n.read now).onSignal .selectionTimeout (·.feed (.timer .selection))

/-- Whether an overdue answer is handled in the next turn. -/
def retries (n : Node) (now : Instant) : Bool := (n.selected now).node.inbox.signals.isSet .retryTimeout

/-- The node's turn once an overdue answer has been handled. -/
def retried (n : Node) (now : Instant) : Turn :=
  (n.selected now).onSignal .retryTimeout (·.feed (.timer .retry))

/-- The node's turn once the intents have been handled. -/
def intended (n : Node) (now : Instant) : Turn :=
  (n.retried now).onSignal .keyboardIntent Turn.readIntents

/-- The inputs from the air and from the timer that ends a scan. -/
def news (n : Node) (now : Instant) : List Input :=
  n.heard ++ if n.selects now then [.timer .selection] else []

/-- All inputs of the next turn, in order. -/
def inputs (n : Node) (now : Instant) : List Input :=
  n.opening ++ (n.news now ++ ((if n.retries now then [.timer .retry] else []) ++ (n.asked ++ [.tick])))

/-- A turn ends with the tick. -/
theorem turn_eq (n : Node) (now : Instant) : n.turn now =
    ((n.intended now).onSignal .sendConfirmed (Turn.counting Turn.countConfirmation)).feed .tick := rfl

/-- Waking up and polling the timers hands over the start, if it is due. -/
theorem polled_machine (n : Node) (now : Instant) :
    (n.polled now).node.machine = (n.machine.run (n.opening.map (n.moment now, ·))).1 ∧
      (n.polled now).sent = Action.sent (n.machine.run (n.opening.map (n.moment now, ·))).2 ∧
      (n.polled now).notices = Action.emitted (n.machine.run (n.opening.map (n.moment now, ·))).2 ∧
      (n.polled now).node.rules = n.rules ∧ (n.polled now).moment = n.moment now ∧
      (n.polled now).node.started = true := by
  have hbegin := Turn.begin_follows { node := { n with now := now, tick := n.tick + 1 } }
  have hstarted : (Turn.begin { node := { n with now := now, tick := n.tick + 1 } }).node.started = true := by
    unfold Turn.begin
    split
    · assumption
    · rfl
  exact ⟨hbegin.machine, hbegin.sent, hbegin.notices, hbegin.rules, hbegin.moment, hstarted⟩

/-- Waking up and polling the timers leaves the mail alone. -/
theorem polled_sameMail (n : Node) (now : Instant) : n.inbox.SameMail (n.polled now).node.inbox :=
  (Turn.begin_sameMail { node := { n with now := now, tick := n.tick + 1 } }).trans
    (Turn.pollTimers_sameMail _)

/-- A turn opens with the start, if with anything. -/
theorem mem_opening {n : Node} {i : Input} (h : i ∈ n.opening) : i = .start := by
  unfold opening at h
  split at h
  · cases h
  · exact List.mem_singleton.mp h

/-- What is asked are intents of the inbox. -/
theorem mem_asked {n : Node} {i : Input} (h : i ∈ n.asked) :
    ∃ intent ∈ n.inbox.intents.items, i = .intent intent := by
  unfold asked at h
  split at h
  · obtain ⟨intent, hintent, heq⟩ := List.mem_map.mp h
    exact ⟨intent, hintent, heq.symm⟩
  · cases h

/-- What is heard are messages. -/
theorem heard_messages (n : Node) : AllMessages n.heard := by
  intro i hi
  unfold heard at hi
  split at hi
  · obtain ⟨frame, -, hread⟩ := List.mem_filterMap.mp hi
    unfold Rules.hear at hread
    split at hread
    · cases hread
      exact ⟨_, _, _, _, rfl⟩
    · cases hread
  · cases hi

/-- After the frames a turn hands over no more messages, and no intents but those in the inbox. -/
theorem exists_later (n : Node) (now : Instant) :
    ∃ later, n.inputs now = n.opening ++ (n.heard ++ later) ∧
      (∀ source msg rssi snr, .message source msg rssi snr ∉ later) ∧
      ∀ i, .intent i ∈ later → i ∈ n.inbox.intents.items := by
  refine ⟨(if n.selects now then [.timer .selection] else []) ++
    ((if n.retries now then [.timer .retry] else []) ++ (n.asked ++ [.tick])), ?_, ?_, ?_⟩
  · rw [inputs, news, List.append_assoc]
  · intro source msg rssi snr hmem
    simp only [List.mem_append, List.mem_singleton] at hmem
    rcases hmem with hmem | hmem | hmem | hmem
    · split at hmem <;> simp at hmem
    · split at hmem <;> simp at hmem
    · obtain ⟨_, _, heq⟩ := mem_asked hmem
      cases heq
    · cases hmem
  · intro i hmem
    simp only [List.mem_append, List.mem_singleton] at hmem
    rcases hmem with hmem | hmem | hmem | hmem
    · split at hmem <;> simp at hmem
    · split at hmem <;> simp at hmem
    · obtain ⟨intent, hintent, heq⟩ := mem_asked hmem
      cases heq
      exact hintent
    · cases hmem

/-- The inputs of the next turn up to its tick. -/
def beforeTick (n : Node) (now : Instant) : List Input :=
  n.opening ++ (n.news now ++ ((if n.retries now then [.timer .retry] else []) ++ n.asked))

/-- A turn hands over the tick last. -/
theorem inputs_eq (n : Node) (now : Instant) : n.inputs now = n.beforeTick now ++ [.tick] := by
  simp only [inputs, beforeTick, List.append_assoc]

/-- A turn hands over one tick only. -/
theorem tick_not_mem (n : Node) (now : Instant) : ∀ i ∈ n.beforeTick now, i ≠ .tick := by
  rintro i hi rfl
  simp only [beforeTick, news, List.mem_append] at hi
  rcases hi with hopening | (hheard | hselects) | hretries | hasked
  · cases mem_opening hopening
  · obtain ⟨_, _, _, _, heq⟩ := n.heard_messages _ hheard
    cases heq
  · split at hselects <;> simp at hselects
  · split at hretries <;> simp at hretries
  · obtain ⟨_, _, heq⟩ := mem_asked hasked
    cases heq

/-- What a turn hands over up to some input is the whole row up to the tick, or a part of that row. -/
theorem split_inputs {n : Node} {now : Instant} {pre post : List Input} {i : Input}
    (h : n.inputs now = pre ++ i :: post) :
    (pre = n.beforeTick now ∧ i = .tick ∧ post = []) ∨ ∃ rest, n.beforeTick now = pre ++ i :: rest := by
  rw [inputs_eq] at h
  rcases List.eq_nil_or_concat post with rfl | ⟨rest, last, rfl⟩
  · obtain ⟨hpre, hi⟩ := List.append_inj' h rfl
    exact .inl ⟨hpre.symm, (List.cons.inj hi).1.symm, rfl⟩
  · rw [List.concat_eq_append, ← List.cons_append, ← List.append_assoc] at h
    exact .inr ⟨rest, (List.append_inj' h rfl).1⟩

/-- Reading the frames hands over what was heard. -/
theorem read_follows (n : Node) (now : Instant) : Turn.Follows (n.polled now) (n.read now) n.heard := by
  have hread := Turn.onSignal_follows .messageArrived Turn.readFrames
    ((n.polled now).node.inbox.frames.items.filterMap (n.polled now).node.rules.hear) (n.polled now)
    (fun s hs => by
      subst hs
      exact Turn.readFrames_follows _)
  have hmail := n.polled_sameMail now
  rw [hmail.signals _ rfl, hmail.frames, (n.polled_machine now).2.2.2.1] at hread
  exact hread

/-- Handling the end of a scan hands over the timer that ends it. -/
theorem selected_follows (n : Node) (now : Instant) :
    Turn.Follows (n.polled now) (n.selected now) (n.news now) :=
  (n.read_follows now).trans (Turn.onSignal_follows _ _ _ _ fun s _ => Turn.feed_follows s _)

/-- Once the frames have been read, the intents are as before. -/
theorem retried_sameMail (n : Node) (now : Instant) :
    n.inbox.afterFrames.SameMail (n.retried now).node.inbox :=
  ((n.polled_sameMail now).readFrames.trans (Turn.onTimer_sameMail .selection _)).trans
    (Turn.onTimer_sameMail .retry _)

/-- Handling an overdue answer hands over the timer for it. -/
theorem retried_follows (n : Node) (now : Instant) :
    Turn.Follows (n.selected now) (n.retried now) (if n.retries now then [.timer .retry] else []) :=
  Turn.onSignal_follows _ _ _ _ fun s _ => Turn.feed_follows s _

/-- Handling an overdue answer and the intents hands over the rest of the row before the tick. -/
theorem intended_follows (n : Node) (now : Instant) :
    Turn.Follows (n.selected now) (n.intended now)
      ((if n.retries now then [.timer .retry] else []) ++ n.asked) := by
  have hintended := Turn.onSignal_follows .keyboardIntent Turn.readIntents
    ((n.retried now).node.inbox.intents.items.map .intent) (n.retried now)
    (fun s hs => by
      subst hs
      exact Turn.readIntents_follows _)
  have hmail := n.retried_sameMail now
  rw [hmail.signals _ rfl, hmail.intents] at hintended
  have hasked : (if n.inbox.afterFrames.signals.isSet .keyboardIntent then
      n.inbox.afterFrames.intents.items.map Input.intent else []) = n.asked := by
    rw [Inbox.afterFrames_intents, Inbox.afterFrames_keyboardIntent]
    rfl
  rw [hasked] at hintended
  exact (n.retried_follows now).trans hintended

/-- From its polled timers on, a turn hands over the inputs after the start. -/
theorem turn_follows (n : Node) (now : Instant) :
    Turn.Follows (n.polled now) (n.turn now)
      (n.news now ++ ((if n.retries now then [.timer .retry] else []) ++ (n.asked ++ [.tick]))) := by
  have hconfirmed := Turn.onSignal_follows .sendConfirmed (Turn.counting Turn.countConfirmation) []
    (n.intended now) fun s _ => Turn.counting_follows _ s
  rw [ite_self] at hconfirmed
  have hall := ((n.selected_follows now).trans (n.intended_follows now)).trans
    (hconfirmed.trans (Turn.feed_follows _ .tick))
  rw [turn_eq]
  simpa only [List.append_assoc, List.nil_append] using hall

/-- The machine after a turn is the one after its run over the inputs of the turn. -/
theorem turn_run (n : Node) (now : Instant) :
    (n.turn now).node.machine = (n.machine.run ((n.inputs now).map (n.moment now, ·))).1 ∧
      (n.turn now).sent = Action.sent (n.machine.run ((n.inputs now).map (n.moment now, ·))).2 ∧
      (n.turn now).notices = Action.emitted (n.machine.run ((n.inputs now).map (n.moment now, ·))).2 := by
  obtain ⟨hmachine, hsent, hnotices, -, hmoment, -⟩ := n.polled_machine now
  have hturn := n.turn_follows now
  rw [inputs, List.map_append, Machine.run, runWith_append]
  refine ⟨?_, ?_, ?_⟩
  · rw [hturn.machine, hmachine, hmoment]
    rfl
  · rw [hturn.sent, hmachine, hmoment, hsent, ← Action.sent_append]
    rfl
  · rw [hturn.notices, hmachine, hmoment, hnotices, ← Action.emitted_append]
    rfl

/-- The fault in a turn is the first one in its run over the inputs. -/
theorem turn_firstFault (n : Node) (now : Instant) :
    (n.turn now).fault = n.machine.firstFault ((n.inputs now).map (n.moment now, ·)) := by
  obtain ⟨hmachine, -, -, -, hmoment, -⟩ := n.polled_machine now
  have hopening : (n.polled now).fault = n.machine.firstFault (n.opening.map (n.moment now, ·)) :=
    (Turn.begin_follows { node := { n with now := now, tick := n.tick + 1 } }).fault.trans Option.none_or
  rw [(n.turn_follows now).fault, hopening, hmachine, hmoment, ← Machine.firstFault_append, ← List.map_append]
  rfl

/-- What goes astray in a turn is its tick, if anything. -/
theorem turn_fault (n : Node) (now : Instant) : (n.turn now).fault =
    (n.machine.run ((n.beforeTick now).map (n.moment now, ·))).1.fault? (n.moment now) .tick := by
  rw [turn_firstFault, inputs_eq, List.map_append, Machine.firstFault_append,
    n.machine.firstFault_of_no_tick _ (n.tick_not_mem now), Option.none_or]
  exact Option.or_none

/-- A turn leaves the rules as they are. -/
theorem turn_rules (n : Node) (now : Instant) : (n.turn now).node.rules = n.rules :=
  (n.turn_follows now).rules.trans (n.polled_machine now).2.2.2.1

/-- After a turn the node has started. -/
theorem turn_started (n : Node) (now : Instant) : (n.turn now).node.started = true :=
  (n.turn_follows now).started (n.polled_machine now).2.2.2.2.2

/-- A turn counts one tick. -/
theorem turn_moment (n : Node) (now : Instant) : (n.turn now).moment = n.moment now :=
  (n.turn_follows now).moment.trans (n.polled_machine now).2.2.2.2.1

/-- A turn takes out of the inbox what was announced. -/
theorem turn_sameMail (n : Node) (now : Instant) :
    n.inbox.afterTurn.SameMail (n.turn now).node.inbox := by
  have hintended : n.inbox.afterFrames.afterIntents.SameMail (n.intended now).node.inbox :=
    (n.retried_sameMail now).readIntents
  have hconfirmed : n.inbox.afterTurn.SameMail
      ((n.intended now).onSignal .sendConfirmed (Turn.counting Turn.countConfirmation)).node.inbox := by
    unfold Turn.onSignal
    split
    · exact hintended.clear .sendConfirmed
    · next hunset =>
      refine ⟨hintended.frames, hintended.intents, fun g hg => ?_, hintended.coalesced⟩
      rw [Bool.not_eq_true] at hunset
      rw [Inbox.afterTurn, Inbox.clear, Signals.isSet_clear, ← hintended.signals g hg]
      by_cases heq : g = .sendConfirmed
      · subst heq
        simp [hunset]
      · simp [heq]
  exact hconfirmed.trans (Turn.feed_sameMail _ .tick)

/-- An overdue answer is handled only if no input before it has dealt with the timer. -/
theorem settles_of_retries {n : Node} {now : Instant} (h : n.retries now = true) :
    ∀ act ∈ ((n.machine.run (n.opening.map (n.moment now, ·))).1.run
      ((n.news now).map (n.moment now, ·))).2, act.settles .retryTimeout = false := by
  obtain ⟨hmachine, -, -, -, hmoment, -⟩ := n.polled_machine now
  have hsettles := ((n.selected_follows now).signal .retry h).2
  rw [hmachine, hmoment] at hsettles
  exact hsettles

end Node

end BoothFloor
