import BoothFloor.Proofs.Node.Turn
import Mathlib.Data.List.Destutter

/-!
# Who steers a visitor

A visitor listens to everybody, but only the booth that it deals with can move it, and during a scan those who
announce a booth. A message of anyone else is an aside: all that it can do is to be reported to the person who
runs the visitor. So two rows of inputs that differ in asides only lead through the same states, and the same
messages are sent on the way.
-/

namespace BoothFloor

/-- What a visitor reports of a message without being concerned in it: announcements, chat and confirmations of
an exit. -/
def Input.hearsay? : Input → Option Notice
  | .message source (.adminMessage text) _ _ => some (.adminMessage source text)
  | .message source (.chat sender text) _ _ => some (.chatReceived source sender text)
  | .message source (.exitResponse success) _ _ => some (.exitConfirmed source success)
  | _ => none

namespace Visitor

variable {v : Visitor} {i : Input}

/-- Whether an input is an aside: a message from a node that is not the booth that the visitor deals with, unless
it announces a booth while the scan window is open. -/
def isAside (v : Visitor) : Input → Bool
  | .message source message _ _ =>
    decide (v.booth? ≠ some source) && !(v.scanOpen && decide (message.kind = .boothAnnounce))
  | _ => false

/-- The inputs of a row that are no asides to the visitor when it gets them. -/
def attended (v : Visitor) : List (Moment × Input) → List (Moment × Input)
  | [] => []
  | e :: rest => if v.isAside e.2 then v.attended rest else e :: (v.react e.1 e.2).1.attended rest

/-- An aside leaves the visitor as it is, and nothing comes of it but a report. -/
theorem react_aside (haside : v.isAside i = true) (m : Moment) :
    v.react m i = (v, i.hearsay?.toList.map .emit) := by
  cases i with
  | start | timer | intent | tick => cases haside
  | message source msg rssi snr =>
    simp only [isAside, Bool.and_eq_true, decide_eq_true_eq, Bool.not_eq_true', Bool.and_eq_false_iff,
      decide_eq_false_iff_not] at haside
    obtain ⟨hother, hannounce⟩ := haside
    cases msg with
    | boothAnnounce s =>
      have hclosed : v.scanOpen = false := hannounce.resolve_right fun h => h rfl
      change v.onAnnounce s rssi snr = _
      simp [onAnnounce, hclosed, Input.hearsay?]
    | adminMessage | chat | exitResponse => rfl
    | _ => exact if_neg hother

end Visitor

namespace Turn

/-- Hand an input to the machine at a moment. -/
def handle (t : Turn) (e : Moment × Input) : Turn :=
  feed { t with node := { t.node with now := e.1.now, tick := e.1.tick } } e.2

/-- All that a machine can have a say in but its reports: its state, the timers with their pending signals, and
what has been sent. -/
structure Scene where
  machine : Machine
  timers : Timers
  signals : Signals
  sent : List (NodeId × Message)
  deriving DecidableEq

/-- The scene in the middle of a turn. -/
def scene (t : Turn) : Scene := ⟨t.node.machine, t.node.timers, t.node.inbox.signals, t.sent⟩

/-- The scenes through which a row of inputs leads. -/
def scenes (t : Turn) : List (Moment × Input) → List Scene
  | [] => [t.scene]
  | e :: rest => t.scene :: (t.handle e).scenes rest

variable {s t : Turn} {v : Visitor} {i : Input}

/-- An aside adds to the reports of the turn and changes nothing else. -/
theorem feed_aside (hmachine : t.node.machine = .visitor v) (haside : v.isAside i = true) :
    t.feed i = { t with notices := t.notices ++ i.hearsay?.toList } := by
  have hreact (m : Moment) : t.node.machine.react m i = (t.node.machine, i.hearsay?.toList.map .emit) := by
    rw [hmachine, Machine.react, Visitor.react_aside haside]
  have hreports : ∀ heard : Option Notice, Action.sent (heard.toList.map .emit) = [] ∧
      Action.emitted (heard.toList.map .emit) = heard.toList ∧
      ∀ now alarms, Action.alarmsAfter now alarms (heard.toList.map .emit) = alarms := by
    rintro (_ | n) <;> exact ⟨rfl, rfl, fun _ _ => rfl⟩
  obtain ⟨hsent, hemitted, halarms⟩ := hreports i.hearsay?
  have htick : i ≠ .tick := by
    rintro rfl
    cases haside
  rw [feed_eq, hreact, hsent, hemitted, halarms, List.append_nil, Machine.fault?_of_ne_tick _ _ htick, Option.or_none]

/-- What an input makes of the scene depends on nothing but the scene. -/
theorem scene_handle (h : s.scene = t.scene) (e : Moment × Input) : (s.handle e).scene = (t.handle e).scene := by
  simp only [scene, Scene.mk.injEq] at h
  obtain ⟨hmachine, htimers, hsignals, hsent⟩ := h
  simp only [scene, handle, feed_eq, hmachine, htimers, hsignals, hsent]

/-- Turns in the same scene are led through the same scenes. -/
theorem scenes_congr (h : s.scene = t.scene) (events : List (Moment × Input)) :
    s.scenes events = t.scenes events := by
  induction events generalizing s t with
  | nil => rw [scenes, scenes, h]
  | cons e rest ih => rw [scenes, scenes, h, ih (scene_handle h e)]

/-- Turns in the same scene are led to the same scene. -/
theorem scene_foldl_handle (h : s.scene = t.scene) (events : List (Moment × Input)) :
    (events.foldl handle s).scene = (events.foldl handle t).scene := by
  induction events generalizing s t with
  | nil => exact h
  | cons e rest ih => exact ih (scene_handle h e)

/-- The scene stays the same when an aside is handled. -/
theorem scene_handle_aside (hmachine : t.node.machine = .visitor v) {e : Moment × Input}
    (haside : v.isAside e.2 = true) : (t.handle e).scene = t.scene := by
  rw [handle, feed_aside (t := { t with node := { t.node with now := e.1.now, tick := e.1.tick } }) hmachine haside]
  rfl

/-- A visitor that handles an input is where its reaction leads. -/
theorem machine_handle (hmachine : t.node.machine = .visitor v) (e : Moment × Input) :
    (t.handle e).node.machine = .visitor (v.react e.1 e.2).1 := by
  change (t.node.machine.react _ _).1 = _
  rw [hmachine]
  rfl

/-- The first of the scenes is where the turn stands. -/
theorem exists_scenes_eq (t : Turn) (events : List (Moment × Input)) :
    ∃ later, t.scenes events = t.scene :: later := by
  cases events with
  | nil => exact ⟨[], rfl⟩
  | cons e rest => exact ⟨_, rfl⟩

/-- Without repetitions, the scenes of a row begin with the present one if the first input changes it. -/
theorem destutter_scenes_cons (t : Turn) (e : Moment × Input) (rest : List (Moment × Input)) :
    (t.scenes (e :: rest)).destutter (· ≠ ·) =
      if t.scene = (t.handle e).scene then ((t.handle e).scenes rest).destutter (· ≠ ·)
      else t.scene :: ((t.handle e).scenes rest).destutter (· ≠ ·) := by
  obtain ⟨later, hlater⟩ := (t.handle e).exists_scenes_eq rest
  rw [scenes, hlater, List.destutter_cons_cons, List.destutter_cons']
  by_cases hstays : t.scene = (t.handle e).scene
  · rw [if_neg (not_not_intro hstays), if_pos hstays, hstays]
  · rw [if_pos hstays, if_neg hstays]

/-- What is attended to leads to the scene to which the whole row leads, and through the same scenes. -/
theorem scenes_attended (hmachine : t.node.machine = .visitor v) (events : List (Moment × Input)) :
    ((v.attended events).foldl handle t).scene = (events.foldl handle t).scene ∧
      (t.scenes (v.attended events)).destutter (· ≠ ·) = (t.scenes events).destutter (· ≠ ·) := by
  induction events generalizing t v with
  | nil => exact ⟨rfl, rfl⟩
  | cons e rest ih =>
    rw [Visitor.attended]
    split
    · next haside =>
      have hscene := scene_handle_aside hmachine haside
      obtain ⟨hfinal, hway⟩ := ih hmachine
      refine ⟨hfinal.trans (scene_foldl_handle hscene.symm rest), ?_⟩
      rw [hway, destutter_scenes_cons, if_pos hscene.symm, scenes_congr hscene]
    · obtain ⟨hfinal, hway⟩ := ih (machine_handle hmachine e)
      exact ⟨hfinal, by rw [destutter_scenes_cons, destutter_scenes_cons, hway]⟩

/-- An aside leaves the whole state of a visitor, its timers, their pending signals and what it has to send as they
are, and adds at most a report of what was heard. So two rows of inputs that are the same once the asides are left
out lead to the same state, timers, signals and messages, and but for repetitions they lead there by the same
way. -/
theorem booth_alone_steers (hmachine : t.node.machine = .visitor v) :
    (∀ i, v.isAside i = true → t.feed i = { t with notices := t.notices ++ i.hearsay?.toList }) ∧
      ∀ first second, v.attended first = v.attended second →
        (first.foldl handle t).scene = (second.foldl handle t).scene ∧
          (t.scenes first).destutter (· ≠ ·) = (t.scenes second).destutter (· ≠ ·) := by
  refine ⟨fun i haside => feed_aside hmachine haside, fun first second hsame => ?_⟩
  obtain ⟨hfirst, hfirstWay⟩ := scenes_attended hmachine first
  obtain ⟨hsecond, hsecondWay⟩ := scenes_attended hmachine second
  rw [hsame] at hfirst hfirstWay
  exact ⟨hfirst.symm.trans hsecond, hfirstWay.symm.trans hsecondWay⟩

/-- A visitor that waits for the answer of booth 1 to its registration. -/
def registering : Turn where
  node :=
    { rules := .brisk
      machine := .visitor { Visitor.ofRules ⟨4⟩ .brisk with phase := .connected ⟨1⟩ .registration }
      inbox := .empty 16 8
      timers := { retry := .start ⟨50⟩ ⟨300⟩ } }

/-- An answer of booth 2, an alert of booth 3 and chat of visitor 9 come before the answer of booth 1. -/
def strayAnswers : List (Moment × Input) :=
  [(⟨⟨60⟩, 3⟩, .message ⟨2⟩ (.registerResponse true .success) (-50) 5),
    (⟨⟨70⟩, 4⟩, .message ⟨3⟩ .timeoutAlert (-50) 5),
    (⟨⟨80⟩, 5⟩, .message ⟨9⟩ (.chat none "hello") (-50) 5),
    (⟨⟨90⟩, 6⟩, .message ⟨1⟩ (.registerResponse false .fullWaiting) (-50) 5)]

/-- The visitor goes to the queue of booth 1 as if that answer had come alone. -/
theorem booth_alone_steers_strayAnswers :
    let alone := strayAnswers.drop 3
    let chat : Input := .message ⟨9⟩ (.chat none "hello") (-50) 5
    registering.feed chat = { registering with notices := [.chatReceived ⟨9⟩ none "hello"] } ∧
      (strayAnswers.foldl handle registering).scene = (alone.foldl handle registering).scene ∧
      (registering.scenes strayAnswers).destutter (· ≠ ·) = (registering.scenes alone).destutter (· ≠ ·) ∧
      ((registering.scenes strayAnswers).length, (registering.scenes alone).length) = (5, 2) ∧
      (alone.foldl handle registering).scene.machine.snapshot ≠ registering.scene.machine.snapshot := by
  intro alone chat
  obtain ⟨haside, hsame⟩ := booth_alone_steers (t := registering) rfl
  obtain ⟨hfinal, hway⟩ := hsame strayAnswers alone (by decide)
  exact ⟨haside chat (by decide), hfinal, hway, rfl, by decide⟩

end Turn

end BoothFloor
