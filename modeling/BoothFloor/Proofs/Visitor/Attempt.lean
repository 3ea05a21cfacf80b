import BoothFloor.Proofs.Visitor.Timers
import Mathlib.Data.List.Induction

/-!
# How often a booth is asked

An attempt at a booth begins with a request and goes on for as long as the visitor awaits the answer. An
overdue answer spends one of the retries that the rules allow, or ends the attempt if none is left, and
nothing else asks the booth in between: so far as the answer is still out, the booth was asked once more than
retries were spent. And a visitor awaits no answer outside an attempt.
-/

namespace BoothFloor

namespace RetryStage

/-- The request whose answer is awaited. -/
def request : RetryStage → Message
  | connect => .connectRequest
  | register => .registerRequest

/-- The booths to which some actions send the request, in order. -/
def asked (stage : RetryStage) (acts : List Action) : List NodeId :=
  (Action.sent acts).filterMap fun (dest, m) => if m = stage.request then some dest else none

/-- First one row of actions asks, then the other. -/
theorem asked_append (stage : RetryStage) (first second : List Action) :
    stage.asked (first ++ second) = stage.asked first ++ stage.asked second := by
  rw [asked, Action.sent_append, List.filterMap_append]
  rfl

end RetryStage

/-- How often a request may be repeated. -/
def Rules.retryLimit (r : Rules) : RetryStage → Nat
  | .connect => r.connectRetryLimit.toNat
  | .register => r.registerRetryLimit.toNat

/-- Whether a notice reports that a booth was asked in vain. -/
def Notice.isExhausted : Notice → Bool
  | retriesExhausted _ _ => true
  | _ => false

namespace Visitor

/-- How often the request was repeated. -/
def retries (v : Visitor) : RetryStage → Nat
  | .connect => v.connectRetries
  | .register => v.registerRetries

/-- The booth whose answer to the request is awaited. -/
def awaited? (v : Visitor) : RetryStage → Option NodeId
  | .connect =>
    match v.phase with
    | .connected booth .boothInfo => some booth
    | _ => none
  | .register => v.registering?

/-- The inputs with which an attempt at a booth begins: its choice among the booths that were heard, its
introduction if it is accepted at once, the word of the person at the console, and the offer of a slot. -/
inductive Begins (v : Visitor) (m : Moment) : Input → NodeId → RetryStage → Prop
  | selects (i : Input) (booth : NodeId) (score : Int)
      (hselected : .emit (.boothSelected booth score) ∈ (v.react m i).2) : Begins v m i booth .connect
  | accepts (booth : NodeId) (current capacity waiting : UInt8) (description : String) (rssi : Int16)
      (snr : Int8) (hphase : v.phase = .connected booth .boothInfo) (hauto : v.rules.autoAffirm = true) :
      Begins v m (.message booth (.boothInfo current capacity waiting description) rssi snr) booth .register
  | affirms (booth : NodeId) (hphase : v.phase = .connected booth .decision) :
      Begins v m (.intent .affirm) booth .register
  | claims (booth : NodeId) (claiming : Bool) (place : Option Place) (rssi : Int16) (snr : Int8)
      (hphase : v.phase = .waiting booth claiming place) :
      Begins v m (.message booth .queueReady rssi snr) booth .register

/-- A visitor awaits the answer of a booth all along some inputs, none of which begins another attempt. -/
def Pursues (booth : NodeId) (stage : RetryStage) : Visitor → List (Moment × Input) → Prop
  | _, [] => True
  | v, e :: rest =>
    v.awaited? stage = some booth ∧ (∀ other, ¬ v.Begins e.1 e.2 other stage) ∧
      Pursues booth stage (v.react e.1 e.2).1 rest

/-- An attempt at a booth: the input with which it begins, and inputs along which the visitor awaits the
answer. The last of them may be the one that ends it. -/
def Attempts (booth : NodeId) (stage : RetryStage) (v : Visitor) : List (Moment × Input) → Prop
  | [] => False
  | e :: rest => v.Begins e.1 e.2 booth stage ∧ (v.react e.1 e.2).1.Pursues booth stage rest

/-- No retry is spent before the person at the console has decided. -/
def DecidesAfresh (v : Visitor) : Prop := ∀ booth, v.phase = .connected booth .decision → v.registerRetries = 0

variable {v : Visitor} {m : Moment} {i : Input} {b : NodeId} {stage : RetryStage} {events : List (Moment × Input)}

/-- A new visitor has nothing to decide. -/
theorem decidesAfresh_ofRules (id : NodeId) (r : Rules) : (ofRules id r).DecidesAfresh := nofun

/-- Every reaction leaves the decision a fresh one. -/
theorem react_decidesAfresh (h : v.DecidesAfresh) (m : Moment) (i : Input) : (v.react m i).1.DecidesAfresh := by
  have hreaction := v.react_reaction m i
  generalize v.react m i = outcome at hreaction
  cases hreaction with
  | idle | chats | answers | showsText | showsChat | showsExit | starts | rescans | hears | findsNone | reconnects =>
    exact h
  | consults => exact fun _ _ => rfl
  | reaffirms booth hphase | reclaims booth place hphase =>
    intro other hother
    rw [show v.phase = _ from hother] at hphase
    cases hphase
  | _ => nofun

/-- The beginning of an attempt asks the booth once, and no retry is spent yet. -/
theorem Begins.asks (h : v.Begins m i b stage) (hfresh : v.DecidesAfresh) :
    stage.asked (v.react m i).2 = [b] ∧ (v.react m i).1.awaited? stage = some b ∧
      (v.react m i).1.retries stage = 0 := by
  cases h with
  | selects i booth score hselected =>
    have hreaction := v.react_reaction m i
    generalize v.react m i = outcome at hreaction hselected
    cases hreaction with
    | connects other =>
      obtain rfl : b = other := by
        simp [connectActions] at hselected
        exact hselected.1
      exact ⟨rfl, rfl, rfl⟩
    | starts | rescans => simp [startScan] at hselected
    | queues =>
      dsimp only at hselected
      split at hselected <;> simp at hselected
    | _ => simp [connectActions, registerActions, affirmActions, freedActions] at hselected
  | accepts booth current capacity waiting description rssi snr hphase hauto =>
    have hbooth : v.booth? = some b := by rw [booth?, hphase]; rfl
    have hreact : v.react m (.message b (.boothInfo current capacity waiting description) rssi snr) =
        v.onBoothInfo current capacity waiting description := if_pos hbooth
    rw [hreact, onBoothInfo, hphase]
    simp only [hauto, if_true]
    exact ⟨rfl, rfl, rfl⟩
  | affirms booth hphase =>
    have hreact : v.react m (.intent .affirm) =
        ({ v with phase := .connected b .registration }, v.affirmActions b) := by
      change v.onIntent m.tick .affirm = _
      simp only [onIntent, hphase]
    rw [hreact]
    exact ⟨rfl, rfl, hfresh b hphase⟩
  | claims booth claiming place rssi snr hphase =>
    have hbooth : v.booth? = some b := by rw [booth?, hphase]; rfl
    have hreact : v.react m (.message b .queueReady rssi snr) = v.onQueueReady := if_pos hbooth
    rw [hreact, onQueueReady, hphase]
    exact ⟨rfl, rfl, rfl⟩

/-- What a reaction can do about a request: it begins an attempt, it repeats the request and spends a retry, or
it asks nobody and leaves the retries alone as long as the answer is out. -/
inductive Asking (v : Visitor) (m : Moment) (i : Input) (stage : RetryStage) (outcome : Visitor × List Action) : Prop
  | begins (booth : NodeId) (hbegins : v.Begins m i booth stage)
  | repeats (booth : NodeId) (hawaits : v.awaited? stage = some booth)
      (hlimit : v.retries stage < v.rules.retryLimit stage) (hasked : stage.asked outcome.2 = [booth])
      (hstill : outcome.1.awaited? stage = some booth) (hspent : outcome.1.retries stage = v.retries stage + 1)
  | passes (hasked : stage.asked outcome.2 = [])
      (hstill : ∀ booth, outcome.1.awaited? stage = some booth →
        v.awaited? stage = some booth ∧ outcome.1.retries stage = v.retries stage)

/-- A reaction that asks nobody and leaves no answer out leaves the request alone. -/
theorem Asking.passes_of_none {outcome : Visitor × List Action} (hasked : stage.asked outcome.2 = [])
    (hnone : outcome.1.awaited? stage = none) : v.Asking m i stage outcome := by
  refine .passes hasked fun booth hstill => ?_
  rw [hnone] at hstill
  cases hstill

/-- Every reaction is of one of these kinds. -/
theorem react_asking (v : Visitor) (m : Moment) (i : Input) (stage : RetryStage) :
    v.Asking m i stage (v.react m i) := by
  have hreaction := v.react_reaction m i
  generalize hout : v.react m i = outcome at hreaction
  cases hreaction with
  | idle | chats | answers | showsText | showsChat | showsExit | hears | findsNone =>
    exact .passes (by cases stage <;> rfl) fun _ hstill => ⟨hstill, rfl⟩
  | starts | rescans =>
    refine .passes ?_ fun _ hstill => ⟨hstill, rfl⟩
    rw [RetryStage.asked, startScan_sent, List.filterMap_map]
    cases stage <;> simp [RetryStage.request, Function.comp_def]
  | connects booth score hphase hopen hchoice =>
    cases stage with
    | connect => exact .begins booth (.selects _ booth score (by rw [hout]; exact List.mem_cons_self))
    | register => exact .passes_of_none rfl rfl
  | reconnects booth hphase hlimit =>
    have hawaits : v.awaited? .connect = some booth := by rw [awaited?, hphase]
    cases stage with
    | connect => exact .repeats booth hawaits hlimit rfl hawaits rfl
    | register => exact .passes rfl fun _ hstill => ⟨hstill, rfl⟩
  | accepts booth current capacity waiting description rssi snr hphase hauto =>
    cases stage with
    | connect => exact .passes_of_none rfl rfl
    | register => exact .begins booth (.accepts booth current capacity waiting description rssi snr hphase hauto)
  | consults => exact .passes_of_none (by cases stage <;> rfl) (by cases stage <;> rfl)
  | affirms booth hphase =>
    cases stage with
    | connect => exact .passes_of_none rfl rfl
    | register => exact .begins booth (.affirms booth hphase)
  | reaffirms booth hphase hlimit | reclaims booth place hphase hlimit =>
    have hawaits : v.awaited? .register = some booth := by rw [awaited?, registering?, hphase]
    cases stage with
    | connect => exact .passes rfl fun _ hstill => ⟨hstill, rfl⟩
    | register => exact .repeats booth hawaits hlimit rfl hawaits rfl
  | claims booth claiming place rssi snr hphase =>
    cases stage with
    | connect => exact .passes_of_none rfl rfl
    | register => exact .begins booth (.claims booth claiming place rssi snr hphase)
  | placed booth message position total claiming place rssi snr hmessage hphase =>
    refine .passes (by cases stage <;> rfl) fun other hstill => ⟨?_, rfl⟩
    cases stage with
    | connect => cases hstill
    | register =>
      rw [← hstill, awaited?, registering?, hphase]
      cases claiming <;> rfl
  | queues =>
    refine .passes_of_none ?_ (by cases stage <;> rfl)
    dsimp only
    split <;> cases stage <;> rfl
  | enters | refused =>
    rw [markSpent_eq]
    exact .passes_of_none (by cases stage <;> rfl) (by cases stage <;> rfl)
  | _ => exact .passes_of_none (by cases stage <;> rfl) (by cases stage <;> rfl)

/-- An attempt may go on with one more input as long as the answer is out. -/
theorem pursues_concat {e : Moment × Input} : v.Pursues b stage (events ++ [e]) ↔
    v.Pursues b stage events ∧
      (v.run events).1.awaited? stage = some b ∧ ∀ other, ¬ (v.run events).1.Begins e.1 e.2 other stage := by
  induction events generalizing v with
  | nil => simp [Pursues, run, runWith]
  | cons first rest ih => simp only [List.cons_append, Pursues, ih, run_cons, and_assoc]

/-- Along an attempt the booth is asked within the limit of retries, and no other booth is. -/
theorem Pursues.asked (h : v.Pursues b stage events) (hnew : v.retries stage = 0) :
    ∃ k ≤ v.rules.retryLimit stage, stage.asked (v.run events).2 = List.replicate k b ∧
      ((v.run events).1.awaited? stage = some b → (v.run events).1.retries stage = k) := by
  induction events using List.reverseRecOn with
  | nil => exact ⟨0, Nat.zero_le _, rfl, fun _ => hnew⟩
  | append_singleton events e ih =>
    obtain ⟨hbefore, hawaits, hother⟩ := pursues_concat.mp h
    obtain ⟨k, hk, hasked, hretries⟩ := ih hbefore
    have hlast := (v.run events).1.react_asking e.1 e.2 stage
    rw [run_append_singleton, RetryStage.asked_append, hasked]
    cases hlast with
    | begins booth hbegins => exact absurd hbegins (hother booth)
    | repeats booth hasks hlimit hagain hstill hspent =>
      obtain rfl := Option.some.inj (hawaits.symm.trans hasks)
      rw [hretries hawaits] at hlimit hspent
      rw [run_rules] at hlimit
      refine ⟨k + 1, hlimit, ?_, fun _ => hspent⟩
      rw [hagain, List.replicate_succ']
    | passes hnone hstill =>
      refine ⟨k, hk, by rw [hnone, List.append_nil], fun hafter => ?_⟩
      rw [(hstill b hafter).2, hretries hawaits]

/-- In an attempt the booth is asked once more than the rules allow retries at the most, and no other booth is.
While the answer is out, it was asked once more than retries were spent. -/
theorem Attempts.asked (h : v.Attempts b stage events) (hfresh : v.DecidesAfresh) :
    ∃ k ≤ v.rules.retryLimit stage, stage.asked (v.run events).2 = List.replicate (k + 1) b ∧
      ((v.run events).1.awaited? stage = some b → (v.run events).1.retries stage = k) := by
  cases events with
  | nil => exact h.elim
  | cons e during =>
    obtain ⟨hbegins, hpursues⟩ := h
    obtain ⟨hfirst, -, hnew⟩ := hbegins.asks hfresh
    obtain ⟨k, hk, hlater, hretries⟩ := hpursues.asked hnew
    rw [react_rules] at hk
    refine ⟨k, hk, ?_, hretries⟩
    rw [run_cons, RetryStage.asked_append, hfirst, hlater]
    rfl

/-- An attempt may go on with one more input as long as the answer is out. -/
theorem Attempts.concat (h : v.Attempts b stage events) {e : Moment × Input}
    (hawaits : (v.run events).1.awaited? stage = some b)
    (hother : ∀ other, ¬ (v.run events).1.Begins e.1 e.2 other stage) : v.Attempts b stage (events ++ [e]) := by
  cases events with
  | nil => exact h.elim
  | cons first during => exact ⟨h.1, pursues_concat.mpr ⟨h.2, hawaits, hother⟩⟩

/-- A run leaves the decision a fresh one. -/
theorem run_decidesAfresh (h : v.DecidesAfresh) (events : List (Moment × Input)) : (v.run events).1.DecidesAfresh :=
  runWith_keeps h fun _ m i _ hw => react_decidesAfresh hw m i

/-- What was asked in an attempt of a new visitor. -/
theorem asked_of_attempt {id : NodeId} {r : Rules} {before attempt : List (Moment × Input)}
    (h : ((ofRules id r).run before).1.Attempts b stage attempt) :
    ∃ k ≤ r.retryLimit stage, stage.asked (((ofRules id r).run before).1.run attempt).2 = List.replicate (k + 1) b ∧
      (((ofRules id r).run (before ++ attempt)).1.awaited? stage = some b →
        ((ofRules id r).run (before ++ attempt)).1.retries stage = k) := by
  have hbound := h.asked (run_decidesAfresh (decidesAfresh_ofRules id r) before)
  rw [run_rules] at hbound
  rw [run_append]
  exact hbound

/-- A visitor that awaits an answer is in the middle of an attempt, unless it awaited the answer from the outset. -/
theorem exists_attempt (hfresh : v.DecidesAfresh) (hidle : v.awaited? stage = none)
    (hawaits : (v.run events).1.awaited? stage = some b) :
    ∃ before attempt, events = before ++ attempt ∧ (v.run before).1.Attempts b stage attempt := by
  induction events using List.reverseRecOn with
  | nil => exact absurd (hidle.symm.trans hawaits) (by simp)
  | append_singleton events e ih =>
    rw [run_append_singleton] at hawaits
    by_cases hnew : ∃ other, (v.run events).1.Begins e.1 e.2 other stage
    · obtain ⟨other, hbegins⟩ := hnew
      obtain ⟨-, hother, -⟩ := hbegins.asks (run_decidesAfresh hfresh events)
      obtain rfl := Option.some.inj (hother.symm.trans hawaits)
      exact ⟨events, [e], rfl, hbegins, trivial⟩
    · rw [not_exists] at hnew
      have hbefore : (v.run events).1.awaited? stage = some b := by
        cases (v.run events).1.react_asking e.1 e.2 stage with
        | begins other hbegins => exact absurd hbegins (hnew other)
        | repeats other hasks _ _ hstill => exact hasks.trans (hstill.symm.trans hawaits)
        | passes _ hstill => exact (hstill b hawaits).1
      obtain ⟨before, attempt, rfl, hattempts⟩ := ih hbefore
      rw [run_append] at hbefore hnew
      exact ⟨before, attempt ++ [e], List.append_assoc _ _ _, hattempts.concat hbefore hnew⟩

/-- A visitor awaits the introduction of a booth in view, or the answer to a registration from there or from the
queue. -/
theorem phase_of_awaited? (h : v.awaited? stage = some b) :
    stage = .connect ∧ v.phase = .connected b .boothInfo ∨
      stage = .register ∧ (v.phase = .connected b .registration ∨ ∃ place, v.phase = .waiting b true place) := by
  cases stage with
  | connect =>
    refine .inl ⟨rfl, ?_⟩
    unfold awaited? at h
    cases hphase : v.phase with
    | connected booth awaiting => cases awaiting <;> simp_all
    | _ => simp [hphase] at h
  | register =>
    refine .inr ⟨rfl, ?_⟩
    unfold awaited? registering? at h
    cases hphase : v.phase with
    | connected booth awaiting => cases awaiting <;> simp_all
    | waiting booth claiming place => cases claiming <;> simp_all
    | _ => simp [hphase] at h

/-- Whoever waits for an answer awaits that of a booth. -/
theorem awaited?_of_awaitsAnswer (h : v.phase.awaitsAnswer = true) : ∃ stage booth, v.awaited? stage = some booth := by
  cases hphase : v.phase with
  | connected booth awaiting =>
    cases awaiting with
    | boothInfo => exact ⟨.connect, booth, by rw [awaited?, hphase]⟩
    | registration => exact ⟨.register, booth, by rw [awaited?, registering?, hphase]⟩
    | decision => simp [hphase, Phase.awaitsAnswer] at h
  | waiting booth claiming place =>
    obtain rfl : claiming = true := by rwa [hphase] at h
    exact ⟨.register, booth, by rw [awaited?, registering?, hphase]⟩
  | _ => simp [hphase, Phase.awaitsAnswer] at h

/-- When no answer has come, the booth is asked once more as long as a retry is left. -/
theorem react_overdue_of_lt (hawaits : v.awaited? stage = some b) (hleft : v.retries stage < v.rules.retryLimit stage)
    (m : Moment) :
    stage.asked (v.react m (.timer .retry)).2 = [b] ∧ Action.emitted (v.react m (.timer .retry)).2 = [] ∧
      (v.react m (.timer .retry)).1.awaited? stage = some b := by
  change stage.asked (v.onRetryTimeout m.tick).2 = _ ∧ Action.emitted (v.onRetryTimeout m.tick).2 = _ ∧
    (v.onRetryTimeout m.tick).1.awaited? stage = _
  rcases phase_of_awaited? hawaits with ⟨rfl, hphase⟩ | ⟨rfl, hphase | ⟨place, hphase⟩⟩ <;>
  · simp only [retries, Rules.retryLimit] at hleft
    simp only [onRetryTimeout, hphase, if_pos hleft]
    exact ⟨rfl, rfl, rfl⟩

/-- When no answer has come and no retry is left, the visitor gives up on the booth and leaves its queue. -/
theorem react_overdue_of_le (hawaits : v.awaited? stage = some b) (hspent : v.rules.retryLimit stage ≤ v.retries stage)
    (m : Moment) :
    v.react m (.timer .retry) = (v.freed m.tick,
      (if v.stage = .waiting then [.send b .queueLeave] else []) ++
        .emit (.retriesExhausted b stage) :: v.freedActions) := by
  change v.onRetryTimeout m.tick = _
  rw [← Nat.not_lt] at hspent
  rcases phase_of_awaited? hawaits with ⟨rfl, hphase⟩ | ⟨rfl, hphase | ⟨place, hphase⟩⟩ <;>
  · have hstage : v.stage ≠ .scanning := stage_ne_scanning (by rw [booth?, hphase]; rfl)
    simp only [retries, Rules.retryLimit] at hspent
    simp only [onRetryTimeout, hphase, if_neg hspent, giveUp, andThen, backToScanning_eq m.tick hstage]
    rw [stage, hphase]
    rfl

/-- A visitor in whom nothing is left of a booth: it scans, with no window open yet. -/
structure Cleared (v : Visitor) : Prop where
  scans : v.stage = .scanning ∧ v.scanOpen = false
  booth : v.booth? = none
  sightings : v.sightings.entries = []
  retries : ∀ stage, v.retries stage = 0
  place : v.snapshot.position = 0 ∧ v.snapshot.total = 0

/-- Whoever drops a booth keeps nothing of it. -/
theorem cleared_freed (v : Visitor) (tick : Nat) : (v.freed tick).Cleared where
  scans := ⟨rfl, rfl⟩
  booth := rfl
  sightings := rfl
  retries := fun stage => by cases stage <;> rfl
  place := ⟨rfl, rfl⟩

/-- For the rest of the step in which it has dropped a booth a visitor stays as it is. -/
theorem react_freed (v : Visitor) (interval : 0 < v.rules.scanInterval.toNat) (m : Moment)
    (hlate : i = .tick ∨ ∃ intent, i = .intent intent) : ((v.freed m.tick).react m i).1 = v.freed m.tick := by
  have hreaction := (v.freed m.tick).react_reaction m i
  generalize (v.freed m.tick).react m i = outcome at hreaction
  cases hreaction with
  | idle | chats | answers | showsText | showsChat | showsExit => rfl
  | rescans _ _ hdue =>
    -- the interval starts with this very tick
    have hdue : v.rules.scanInterval.toNat ≤ m.tick - m.tick := hdue
    omega
  | affirms _ hphase | declines _ _ hphase | leaves _ _ _ hphase | exits _ _ hphase | expires _ _ hphase => cases hphase
  | _ => simp at hlate

/-- Only an overdue answer makes a visitor give up. -/
theorem not_exhausted_of_react (v : Visitor) (m : Moment) {i : Input} (hother : i ≠ .timer .retry) :
    (Action.emitted (v.react m i).2).filter Notice.isExhausted = [] := by
  have hreaction := v.react_reaction m i
  generalize v.react m i = outcome at hreaction
  cases hreaction with
  | reconnects | losesBooth | reaffirms | givesUp | reclaims | abandons => exact absurd rfl hother
  | starts | rescans => rw [startScan_emitted]; rfl
  | queues =>
    dsimp only
    split <;> rfl
  | _ => rfl

/-- Without an overdue answer a visitor gives up in no row of inputs. -/
theorem not_exhausted_of_run (v : Visitor) (m : Moment) {inputs : List Input}
    (hother : ∀ i ∈ inputs, i ≠ .timer .retry) :
    (Action.emitted (v.run (inputs.map (m, ·))).2).filter Notice.isExhausted = [] := by
  induction inputs generalizing v with
  | nil => rfl
  | cons i rest ih =>
    rw [List.map_cons, run_cons, Action.emitted_append, List.filter_append,
      v.not_exhausted_of_react m (hother i List.mem_cons_self),
      ih _ fun j hj => hother j (List.mem_cons_of_mem _ hj)]
    rfl

/-- For the rest of its step a visitor that has dropped a booth stays as it is. -/
theorem run_freed (v : Visitor) (interval : 0 < v.rules.scanInterval.toNat) (m : Moment) {late : List Input}
    (hlate : ∀ i ∈ late, i = .tick ∨ ∃ intent, i = .intent intent) :
    ((v.freed m.tick).run (late.map (m, ·))).1 = v.freed m.tick :=
  runWith_keeps_at (P := fun w => w = v.freed m.tick) rfl fun w i hi hw => by
    rw [hw]
    exact v.react_freed interval m (hlate i hi)

end Visitor

end BoothFloor
