import BoothFloor.Node
import BoothFloor.Proofs.Action
import Mathlib.Algebra.GroupWithZero.Nat

/-!
# Runs of a state machine

A run hands a machine one input after another, each with the moment at which it is handled, and
collects the actions in order. What a single reaction keeps, a whole run keeps.
-/

namespace BoothFloor

/-- The inputs are messages. -/
def AllMessages (inputs : List Input) : Prop :=
  ∀ i ∈ inputs, ∃ source message rssi snr, i = .message source message rssi snr

/-- The inputs from the air and from the timers. -/
def Input.isExternal : Input → Bool
  | message .. | timer _ => true
  | _ => false

variable {σ : Type}

/-- The state after some inputs, and all actions on the way. -/
def runWith (react : σ → Moment → Input → σ × List Action) : σ → List (Moment × Input) → σ × List Action
  | s, [] => (s, [])
  | s, e :: rest => andThen (react s e.1 e.2) (runWith react · rest)

/-- A run over two rows of inputs is the one after the other. -/
theorem runWith_append (react : σ → Moment → Input → σ × List Action) (s : σ)
    (first second : List (Moment × Input)) :
    runWith react s (first ++ second) = andThen (runWith react s first) (runWith react · second) := by
  induction first generalizing s with
  | nil => rfl
  | cons e rest ih =>
    simp only [List.cons_append, runWith, ih, andThen, List.append_assoc]

/-- A run over one input is the reaction to it. -/
theorem runWith_singleton (react : σ → Moment → Input → σ × List Action) (s : σ) (m : Moment) (i : Input) :
    runWith react s [(m, i)] = react s m i := by
  simp only [runWith, andThen, List.append_nil]

/-- A run over one more input ends with the reaction to it. -/
theorem runWith_concat (react : σ → Moment → Input → σ × List Action) (s : σ) (m : Moment)
    (inputs : List Input) (i : Input) :
    runWith react s ((inputs ++ [i]).map (m, ·)) =
      andThen (runWith react s (inputs.map (m, ·))) (react · m i) := by
  rw [List.map_append, runWith_append]
  simp only [andThen, List.map_singleton, runWith_singleton]

/-- What every reaction to one of the inputs keeps, the run keeps. -/
theorem runWith_keeps {react : σ → Moment → Input → σ × List Action} {P : σ → Prop}
    {events : List (Moment × Input)} {s : σ} (hs : P s)
    (hstep : ∀ s m i, (m, i) ∈ events → P s → P (react s m i).1) : P (runWith react s events).1 := by
  induction events generalizing s with
  | nil => exact hs
  | cons e rest ih =>
    exact ih (hstep s e.1 e.2 List.mem_cons_self hs) fun s m i hmem =>
      hstep s m i (List.mem_cons_of_mem _ hmem)

/-- What every reaction at a moment to one of the inputs keeps, the run over them at that moment keeps. -/
theorem runWith_keeps_at {react : σ → Moment → Input → σ × List Action} {P : σ → Prop} {m : Moment}
    {inputs : List Input} {s : σ} (hs : P s) (hstep : ∀ s, ∀ i ∈ inputs, P s → P (react s m i).1) :
    P (runWith react s (inputs.map (m, ·))).1 := by
  refine runWith_keeps hs fun s m' i hmem hkept => ?_
  obtain ⟨j, hj, heq⟩ := List.mem_map.mp hmem
  obtain ⟨rfl, rfl⟩ := Prod.mk.inj heq
  exact hstep s j hj hkept

/-- What a run sends it sends in reaction to one of the inputs, in the state to which those before it have led. -/
theorem exists_of_mem_sent {react : σ → Moment → Input → σ × List Action} {s : σ} {events : List (Moment × Input)}
    {x : NodeId × Message} (h : x ∈ Action.sent (runWith react s events).2) :
    ∃ before m i after, events = before ++ (m, i) :: after ∧
      x ∈ Action.sent (react (runWith react s before).1 m i).2 := by
  induction events generalizing s with
  | nil => cases h
  | cons e rest ih =>
    rw [runWith, andThen, Action.sent_append, List.mem_append] at h
    rcases h with hfirst | hlater
    · exact ⟨[], e.1, e.2, rest, rfl, hfirst⟩
    · obtain ⟨before, m, i, after, rfl, hx⟩ := ih hlater
      exact ⟨e :: before, m, i, after, rfl, hx⟩

/-- If every reaction pays for the messages of a kind that it sends out of a potential and the cost of
its input, the run pays for all of them out of the first potential and the costs of all inputs. -/
theorem runWith_charges (react : σ → Moment → Input → σ × List Action) {P : σ → Prop}
    (counts : NodeId × Message → Bool) (pot : σ → Nat) (cost : Input → Nat)
    (events : List (Moment × Input)) {s : σ} (hs : P s)
    (hkeeps : ∀ s m i, (m, i) ∈ events → P s → P (react s m i).1)
    (hstep : ∀ s m i, (m, i) ∈ events → P s →
      (Action.sent (react s m i).2).countP counts + pot (react s m i).1 ≤ pot s + cost i) :
    (Action.sent (runWith react s events).2).countP counts + pot (runWith react s events).1 ≤
      pot s + (events.map fun e => cost e.2).sum := by
  induction events generalizing s with
  | nil => simp [runWith]
  | cons e rest ih =>
    have hfirst := hstep s e.1 e.2 List.mem_cons_self hs
    have hrest := ih (hkeeps s e.1 e.2 List.mem_cons_self hs)
      (fun s m i hmem => hkeeps s m i (List.mem_cons_of_mem _ hmem))
      (fun s m i hmem => hstep s m i (List.mem_cons_of_mem _ hmem))
    simp only [runWith, andThen, Action.sent_append, List.countP_append, List.map_cons, List.sum_cons]
    omega

/-- A host's run. -/
def Host.run (h : Host) (events : List (Moment × Input)) : Host × List Action := runWith Host.react h events

/-- A host's run goes on from the reaction to the first input. -/
theorem Host.run_cons (h : Host) (e : Moment × Input) (rest : List (Moment × Input)) :
    h.run (e :: rest) =
      (((h.react e.1 e.2).1.run rest).1, (h.react e.1 e.2).2 ++ ((h.react e.1 e.2).1.run rest).2) := rfl

/-- A host's run over two rows of inputs is the one after the other. -/
theorem Host.run_append (h : Host) (first second : List (Moment × Input)) :
    h.run (first ++ second) =
      (((h.run first).1.run second).1, (h.run first).2 ++ ((h.run first).1.run second).2) :=
  runWith_append Host.react h first second

/-- A host's run over one input is the reaction to it. -/
theorem Host.run_singleton (h : Host) (m : Moment) (i : Input) : h.run [(m, i)] = h.react m i :=
  runWith_singleton Host.react h m i

/-- A visitor's run. -/
def Visitor.run (v : Visitor) (events : List (Moment × Input)) : Visitor × List Action :=
  runWith Visitor.react v events

/-- A visitor's run goes on from the reaction to the first input. -/
theorem Visitor.run_cons (v : Visitor) (e : Moment × Input) (rest : List (Moment × Input)) :
    v.run (e :: rest) =
      (((v.react e.1 e.2).1.run rest).1, (v.react e.1 e.2).2 ++ ((v.react e.1 e.2).1.run rest).2) := rfl

/-- A visitor's run over two rows of inputs is the one after the other. -/
theorem Visitor.run_append (v : Visitor) (first second : List (Moment × Input)) :
    v.run (first ++ second) =
      (((v.run first).1.run second).1, (v.run first).2 ++ ((v.run first).1.run second).2) :=
  runWith_append Visitor.react v first second

/-- A visitor's run over one more input ends with the reaction to it. -/
theorem Visitor.run_append_singleton (v : Visitor) (events : List (Moment × Input)) (e : Moment × Input) :
    v.run (events ++ [e]) =
      (((v.run events).1.react e.1 e.2).1, (v.run events).2 ++ ((v.run events).1.react e.1 e.2).2) := by
  rw [run_append]
  simp only [Visitor.run, runWith, andThen, List.append_nil]

/-- A run of a machine of either role. -/
def Machine.run (s : Machine) (events : List (Moment × Input)) : Machine × List Action :=
  runWith Machine.react s events

/-- A machine's run over two rows of inputs is the one after the other. -/
theorem Machine.run_append (s : Machine) (first second : List (Moment × Input)) :
    s.run (first ++ second) =
      (((s.run first).1.run second).1, (s.run first).2 ++ ((s.run first).1.run second).2) :=
  runWith_append Machine.react s first second

/-- The first fault in a run of a machine, if there is one. -/
def Machine.firstFault (s : Machine) : List (Moment × Input) → Option Fault
  | [] => none
  | e :: rest => (s.fault? e.1 e.2).or ((s.react e.1 e.2).1.firstFault rest)

/-- The first fault in a run over two rows of inputs is the one in the first row, if there is one. -/
theorem Machine.firstFault_append (s : Machine) (first second : List (Moment × Input)) :
    s.firstFault (first ++ second) = (s.firstFault first).or ((s.run first).1.firstFault second) := by
  induction first generalizing s with
  | nil => rfl
  | cons e rest ih =>
    rw [List.cons_append, firstFault, ih, ← Option.or_assoc]
    rfl

/-- Nothing but a tick goes astray. -/
theorem Machine.fault?_of_ne_tick (s : Machine) (m : Moment) {i : Input} (hi : i ≠ .tick) : s.fault? m i = none := by
  cases s with
  | host h => rfl
  | visitor v =>
    cases i with
    | tick => exact absurd rfl hi
    | timer kind => cases kind <;> rfl
    | _ => rfl

/-- A run without a tick does not go astray. -/
theorem Machine.firstFault_of_no_tick (s : Machine) (m : Moment) {inputs : List Input}
    (htick : ∀ i ∈ inputs, i ≠ .tick) : s.firstFault (inputs.map (m, ·)) = none := by
  induction inputs generalizing s with
  | nil => rfl
  | cons i rest ih =>
    rw [List.map_cons, firstFault, s.fault?_of_ne_tick m (htick i List.mem_cons_self), Option.none_or]
    exact ih _ fun j hj => htick j (List.mem_cons_of_mem i hj)

/-- The run of a machine that hosts a booth is the host's run. -/
theorem Machine.run_host (h : Host) (events : List (Moment × Input)) :
    (Machine.host h).run events = (.host (h.run events).1, (h.run events).2) := by
  induction events generalizing h with
  | nil => rfl
  | cons e rest ih =>
    change andThen (Machine.react (.host h) e.1 e.2) (Machine.run · rest) = _
    simp only [Machine.react, andThen, ih]
    rfl

/-- The run of a machine that visits booths is the visitor's run. -/
theorem Machine.run_visitor (v : Visitor) (events : List (Moment × Input)) :
    (Machine.visitor v).run events = (.visitor (v.run events).1, (v.run events).2) := by
  induction events generalizing v with
  | nil => rfl
  | cons e rest ih =>
    change andThen (Machine.react (.visitor v) e.1 e.2) (Machine.run · rest) = _
    simp only [Machine.react, andThen, ih]
    rfl

end BoothFloor
