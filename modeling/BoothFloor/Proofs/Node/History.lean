import BoothFloor.Proofs.Node.Life
import BoothFloor.Proofs.Visitor.Journey

/-!
# The history of a node

All that the machine of a node is given during a life, step after step, makes up one row of inputs. The node
ends with the machine to which the run over this row leads, and what its steps have sent and reported on the
way is what that run asks for. So what holds of the runs of a machine holds of the lives of a node.
-/

namespace BoothFloor

namespace Node

/-- What one happening gives to the machine: the inputs of a step. -/
def given (n : Node) : Happening → List (Moment × Input)
  | .step now _ => n.events now
  | _ => []

/-- All that the machine is given during a life. -/
def history (n : Node) : List Happening → List (Moment × Input)
  | [] => []
  | e :: rest => n.given e ++ (n.undergo e).history rest

/-- What one happening leaves behind besides the node: the outcome of a step. -/
def outcome? (n : Node) : Happening → Option Outcome
  | .step now takes => some (n.step now takes).2
  | _ => none

/-- The outcomes of all steps of a life. -/
def outcomes (n : Node) : List Happening → List Outcome
  | [] => []
  | e :: rest => (n.outcome? e).toList ++ (n.undergo e).outcomes rest

/-- A life of one happening more ends with that happening. -/
theorem live_concat (n : Node) (past : List Happening) (e : Happening) :
    n.live (past ++ [e]) = (n.live past).undergo e := by
  rw [live, List.foldl_append]
  rfl

/-- The outcomes of a life of one happening more are those of the life, and then that of the happening. -/
theorem outcomes_concat (n : Node) (past : List Happening) (e : Happening) :
    n.outcomes (past ++ [e]) = n.outcomes past ++ ((n.live past).outcome? e).toList := by
  induction past generalizing n with
  | nil => simp [outcomes, live]
  | cons first rest ih =>
    rw [List.cons_append, outcomes, outcomes, ih, List.append_assoc]
    rfl

/-- The notices of a life. -/
def notices (n : Node) (past : List Happening) : List Notice := (n.outcomes past).flatMap (·.notices)

/-- The messages of a life, whether or not the link took them. -/
def messages (n : Node) (past : List Happening) : List (NodeId × Message) :=
  (n.outcomes past).flatMap fun o => o.sent.map fun d => (d.dest, d.message)

/-- All messages of a turn are handed to the link. -/
theorem map_dispatch (takes : Nat → Bool) (sent : List (NodeId × Message)) :
    (dispatch takes sent).map (fun d => (d.dest, d.message)) = sent := by
  refine List.ext_getElem (by simp [dispatch]) fun i _ _ => ?_
  simp [dispatch]

/-- The messages of a step come before those of the later ones. -/
theorem messages_step (n : Node) (now : Instant) (takes : Nat → Bool) (rest : List Happening) :
    n.messages (.step now takes :: rest) = (n.turn now).sent ++ (n.step now takes).1.messages rest := by
  change (dispatch takes (n.turn now).sent).map _ ++ messages _ rest = _
  rw [map_dispatch]
  rfl

/-- A step sends what the run over its inputs asks for. -/
theorem step_sent (n : Node) (now : Instant) (takes : Nat → Bool) :
    (n.step now takes).2.sent.map (fun d => (d.dest, d.message)) =
      Action.sent (n.machine.run (n.events now)).2 := by
  change (dispatch takes (n.turn now).sent).map _ = _
  rw [map_dispatch]
  exact (n.turn_run now).2.1

/-- A step reports what the run over its inputs asks for. -/
theorem step_notices (n : Node) (now : Instant) (takes : Nat → Bool) :
    (n.step now takes).2.notices = Action.emitted (n.machine.run (n.events now)).2 := (n.turn_run now).2.2

/-- A life gives its history to the machine, and sends and reports what the machine's run asks for. -/
theorem live_run (n : Node) (past : List Happening) :
    (n.live past).machine = (n.machine.run (n.history past)).1 ∧
      n.messages past = Action.sent (n.machine.run (n.history past)).2 ∧
      n.notices past = Action.emitted (n.machine.run (n.history past)).2 := by
  induction past generalizing n with
  | nil => exact ⟨rfl, rfl, rfl⟩
  | cons e rest ih =>
    obtain ⟨hmachine, hmessages, hnotices⟩ := ih (n.undergo e)
    cases e with
    | step now takes =>
      rw [undergo, step_machine] at hmachine hmessages hnotices
      rw [history, Machine.run_append, Action.sent_append, Action.emitted_append]
      refine ⟨hmachine, ?_, ?_⟩
      · change (n.step now takes).2.sent.map _ ++ messages _ rest = _
        rw [step_sent]
        exact congrArg _ hmessages
      · change (n.step now takes).2.notices ++ notices _ rest = _
        rw [step_notices]
        exact congrArg _ hnotices
    | deliver | submit | confirm => exact ⟨hmachine, hmessages, hnotices⟩

/-- What has become of a node with the id of a visitor still visits booths, under the rules of the node. -/
theorem visitor_of_live {id : NodeId} {r : Rules} (hguest : r.isHost id = false) (past : List Happening) :
    ∃ v, ((fresh r id).live past).machine = .visitor v ∧ v.rules = r := by
  refine ⟨((Visitor.ofRules id r).run ((fresh r id).history past)).1, ?_, Visitor.run_rules _ _⟩
  rw [((fresh r id).live_run past).1, machine_fresh hguest, Machine.run_visitor]

/-- Whatever happens to the node of a visitor, the notices of its steps are those of a journey: the changes of
stage lead from scanning to the visitor's stage, on the way sessions start and end in turn, and the visits are
the booths of all sessions in order. So it is at any moment of a step between two inputs with the notices that
have been given by then. -/
theorem live_journey {id : NodeId} {r : Rules} {new : Node} (hnew : ofRules id r = .ok new)
    (hguest : r.isHost id = false) (past : List Happening) :
    (∃ v, (new.live past).machine = .visitor v ∧ v.Journey (new.notices past)) ∧
      ∀ before after, new.history past = before ++ after →
        let soFar := Action.emitted (new.machine.run before).2
        soFar <+: new.notices past ∧ ∃ w, (new.machine.run before).1 = .visitor w ∧ w.Journey soFar := by
  obtain ⟨-, -, rfl⟩ := ofRules_eq_ok_iff.mp hnew
  have hjourney := Visitor.run_journey id r
  obtain ⟨hmachine, -, hnotices⟩ := (fresh r id).live_run past
  rw [machine_fresh hguest, Machine.run_visitor] at hmachine hnotices
  refine ⟨⟨_, hmachine, hnotices ▸ hjourney _⟩, fun before after hsplit => ?_⟩
  rw [machine_fresh hguest, Machine.run_visitor]
  refine ⟨?_, _, rfl, hjourney before⟩
  rw [hnotices, hsplit, Visitor.run_append, Action.emitted_append]
  exact List.prefix_append _ _

/-- A visitor finds booth 1, is let in and leaves. -/
def shortVisit : List Happening :=
  let hears (message : Message) : Happening := .deliver ⟨⟨1⟩, Wire.encode message, -50, 5⟩
  let steps (now : UInt64) : Happening := .step ⟨now⟩ fun _ => true
  [steps 0, hears (.boothAnnounce ⟨⟨1⟩, 0, 2, 0⟩), steps 300, hears (.boothInfo 0 2 0 "Booth 1"), steps 350,
    hears (.registerResponse true .success), steps 400, .submit .exit, steps 900]

/-- The notices of the visit go once round the stages, with one session at booth 1. -/
theorem live_journey_shortVisit :
    let n := fresh .brisk ⟨4⟩
    (n.notices shortVisit).filterMap Notice.change? =
        [(.scanning, .connected), (.connected, .inUse), (.inUse, .scanning)] ∧
      (n.notices shortVisit).filter Notice.isSession = [.sessionStarted ⟨1⟩, .sessionEnded ⟨1⟩ .exited] ∧
      ∃ v, (n.live shortVisit).machine = .visitor v ∧ v.stage = .scanning ∧ v.visits = [⟨1⟩] := by
  intro n
  have hnew : ofRules ⟨4⟩ .brisk = .ok n := ofRules_eq_ok_iff.mpr ⟨by decide, by decide, rfl⟩
  obtain ⟨v, hmachine, hjourney⟩ := (live_journey hnew (by decide) shortVisit).1
  have hstage : (match (n.live shortVisit).machine with | .visitor w => w.stage | .host _ => .inUse) = .scanning := by
    decide +kernel
  rw [hmachine] at hstage
  exact ⟨by decide +kernel, by decide +kernel, v, hmachine, hstage, hjourney.visits.trans (by decide +kernel)⟩

end Node

end BoothFloor
