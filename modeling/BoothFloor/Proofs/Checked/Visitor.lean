import BoothFloor.Proofs.Checked.Arithmetic
import BoothFloor.Proofs.Rules
import BoothFloor.Visitor

/-!
# The arithmetic of a visitor

A visitor scores the booths it has heard and counts its retries. The scores are small and the retries stop at a limit
that fits their word, so neither can go astray. How long it may stay, which it adds up while it is inside a booth, is
the one sum that may be too large.
-/

namespace BoothFloor

namespace Sighting

/-- Signal strength, twenty more for a free slot and ten less for everyone who waits. -/
def scoreChecked (e : Sighting) : Except Fault Int := do
  let strength ← Checked.signed 32 (e.rssi.toInt + if e.hasFreeSlot then 20 else 0)
  let penalty ← Checked.signed 32 (10 * (e.waiting.toNat : Int))
  Checked.signed 32 (strength - penalty)

/-- Keep the booth with the best score so far or go over to the booth of one more entry. -/
def betterChecked (best : Option (NodeId × Int)) (e : Sighting) : Except Fault (Option (NodeId × Int)) := do
  let score ← e.scoreChecked
  match best with
  | some (booth, top) => return if score ≤ top then some (booth, top) else some (e.booth, score)
  | none => return some (e.booth, score)

end Sighting

/-- The booth to ask, if any. -/
def Sightings.choiceChecked (t : Sightings) : Except Fault (Option NodeId) := do
  return (← (t.entries.filter (·.valid)).foldlM Sighting.betterChecked none).map (·.1)

namespace Visitor

/-- The scan window closes. -/
def onSelectionTimeoutChecked (v : Visitor) (tick : Nat) : Except Fault (Visitor × List Action) :=
  if v.stage = .scanning ∧ v.scanOpen then do
    let v := { v with scanOpen := false, lastScan := tick }
    match ← v.sightings.choiceChecked with
    | none => return ({ v with sightings := v.sightings.reset }, [.emit .noBoothFound])
    | some booth =>
      let score ← match v.sightings.get? booth with
        | some e => e.scoreChecked
        | none => pure 0
      return andThen
        ({ v with connectRetries := 0 },
          .emit (.boothSelected booth score) :: v.connectActions booth)
        (·.moveTo (.connected booth .boothInfo))
  else .ok (v, [])

/-- An answer is overdue. -/
def onRetryTimeoutChecked (v : Visitor) (tick : Nat) : Except Fault (Visitor × List Action) :=
  match v.phase with
  | .connected booth .boothInfo =>
    if v.connectRetries < v.rules.connectRetryLimit.toNat then do
      return ({ v with connectRetries := ← Checked.add 32 v.connectRetries 1 }, v.connectActions booth)
    else .ok (v.giveUp tick booth .connect)
  | .connected booth .registration =>
    if v.registerRetries < v.rules.registerRetryLimit.toNat then do
      return ({ v with registerRetries := ← Checked.add 32 v.registerRetries 1 }, v.affirmActions booth)
    else .ok (v.giveUp tick booth .register)
  | .waiting booth true _ =>
    if v.registerRetries < v.rules.registerRetryLimit.toNat then do
      return ({ v with registerRetries := ← Checked.add 32 v.registerRetries 1 }, v.registerActions booth)
    else .ok (andThen (v, [.send booth .queueLeave]) (giveUp tick booth .register))
  | _ => .ok (v, [])

/-- The visitor's reaction to an input. -/
def reactChecked (v : Visitor) (m : Moment) : Input → Except Fault (Visitor × List Action)
  | .timer .selection => v.onSelectionTimeoutChecked m.tick
  | .timer .retry => v.onRetryTimeoutChecked m.tick
  | i => v.attempt m i

end Visitor

/-- A booth is scored without a fault. -/
theorem Sighting.scoreChecked_eq (e : Sighting) : e.scoreChecked = .ok e.score := by
  have hlow := e.rssi.le_toInt
  have hhigh := e.rssi.toInt_lt
  have hwaiting := e.waiting.toNat_lt
  unfold scoreChecked score
  rw [Checked.signed_of_mem (by split <;> omega) (by split <;> omega), Checked.ok_bind,
    Checked.signed_of_mem (by omega) (by omega), Checked.ok_bind]
  exact Checked.signed_of_mem (by split <;> omega) (by split <;> omega)

/-- The best booth is found without a fault. -/
theorem Sightings.choiceChecked_eq (t : Sightings) : t.choiceChecked = .ok t.choice := by
  have hloop (entries : List Sighting) (best : Option Sighting) :
      entries.foldlM Sighting.betterChecked (best.map fun e => (e.booth, e.score)) =
        .ok ((entries.foldl Sighting.better best).map fun e => (e.booth, e.score)) := by
    induction entries generalizing best with
    | nil => rfl
    | cons e rest ih =>
      have hone : Sighting.betterChecked (best.map fun e => (e.booth, e.score)) e =
          .ok ((Sighting.better best e).map fun e => (e.booth, e.score)) := by
        unfold Sighting.betterChecked Sighting.better
        rw [e.scoreChecked_eq, Checked.ok_bind]
        cases best with
        | none => rfl
        | some top =>
          dsimp only [Option.map_some]
          split <;> rfl
      rw [List.foldlM_cons, hone, Checked.ok_bind, ih]
      rfl
  unfold choiceChecked choice Sighting.best
  have hall := hloop (t.entries.filter (·.valid)) none
  rw [Option.map_none] at hall
  rw [hall, Checked.ok_bind, Option.map_map]
  rfl

namespace Visitor

variable {v : Visitor}

/-- The scan window closes without a fault. -/
theorem onSelectionTimeoutChecked_eq (v : Visitor) (tick : Nat) :
    v.onSelectionTimeoutChecked tick = .ok (v.onSelectionTimeout tick) := by
  unfold onSelectionTimeoutChecked onSelectionTimeout
  split
  · dsimp only
    rw [Sightings.choiceChecked_eq, Checked.ok_bind]
    cases v.sightings.choice with
    | none => rfl
    | some booth =>
      dsimp only
      cases v.sightings.get? booth with
      | none => rfl
      | some e =>
        dsimp only
        rw [e.scoreChecked_eq]
        rfl
  · rfl

/-- An overdue answer is handled without a fault: a count below a limit that fits the word can go up by one. -/
theorem onRetryTimeoutChecked_eq (v : Visitor) (tick : Nat) :
    v.onRetryTimeoutChecked tick = .ok (v.onRetryTimeout tick) := by
  have hcount {count : Nat} {limit : UInt32} (hbelow : count < limit.toNat) :
      Checked.add 32 count 1 = .ok (count + 1) :=
    Checked.add_of_lt (Nat.lt_of_le_of_lt hbelow limit.toNat_lt)
  unfold onRetryTimeoutChecked onRetryTimeout
  cases v.phase with
  | scanning | inUse => rfl
  | connected booth awaiting =>
    cases awaiting with
    | decision => rfl
    | boothInfo =>
      dsimp only
      split
      · next hbelow => rw [hcount hbelow, Checked.ok_bind]; rfl
      · rfl
    | registration =>
      dsimp only
      split
      · next hbelow => rw [hcount hbelow, Checked.ok_bind]; rfl
      · rfl
  | waiting booth claiming place =>
    cases claiming with
    | false => rfl
    | true =>
      dsimp only
      split
      · next hbelow => rw [hcount hbelow, Checked.ok_bind]; rfl
      · rfl

/-- The visitor scores the booths it has heard and counts its retries without a fault. -/
theorem reactChecked_eq (v : Visitor) (m : Moment) (i : Input) :
    v.reactChecked m i = Checked.result (Fault.of? (v.attempt m i)) (v.react m i) := by
  have hattempt : v.reactChecked m i = v.attempt m i := by
    cases i with
    | timer kind =>
      cases kind with
      | selection => exact v.onSelectionTimeoutChecked_eq m.tick
      | retry => exact v.onRetryTimeoutChecked_eq m.tick
    | _ => rfl
  rw [hattempt, react]
  cases v.attempt m i <;> rfl

/-- The periodic work of a visitor goes astray exactly if it is inside a booth and the word does not hold the time that
it may stay. -/
theorem of?_onTick (v : Visitor) (m : Moment) : Fault.of? (v.onTick m) =
    if v.stage = .inUse ∧ ¬ v.rules.sessionDuration.ms.toNat + v.rules.sessionGrace.ms.toNat < 2 ^ 64 then
      some .overflow
    else none := by
  unfold onTick stage
  cases v.phase with
  | inUse booth start =>
    dsimp only [Phase.stage]
    rw [Rules.clientLimit_eq]
    by_cases hfits : v.rules.sessionDuration.ms.toNat + v.rules.sessionGrace.ms.toNat < 2 ^ 64
    · simp only [hfits, not_true_eq_false, and_false, if_true, if_false, Checked.ok_bind]
      split <;> rfl
    · simp only [hfits, not_false_eq_true, and_self, if_true, if_false]
      rfl
  | scanning =>
    simp only [Phase.stage, reduceCtorEq, false_and, if_false]
    split <;> rfl
  | connected | waiting =>
    simp only [Phase.stage, reduceCtorEq, false_and, if_false]
    rfl

end Visitor

end BoothFloor
