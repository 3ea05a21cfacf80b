import BoothFloor.Proofs.Host.Repetition
import BoothFloor.Proofs.Visitor.Repetition

/-!
# Messages that arrive twice

Whoever gets no answer asks again, so either side has to bear every message twice. The theorem of this module says
that both do, in every state to which a run can lead.
-/

namespace BoothFloor

/-- A message that is handled twice in a row leaves whoever handles it as it was after the first time. For a host
the second time may be any moment, and a request to register is answered to its sender in the same words again. For
a visitor the two times are one moment, and only the offer of a slot has it send anything the second time: what it
sent the first time. -/
theorem run_bears_repetition (id : NodeId) (r : Rules) (events : List (Moment × Input)) (source : NodeId)
    (msg : Message) (rssi : Int16) (snr : Int8) :
    (∀ m later,
      let once := ((Host.ofRules id r).run events).1.react m (.message source msg rssi snr)
      let twice := once.1.react later (.message source msg rssi snr)
      twice.1 = once.1 ∧ (msg = .registerRequest →
        (Action.sent twice.2).filter (·.1 = source) = (Action.sent once.2).filter (·.1 = source))) ∧
    ∀ m,
      let once := ((Visitor.ofRules id r).run events).1.react m (.message source msg rssi snr)
      let twice := once.1.react m (.message source msg rssi snr)
      twice.1 = once.1 ∧ Action.sent twice.2 = if msg = .queueReady then Action.sent once.2 else [] := by
  constructor
  · intro m later
    have horderly := Host.run_orderly (h := .ofRules id r) (Booth.orderly_ofRules id r) events
    exact Host.react_again horderly m later source msg rssi snr
  · intro m
    exact (Visitor.react_reaction _ m (.message source msg rssi snr)).again rfl

/-- The third visitor of `threeVisitors` takes up its offer twice, the second time long after the first: it is
inside since the first time, and both times it is told so. -/
theorem run_bears_repetition_threeVisitors :
    let h := ((Host.ofRules ⟨1⟩ .brisk).run Host.threeVisitors).1
    let once := h.react ⟨⟨40⟩, 3⟩ (.message ⟨6⟩ .registerRequest 0 0)
    let twice := once.1.react ⟨⟨4000⟩, 90⟩ (.message ⟨6⟩ .registerRequest 0 0)
    h.booth.offer = some ⟨⟨6⟩, ⟨30⟩⟩ ∧ twice.1 = once.1 ∧ ⟨⟨6⟩, ⟨40⟩⟩ ∈ twice.1.booth.active ∧
      (Action.sent twice.2).filter (·.1 = ⟨6⟩) = [(⟨6⟩, .registerResponse true .success)] := by
  intro h once twice
  obtain ⟨hsame, hanswer⟩ :=
    (run_bears_repetition ⟨1⟩ .brisk Host.threeVisitors ⟨6⟩ .registerRequest 0 0).1 ⟨⟨40⟩, 3⟩ ⟨⟨4000⟩, 90⟩
  exact ⟨by decide, hsame, hsame ▸ by decide, (hanswer rfl).trans (by decide)⟩

end BoothFloor
