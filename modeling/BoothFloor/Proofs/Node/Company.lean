import BoothFloor.Proofs.Host.Addressees
import BoothFloor.Proofs.Node.Sources

/-!
# Whom a host serves

A host takes whoever asks from an id that is no host's for a visitor. Nobody else comes to its booth, and what it does
not tell everyone it tells those who have spoken to it. So it serves visitors only as long as nothing is delivered to
it from an id that no node may carry.
-/

namespace BoothFloor

/-- Whether a visitor can carry an id: it is no host's, and not reserved. -/
def Rules.isVisitor (r : Rules) (u : NodeId) : Bool := !r.isHost u && !u.isReserved

/-- Where nothing is heard from reserved ids, whoever is heard and is no host can be a visitor. -/
theorem Rules.isVisitor_of_decode {r : Rules} {f : Frame} {message : Message} (hguest : r.isHost f.source = false)
    (hdecode : Wire.decode f.bytes .user = .ok message) (hunheard : f.source.isReserved = true → r.hear f = none) :
    r.isVisitor f.source = true := by
  have hheard : r.hear f = some (.message f.source message f.rssi f.snr) := (hear_guest_iff hguest).mpr hdecode
  have hunreserved : f.source.isReserved = false := by
    by_contra hreserved
    rw [hunheard (Bool.not_eq_false _ ▸ hreserved)] at hheard
    cases hheard
  rw [isVisitor, hguest, hunreserved]
  rfl

namespace Host

variable {r : Rules} {P : NodeId → Prop}

/-- Whoever is at the booth of a run is a visitor that has asked to register. -/
theorem run_listed (id : NodeId) (events : List (Moment × Input))
    (hasks : ∀ m u rssi snr, (m, .message u .registerRequest rssi snr) ∈ events → r.isHost u = false → P u) :
    let b := ((ofRules id r).run events).1.booth
    (∀ u ∈ b.activeUsers, P u) ∧ (∀ u ∈ b.waiting, P u) ∧ ∀ u ∈ b.registered, P u := by
  intro b
  have hkept : ((ofRules id r).run events).1.rules = r ∧ (∀ u ∈ b.waiting, P u) ∧ ∀ u ∈ b.registered, P u := by
    apply runWith_keeps (P := fun h : Host =>
      h.rules = r ∧ (∀ u ∈ h.booth.waiting, P u) ∧ ∀ u ∈ h.booth.registered, P u)
    · exact ⟨rfl, fun _ hu => absurd hu List.not_mem_nil, fun _ hu => absurd hu List.not_mem_nil⟩
    · rintro h m i hmem ⟨hrules, hwaiting, hregistered⟩
      exact ⟨(h.react_rules m i).trans hrules, react_listed hwaiting hregistered
        (fun u rssi snr heq hguest => hasks m u rssi snr (heq ▸ hmem) (hrules ▸ hguest)) m⟩
  have horderly : b.Orderly := run_orderly (Booth.orderly_ofRules id r) events
  exact ⟨fun u hu => hkept.2.2 u (horderly.active_registered u hu), hkept.2⟩

/-- What a host says in a run to single visitors it says to visitors that have spoken to it. -/
theorem run_addressees (id : NodeId) (events : List (Moment × Input))
    (hcalls : ∀ m s msg rssi snr, (m, .message s msg rssi snr) ∈ events → r.isHost s = false → P s) :
    ∀ x ∈ Action.sent ((ofRules id r).run events).2, x.2.isPublic = false → P x.1 := by
  intro x hx hprivate
  obtain ⟨before, m, i, after, rfl, hreacts⟩ := exists_of_mem_sent hx
  obtain ⟨hactive, hwaiting, -⟩ := run_listed id before fun m u rssi snr hmem =>
    hcalls m u .registerRequest rssi snr (List.mem_append_left _ hmem)
  have hrules : ((ofRules id r).run before).1.rules = r := run_rules (ofRules id r) before
  refine react_addressees (run_orderly (Booth.orderly_ofRules id r) before) hwaiting hactive
    (fun s msg rssi snr heq hguest => ?_) m x hreacts hprivate
  exact hcalls m s msg rssi snr (heq ▸ List.mem_append_right _ List.mem_cons_self) (hrules ▸ hguest)

end Host

namespace Node

variable {id : NodeId} {r : Rules} {new : Node}

/-- A host serves those who have spoken to it. Whatever happens to its node, everyone inside, on the queue or ever
admitted is no host and the source of a frame that was delivered and asks to register, and every message but
announcements goes to no host and to the source of a frame that was delivered and could be read. So while nothing that
can be read is delivered from a reserved id, those at the booth are visitors, and so is everyone to whom such a
message goes. -/
theorem host_serves_visitors (hnew : ofRules id r = .ok new) (hhost : r.isHost id = true) (past : List Happening) :
    ∃ h, (new.live past).machine = .host h ∧
      let company := h.booth.activeUsers ++ h.booth.waiting ++ h.booth.registered
      (∀ u ∈ company, r.isHost u = false ∧
        ∃ f, .deliver f ∈ past ∧ f.source = u ∧ Wire.decode f.bytes .user = .ok .registerRequest) ∧
        (∀ x ∈ new.messages past, x.2.isPublic = false → r.isHost x.1 = false ∧
          ∃ f, .deliver f ∈ past ∧ f.source = x.1 ∧ ∃ msg, Wire.decode f.bytes .user = .ok msg) ∧
        ((∀ f, .deliver f ∈ past → f.source.isReserved = true → r.hear f = none) →
          (∀ u ∈ company, r.isVisitor u = true) ∧
            ∀ x ∈ new.messages past, x.2.isPublic = false → r.isVisitor x.1 = true) := by
  obtain ⟨-, -, rfl⟩ := ofRules_eq_ok_iff.mp hnew
  obtain ⟨hmachine, hmessages⟩ := live_host hhost past
  have hlisted := Host.run_listed (P := fun u => r.isHost u = false ∧
    ∃ f, .deliver f ∈ past ∧ f.source = u ∧ Wire.decode f.bytes .user = .ok .registerRequest) id
    ((fresh r id).history past) fun _ _ _ _ hmem hguest => by
      obtain ⟨f, hdelivered, rfl, -, -, hdecode⟩ := delivered_of_guest hmem hguest
      exact ⟨hguest, f, hdelivered, rfl, hdecode⟩
  have haddressed := Host.run_addressees (P := fun u => r.isHost u = false ∧
    ∃ f, .deliver f ∈ past ∧ f.source = u ∧ ∃ msg, Wire.decode f.bytes .user = .ok msg) id
    ((fresh r id).history past) fun _ _ msg _ _ hmem hguest => by
      obtain ⟨f, hdelivered, rfl, -, -, hdecode⟩ := delivered_of_guest hmem hguest
      exact ⟨hguest, f, hdelivered, rfl, msg, hdecode⟩
  rw [← hmessages] at haddressed
  refine ⟨_, hmachine, ?_⟩
  intro company
  have hcompany : ∀ u ∈ company, r.isHost u = false ∧
      ∃ f, .deliver f ∈ past ∧ f.source = u ∧ Wire.decode f.bytes .user = .ok .registerRequest := by
    intro u hu
    rcases List.mem_append.mp hu with hu | hu
    · exact (List.mem_append.mp hu).elim (hlisted.1 u) (hlisted.2.1 u)
    · exact hlisted.2.2 u hu
  refine ⟨hcompany, haddressed, fun hfree => ⟨fun u hu => ?_, fun x hx hprivate => ?_⟩⟩
  · obtain ⟨hguest, f, hdelivered, rfl, hdecode⟩ := hcompany u hu
    exact Rules.isVisitor_of_decode hguest hdecode (hfree f hdelivered)
  · obtain ⟨hguest, f, hdelivered, hsource, msg, hdecode⟩ := haddressed x hx hprivate
    rw [← hsource] at hguest ⊢
    exact Rules.isVisitor_of_decode hguest hdecode (hfree f hdelivered)

/-- A host starts, is handed a frame and takes a step. -/
def caller (source : NodeId) (bytes : List UInt8) : List Happening :=
  [.step ⟨0⟩ fun _ => true, .deliver ⟨source, bytes, -50, 8⟩, .step ⟨10⟩ fun _ => true]

/-- A host lets in a visitor that asks to register, and hears nothing in noise from the id for everyone. -/
theorem host_serves_visitors_oneVisitor :
    let new := fresh .brisk ⟨1⟩
    let past := caller .broadcast [255] ++ caller ⟨4⟩ (Wire.encode .registerRequest)
    ∃ h, (new.live past).machine = .host h ∧ h.booth.activeUsers = [⟨4⟩] ∧ Rules.brisk.isVisitor ⟨4⟩ = true ∧
      (∃ f, .deliver f ∈ past ∧ f.source = ⟨4⟩ ∧ Wire.decode f.bytes .user = .ok .registerRequest) ∧
      ∀ x ∈ new.messages past, x.2.isPublic = false → Rules.brisk.isVisitor x.1 = true := by
  intro new past
  have hnew : ofRules ⟨1⟩ .brisk = .ok new := ofRules_eq_ok_iff.mpr ⟨by decide, by decide, rfl⟩
  obtain ⟨h, hmachine, hasked, -, hvisitors⟩ := host_serves_visitors hnew (by decide) past
  have hinside : h.booth.activeUsers = [⟨4⟩] := by
    have hhost : Machine.host h = .host ((Host.ofRules ⟨1⟩ .brisk).run (new.history past)).1 :=
      hmachine.symm.trans (live_host (by decide) past).1
    rw [Machine.host.inj hhost]
    decide +kernel
  have hunheard : ∀ f, .deliver f ∈ past → f.source.isReserved = true → Rules.brisk.hear f = none := by
    intro f hf hreserved
    simp only [past, caller, List.cons_append, List.nil_append, List.mem_cons, reduceCtorEq, Happening.deliver.injEq,
      List.not_mem_nil, or_false, false_or] at hf
    rcases hf with rfl | rfl
    · rfl
    · cases hreserved
  obtain ⟨hcompany, haddressed⟩ := hvisitors hunheard
  have hmem : ⟨4⟩ ∈ h.booth.activeUsers ++ h.booth.waiting ++ h.booth.registered := by simp [hinside]
  exact ⟨h, hmachine, hinside, hcompany _ hmem, (hasked _ hmem).2, haddressed⟩

/-- A host lets in whoever asks to register from the id for everyone, which no visitor can carry, and says so to
everyone. -/
theorem host_serves_broadcast :
    let new := fresh .brisk ⟨1⟩
    let past := caller .broadcast (Wire.encode .registerRequest)
    ofRules ⟨1⟩ .brisk = .ok new ∧ Rules.brisk.isHost ⟨1⟩ = true ∧ Rules.brisk.isVisitor .broadcast = false ∧
      (∃ h, (new.live past).machine = .host h ∧ h.booth.activeUsers = [.broadcast] ∧
        h.booth.registered = [.broadcast]) ∧
      (.broadcast, .registerResponse true .success) ∈ new.messages past ∧
      (Message.registerResponse true .success).isPublic = false := by
  intro new past
  refine ⟨ofRules_eq_ok_iff.mpr ⟨by decide, by decide, rfl⟩, by decide, by decide, ?_, by decide +kernel, rfl⟩
  exact ⟨_, (live_host (by decide) past).1, by decide +kernel, by decide +kernel⟩

end Node

end BoothFloor
