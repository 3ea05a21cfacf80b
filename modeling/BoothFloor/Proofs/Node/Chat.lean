import BoothFloor.Proofs.Host.Ledger
import BoothFloor.Proofs.Node.Sources
import BoothFloor.Proofs.Node.Speech

/-!
# Chat among those inside

A host passes the chat of a visitor inside on to everyone else inside, once and in the order of their admission, and
names the visitor from whom it came; the chat of anyone else goes unheard. What a frame says of its sender makes no
difference, so nobody can make a host say that a visitor inside has said what came from someone else.
-/

namespace BoothFloor

/-- Of messages to all of some users but one, each of the others gets one, and nobody else does. -/
theorem countP_others {users : List NodeId} (hnodup : users.Nodup) (u v : NodeId) (msg : Message) :
    ((users.filter (· ≠ u)).map (·, msg)).countP (fun x => x.1 = v) = if v ∈ users ∧ v ≠ u then 1 else 0 := by
  have hmem : v ∈ users.filter (· ≠ u) ↔ v ∈ users ∧ v ≠ u := by simp
  have hcount : ((users.filter (· ≠ u)).map (·, msg)).countP (fun x => x.1 = v) = (users.filter (· ≠ u)).count v := by
    rw [List.countP_map, List.count_eq_countP]
    exact List.countP_congr fun w _ => by simp
  rw [hcount, ← if_congr hmem rfl rfl]
  split
  · next hin => exact List.count_eq_one_of_mem (hnodup.filter _) hin
  · next hout => exact List.count_eq_zero.mpr hout

namespace Host

variable {h : Host} {m : Moment} {i : Input} {u dest : NodeId} {sender claimed : Option NodeId} {text : String}

/-- Those inside during a run are among those whom it has admitted, in the order of their admission. -/
theorem run_inside_sublist (id : NodeId) (r : Rules) (events : List (Moment × Input)) :
    let run := (ofRules id r).run events
    run.1.booth.activeUsers.Sublist (Action.admissions run.2) := by
  intro run
  have hlog : run.1.booth.Recorded (Action.emitted run.2) :=
    run_recorded (Booth.orderly_ofRules id r) (recorded_ofRules id r) events
  rw [hlog.active, hlog.registered]
  exact List.filter_sublist

/-- The chat of a visitor leaves the host as it is, and is passed on and reported if the visitor is inside. -/
theorem react_chat_of_guest (hguest : h.rules.isHost u = false) (m : Moment) (rssi : Int16) (snr : Int8) :
    h.react m (.message u (.chat claimed text) rssi snr) =
      (h, if u ∈ h.booth.activeUsers then
        (h.booth.activeUsers.filter (· ≠ u)).map (fun v => .send v (.chat (some u) text)) ++
          [.emit (.chatReceived u (some u) text)]
      else []) := by
  change h.onMessage m.now u (.chat claimed text) = _
  rw [onMessage, hguest, if_neg Bool.false_ne_true]
  simp only [onChat, Booth.isActive_iff]
  split <;> rfl

/-- Chat is sent only in reaction to chat from a visitor inside, in its name, to others inside. -/
theorem chat_of_react (hsent : (dest, .chat sender text) ∈ Action.sent (h.react m i).2) :
    ∃ u claimed rssi snr, i = .message u (.chat claimed text) rssi snr ∧ h.rules.isHost u = false ∧
      sender = some u ∧ u ∈ h.booth.activeUsers ∧ dest ∈ h.booth.activeUsers ∧ dest ≠ u := by
  by_cases hchat : ∃ u claimed said rssi snr, i = .message u (.chat claimed said) rssi snr
  · obtain ⟨u, claimed, said, rssi, snr, rfl⟩ := hchat
    change (dest, .chat sender text) ∈ Action.sent (h.onMessage m.now u (.chat claimed said)).2 at hsent
    rw [onMessage_sent] at hsent
    split at hsent
    · cases hsent
    · next hguest =>
      simp only [onChat_sent] at hsent
      split at hsent
      · next hinside =>
        obtain ⟨v, hv, heq⟩ := List.mem_map.mp hsent
        cases heq
        obtain ⟨hdest, hother⟩ := List.mem_filter.mp hv
        exact ⟨u, claimed, rssi, snr, rfl, Bool.eq_false_iff.mpr hguest, rfl, hinside, hdest,
          of_decide_eq_true hother⟩
      · cases hsent
  · -- anyone could say the rest, but chat either names a sender or does not
    have hquiet (role : Role) : sender.isSome = true ↔ role = .admin :=
      react_allFrom_of_quiet (fun u claimed said rssi snr heq => hchat ⟨u, claimed, said, rssi, snr, heq⟩) h m role _
        hsent
    cases (hquiet .user).mp ((hquiet .admin).mpr rfl)

end Host

namespace Node

variable {id : NodeId} {r : Rules} {new : Node}

/-- Chat is passed on exactly and cannot be forged. Whatever a host has been given, the chat of a visitor leaves it as
it is: if the visitor is inside, the host sends one message with the text and the visitor's name to each of the others
inside, in the order of their admission, and none to anyone else; if not, it sends and reports nothing. So in the life
of a node every chat that a host sends names the source of a frame that was delivered, and was sent, while that
source was inside, in reaction to the chat in that frame, to another visitor inside. -/
theorem chat_passed_on (hnew : ofRules id r = .ok new) (hhost : r.isHost id = true) :
    (∀ events, let run := (Host.ofRules id r).run events
      let h := run.1
      h.booth.activeUsers.Sublist (Action.admissions run.2) ∧
        ∀ u, r.isHost u = false → ∀ m claimed text rssi snr,
          let reaction := h.react m (.message u (.chat claimed text) rssi snr)
          reaction.1 = h ∧
            (u ∈ h.booth.activeUsers →
              Action.sent reaction.2 = (h.booth.activeUsers.filter (· ≠ u)).map (·, .chat (some u) text) ∧
                ∀ v, (Action.sent reaction.2).countP (fun x => x.1 = v) =
                  if v ∈ h.booth.activeUsers ∧ v ≠ u then 1 else 0) ∧
            (u ∉ h.booth.activeUsers → reaction.2 = [])) ∧
      ∀ past dest sender text, (dest, .chat sender text) ∈ new.messages past →
        ∃ f, .deliver f ∈ past ∧ r.isHost f.source = false ∧ sender = some f.source ∧
          ∃ claimed before m after, Wire.decode f.bytes .user = .ok (.chat claimed text) ∧
            new.history past = before ++ (m, .message f.source (.chat claimed text) f.rssi f.snr) :: after ∧
            let h := ((Host.ofRules id r).run before).1
            f.source ∈ h.booth.activeUsers ∧ dest ∈ h.booth.activeUsers ∧ dest ≠ f.source := by
  obtain ⟨-, -, rfl⟩ := ofRules_eq_ok_iff.mp hnew
  refine ⟨fun events => ⟨Host.run_inside_sublist id r events, ?_⟩, fun past dest sender text hsent => ?_⟩
  · intro u hguest m claimed text rssi snr reaction
    have hrules : ((Host.ofRules id r).run events).1.rules = r := Host.run_rules (Host.ofRules id r) events
    have horderly : ((Host.ofRules id r).run events).1.booth.Orderly :=
      Host.run_orderly (Booth.orderly_ofRules id r) events
    have hreaction : reaction = _ := Host.react_chat_of_guest (hrules.symm ▸ hguest) m rssi snr
    rw [hreaction]
    refine ⟨rfl, fun hinside => ?_, fun houtside => if_neg houtside⟩
    rw [if_pos hinside, Action.sent_append, Action.sent_map_send]
    refine ⟨List.append_nil _, fun v => ?_⟩
    rw [Action.sent_cons_emit, Action.sent_nil, List.append_nil]
    exact countP_others horderly.active_nodup u v _
  · rw [(live_host hhost past).2] at hsent
    obtain ⟨before, m, i, after, hsplit, hreacts⟩ := exists_of_mem_sent hsent
    obtain ⟨u, claimed, rssi, snr, rfl, hguest, rfl, hinside, hdest, hother⟩ := Host.chat_of_react hreacts
    have hrules : ((Host.ofRules id r).run before).1.rules = r := Host.run_rules (Host.ofRules id r) before
    rw [← Host.run, hrules] at hguest
    obtain ⟨f, hdelivered, rfl, rfl, rfl, hdecode⟩ :=
      delivered_of_guest (hsplit ▸ List.mem_append_right before List.mem_cons_self) hguest
    exact ⟨f, hdelivered, hguest, rfl, claimed, before, m, after, hdecode, hsplit, hinside, hdest, hother⟩

/-- Two visitors come in, and one of them says something; a third one outside says something in its name. -/
def smallTalk : List Happening :=
  let hears (u : UInt8) (message : Message) : Happening := .deliver ⟨⟨u⟩, Wire.encode message, -50, 8⟩
  let steps (now : UInt64) : Happening := .step ⟨now⟩ fun _ => true
  [steps 0, hears 4 .registerRequest, hears 5 .registerRequest, steps 10, hears 4 (.chat none "hi"),
    hears 6 (.chat (some ⟨4⟩) "bye"), steps 20]

/-- Of the small talk only what was said inside is passed on, to the one who has not said it. -/
theorem chat_passed_on_smallTalk :
    let new := fresh .brisk ⟨1⟩
    let h := ((Host.ofRules ⟨1⟩ .brisk).run (new.history smallTalk)).1
    (new.messages smallTalk).filter (·.2.kind = .chatMessage) = [(⟨5⟩, .chat (some ⟨4⟩) "hi")] ∧
      (∃ f, .deliver f ∈ smallTalk ∧ f.source = ⟨4⟩ ∧ ∃ claimed, Wire.decode f.bytes .user = .ok (.chat claimed "hi")) ∧
      h.booth.activeUsers = [⟨4⟩, ⟨5⟩] ∧
      Action.sent (h.react ⟨⟨30⟩, 4⟩ (.message ⟨5⟩ (.chat none "hello") 0 0)).2 =
        [(⟨4⟩, .chat (some ⟨5⟩) "hello")] ∧
      (h.react ⟨⟨30⟩, 4⟩ (.message ⟨6⟩ (.chat (some ⟨4⟩) "hello") 0 0)).2 = [] := by
  intro new h
  have hnew : ofRules ⟨1⟩ .brisk = .ok new := ofRules_eq_ok_iff.mpr ⟨by decide, by decide, rfl⟩
  obtain ⟨hexact, hsources⟩ := chat_passed_on hnew (by decide)
  have hinside : h.booth.activeUsers = [⟨4⟩, ⟨5⟩] := by decide +kernel
  obtain ⟨-, hpassed, -⟩ := (hexact (new.history smallTalk)).2 ⟨5⟩ (by decide) ⟨⟨30⟩, 4⟩ none "hello" 0 0
  obtain ⟨-, -, hunheard⟩ := (hexact (new.history smallTalk)).2 ⟨6⟩ (by decide) ⟨⟨30⟩, 4⟩ (some ⟨4⟩) "hello" 0 0
  obtain ⟨f, hdelivered, -, hsender, claimed, -, -, -, hdecode, -⟩ :=
    hsources smallTalk ⟨5⟩ (some ⟨4⟩) "hi" (by decide +kernel)
  refine ⟨by decide +kernel, ⟨f, hdelivered, (Option.some.inj hsender).symm, claimed, hdecode⟩, hinside, ?_, ?_⟩
  · rw [(hpassed (hinside ▸ by decide)).1, hinside]
    decide
  · exact hunheard (hinside ▸ by decide)

end Node

end BoothFloor
