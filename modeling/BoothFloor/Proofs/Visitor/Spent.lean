import BoothFloor.Proofs.Visitor.Grounded
import Mathlib.Data.List.Nodup

/-!
# No booth twice

A booth is spent once the visitor has been let in or refused there, and it stays so. A spent booth may be
heard again in a later scan but is excluded from the choice, so the booth that a visitor deals with is not
spent until the visitor is let in or refused: whatever the booths answer, none of them is asked again.
-/

namespace BoothFloor

/-- The reports by which a booth is spent: the visitor was let in or refused there. -/
def Notice.spent? : Notice → Option NodeId
  | sessionStarted booth | registrationRefused booth => some booth
  | _ => none

/-- The messages by which a booth is asked for its introduction or for admission. -/
def Message.isAsk : Message → Bool
  | connectRequest | registerRequest => true
  | _ => false

namespace Visitor

/-- A visitor that spares the booths at which it is done: each was visited once at most, and none of them
is the booth that it asks or one that it can choose. -/
structure Sparing (v : Visitor) : Prop where
  visits_nodup : v.visits.Nodup
  visits_hosts : ∀ b ∈ v.visits, v.rules.isHost b = true
  visits_spent : ∀ b ∈ v.visits, b ∈ v.spent
  spent_nodup : v.spent.Nodup
  target : ∀ b, v.booth? = some b → v.stage ≠ .inUse → b ∉ v.spent
  choices : v.phase = .scanning → ∀ e ∈ v.sightings.entries, e.valid = true → e.booth ∉ v.spent

variable {v : Visitor} {m : Moment} {i : Input} {b : NodeId}

/-- A new visitor has nothing to spare. -/
theorem sparing_ofRules (id : NodeId) (r : Rules) : (ofRules id r).Sparing where
  visits_nodup := .nil
  visits_hosts := fun _ h => absurd h List.not_mem_nil
  visits_spent := fun _ h => absurd h List.not_mem_nil
  spent_nodup := .nil
  target := nofun
  choices := fun _ _ h => absurd h List.not_mem_nil

/-- Dropping a booth makes no other one spent and leaves none to choose from. -/
theorem Sparing.freed (h : v.Sparing) (tick : Nat) : (v.freed tick).Sparing where
  visits_nodup := h.visits_nodup
  visits_hosts := h.visits_hosts
  visits_spent := h.visits_spent
  spent_nodup := h.spent_nodup
  target := nofun
  choices := fun _ _ he => absurd he List.not_mem_nil

/-- The booth to which a visitor registers is not spent. -/
theorem Sparing.registering (h : v.Sparing) (hregistering : v.registering? = some b) : b ∉ v.spent :=
  h.target b (booth?_of_registering? hregistering) (stage_ne_inUse hregistering)

/-- A booth that was not spent is spent once afterwards. -/
theorem Sparing.spent_concat (h : v.Sparing) (hnew : b ∉ v.spent) : (v.spent ++ [b]).Nodup := by
  rw [← List.concat_eq_append]
  exact h.spent_nodup.concat hnew

/-- A booth that was not spent is visited for the first time. -/
theorem Sparing.visits_concat (h : v.Sparing) (hnew : b ∉ v.spent) : (v.visits ++ [b]).Nodup := by
  rw [← List.concat_eq_append]
  exact h.visits_nodup.concat fun hvisited => hnew (h.visits_spent b hvisited)

/-- Every reaction leaves a visitor sparing. -/
theorem react_sparing (h : v.Sparing) (hgrounded : v.Grounded) (m : Moment) (i : Input) :
    (v.react m i).1.Sparing := by
  have hreaction := v.react_reaction m i
  have htarget {b : NodeId} (hb : v.phase.booth? = some b) (hstage : v.phase.stage ≠ .inUse) : b ∉ v.spent :=
    h.target b hb hstage
  generalize v.react m i = outcome at hreaction
  cases hreaction with
  | idle | chats | answers | showsText | showsChat | showsExit => exact h
  | reconnects | reaffirms | reclaims => exact { h with }
  | starts | rescans | findsNone => exact { h with choices := fun _ _ he => absurd he List.not_mem_nil }
  | hears source s rssi snr heard hphase hopen hhost hheard =>
    refine { h with choices := fun _ e he hvalid => ?_ }
    dsimp only at he
    split at he
    · -- the announcement of a spent booth is noted, and the booth is excluded at once
      obtain ⟨he, hother⟩ := Sightings.valid_of_invalidate he hvalid
      rcases Sightings.mem_of_record hheard he with hnew | hold
      · exact absurd hnew hother
      · exact h.choices hphase e hold hvalid
    · next hfresh =>
      rcases Sightings.mem_of_record hheard he with hnew | hold
      · rwa [hnew]
      · exact h.choices hphase e hold hvalid
  | connects booth score hphase hopen hchoice =>
    refine { h with target := fun b hb _ => ?_, choices := nofun }
    obtain rfl := Option.some.inj hb
    obtain ⟨e, he, hvalid, rfl⟩ := Sightings.mem_of_choice hchoice
    exact h.choices hphase e he hvalid
  | accepts booth current capacity waiting description rssi snr hphase
  | consults booth current capacity waiting description rssi snr hphase
  | affirms booth hphase
  | claims booth claiming place rssi snr hphase
  | placed booth message position total claiming place rssi snr hmessage hphase =>
    refine { h with target := fun b hb _ => ?_, choices := nofun }
    obtain rfl := Option.some.inj hb
    exact htarget (by rw [hphase]; rfl) (by rw [hphase]; nofun)
  | queues booth rssi snr hregistering =>
    refine { h with target := fun b hb _ => ?_, choices := nofun }
    obtain rfl := Option.some.inj hb
    exact h.registering hregistering
  | enters booth reason rssi snr hregistering =>
    have hnew := h.registering hregistering
    simp only [markSpent_eq, if_neg hnew]
    constructor
    case visits_nodup => exact h.visits_concat hnew
    case visits_hosts =>
      intro b hb
      rcases List.mem_append.mp hb with hold | hb
      · exact h.visits_hosts b hold
      · obtain rfl := List.mem_singleton.mp hb
        exact hgrounded.booth _ (booth?_of_registering? hregistering)
    case visits_spent =>
      intro b hb
      rcases List.mem_append.mp hb with hold | hb
      · exact List.mem_append_left _ (h.visits_spent b hold)
      · exact List.mem_append_right _ hb
    case spent_nodup => exact h.spent_concat hnew
    case target => exact fun _ _ hstage => absurd rfl hstage
    case choices => nofun
  | refused booth rssi snr hregistering =>
    have hnew := h.registering hregistering
    simp only [markSpent_eq, if_neg hnew]
    exact
      { visits_nodup := h.visits_nodup
        visits_hosts := h.visits_hosts
        visits_spent := fun b hb => List.mem_append_left _ (h.visits_spent b hb)
        spent_nodup := h.spent_concat hnew
        target := nofun
        choices := fun _ _ he => absurd he List.not_mem_nil }
  | _ => exact h.freed m.tick

/-- A booth is spent after a reaction if it was before or is reported so. -/
theorem mem_spent_react (h : v.Sparing) (m : Moment) (i : Input) :
    b ∈ (v.react m i).1.spent ↔
      b ∈ v.spent ∨ b ∈ (Action.emitted (v.react m i).2).filterMap Notice.spent? := by
  have hreaction := v.react_reaction m i
  generalize v.react m i = outcome at hreaction
  cases hreaction with
  | enters booth reason rssi snr hregistering | refused booth rssi snr hregistering =>
    simp [markSpent_eq, h.registering hregistering, freed, List.filterMap_cons, Notice.spent?]
  | queues =>
    dsimp only
    split <;> simp [List.filterMap_cons, Notice.spent?]
  | starts | rescans =>
    rw [startScan_emitted]
    simp [List.filterMap_cons, Notice.spent?, startScan]
  | _ => simp [freed, Action.emitted_append, List.filterMap_cons, Notice.spent?]

/-- A visitor deals with the booth that it asks and is not let in yet. -/
theorem booth?_of_asks {msg : Message} (h : (b, msg) ∈ Action.sent (v.react m i).2) (hasks : msg.isAsk = true) :
    (v.react m i).1.booth? = some b ∧ (v.react m i).1.stage ≠ .inUse := by
  have hreaction := v.react_reaction m i
  generalize v.react m i = outcome at hreaction h
  cases hreaction with
  | starts | rescans =>
    rw [startScan_sent, List.mem_map] at h
    obtain ⟨_, -, heq⟩ := h
    cases heq
    cases hasks
  | queues =>
    dsimp only at h
    split at h <;> cases h
  | connects booth | accepts booth | affirms booth | claims booth =>
    obtain rfl : b = booth := by
      simp [Action.sent_append] at h
      tauto
    exact ⟨rfl, fun hstage => by cases hstage⟩
  | reconnects booth hphase | reaffirms booth hphase | reclaims booth place hphase =>
    obtain rfl : b = booth := by
      simp at h
      tauto
    exact ⟨by rw [booth?, hphase]; rfl, fun hstage => by rw [stage, hphase] at hstage; cases hstage⟩
  | _ =>
    -- the other reactions send nothing, or nothing that asks
    simp at h <;> obtain ⟨-, rfl⟩ := h <;> cases hasks

/-- A booth that is asked is not spent, and the reaction does not report it so. -/
theorem Sparing.not_spent_of_asks (h : v.Sparing) (hgrounded : v.Grounded) {msg : Message}
    (hsent : (b, msg) ∈ Action.sent (v.react m i).2) (hasks : msg.isAsk = true) :
    b ∉ v.spent ∧ b ∉ (Action.emitted (v.react m i).2).filterMap Notice.spent? := by
  obtain ⟨hbooth, hstage⟩ := booth?_of_asks hsent hasks
  have hafter : b ∉ (v.react m i).1.spent := (react_sparing h hgrounded m i).target b hbooth hstage
  rwa [mem_spent_react h, not_or] at hafter

/-- A run leaves a visitor sparing. -/
theorem run_sparing (h : v.Sparing) (hgrounded : v.Grounded) (events : List (Moment × Input)) :
    (v.run events).1.Sparing ∧ (v.run events).1.Grounded :=
  runWith_keeps (P := fun w : Visitor => w.Sparing ∧ w.Grounded) ⟨h, hgrounded⟩ fun _ m i _ hw =>
    ⟨react_sparing hw.1 hw.2 m i, react_grounded hw.2 m i⟩

/-- A booth is spent after a run if it was before or is reported so. -/
theorem mem_spent_run (h : v.Sparing) (hgrounded : v.Grounded) (events : List (Moment × Input)) :
    b ∈ (v.run events).1.spent ↔
      b ∈ v.spent ∨ b ∈ (Action.emitted (v.run events).2).filterMap Notice.spent? := by
  induction events generalizing v with
  | nil => simp [run, runWith]
  | cons e rest ih =>
    have hrest := ih (react_sparing h hgrounded e.1 e.2) (react_grounded hgrounded e.1 e.2)
    rw [mem_spent_react h, or_assoc] at hrest
    rw [run_cons, Action.emitted_append, List.filterMap_append, List.mem_append]
    exact hrest

/-- Whoever is asked in a run is not spent before. -/
theorem not_spent_of_run_asks (h : v.Sparing) (hgrounded : v.Grounded) {events : List (Moment × Input)}
    {before after : List Action} {msg : Message}
    (hsplit : (v.run events).2 = before ++ .send b msg :: after) (hasks : msg.isAsk = true) :
    b ∉ v.spent ∧ b ∉ (Action.emitted before).filterMap Notice.spent? := by
  induction events generalizing v before with
  | nil => simp [run, runWith] at hsplit
  | cons e rest ih =>
    rw [run_cons] at hsplit
    rcases List.append_eq_append_iff.mp hsplit with ⟨later, rfl, hrest⟩ | ⟨later, hfirst, hrest⟩
    · obtain ⟨hspent, hlater⟩ := ih (react_sparing h hgrounded e.1 e.2) (react_grounded hgrounded e.1 e.2) hrest
      rw [mem_spent_react h, not_or] at hspent
      rw [Action.emitted_append, List.filterMap_append, List.mem_append, not_or]
      exact ⟨hspent.1, hspent.2, hlater⟩
    · cases later with
      | nil =>
        -- the whole first reaction comes before the ask, which is the first action of the rest
        rw [List.append_nil] at hfirst
        have hhead : ((v.react e.1 e.2).1.run rest).2 = [] ++ .send b msg :: after := hrest.symm
        obtain ⟨hspent, -⟩ := ih (react_sparing h hgrounded e.1 e.2) (react_grounded hgrounded e.1 e.2) hhead
        rwa [mem_spent_react h, not_or, hfirst] at hspent
      | cons act later =>
        obtain ⟨rfl, -⟩ := List.cons.inj hrest
        have hsent : (b, msg) ∈ Action.sent (v.react e.1 e.2).2 := by simp [hfirst, Action.sent_append]
        obtain ⟨hspent, hreported⟩ := h.not_spent_of_asks hgrounded hsent hasks
        rw [hfirst, Action.emitted_append, List.filterMap_append, List.mem_append, not_or] at hreported
        exact ⟨hspent, hreported.1⟩

/-- What spends a booth is the start of a session there or a refusal. -/
theorem mem_spent?_iff (notices : List Notice) :
    b ∈ notices.filterMap Notice.spent? ↔ .sessionStarted b ∈ notices ∨ .registrationRefused b ∈ notices := by
  rw [List.mem_filterMap]
  constructor
  · rintro ⟨n, hn, hspent⟩
    cases n with
    | sessionStarted | registrationRefused =>
      obtain rfl := Option.some.inj hspent
      simp [hn]
    | _ => cases hspent
  · rintro (hn | hn) <;> exact ⟨_, hn, rfl⟩

/-- A visitor that is started and then given any inputs at any moments visits no booth twice. Its visits are
to hosts, the spent booths are those that let it in or refused it, and the booth that it targets outside a
session is not among them. So it never asks a booth by which it was let in or refused before. -/
theorem run_never_revisits (id : NodeId) (r : Rules) (first : Moment) (events : List (Moment × Input)) :
    let life := (ofRules id r).run ((first, .start) :: events)
    life.1.visits.Nodup ∧
      (∀ b ∈ life.1.visits, r.isHost b = true ∧ b ∈ life.1.spent) ∧
      life.1.spent.Nodup ∧
      (∀ b, b ∈ life.1.spent ↔
        .sessionStarted b ∈ Action.emitted life.2 ∨ .registrationRefused b ∈ Action.emitted life.2) ∧
      (∀ b, life.1.booth? = some b → life.1.stage = .connected ∨ life.1.stage = .waiting → b ∉ life.1.spent) ∧
      ∀ before b msg after, life.2 = before ++ .send b msg :: after →
        msg = .connectRequest ∨ msg = .registerRequest →
          .sessionStarted b ∉ Action.emitted before ∧ .registrationRefused b ∉ Action.emitted before := by
  intro life
  have hnew := sparing_ofRules id r
  have hgrounded := grounded_ofRules id r
  have hrules : life.1.rules = r := run_rules (ofRules id r) _
  obtain ⟨hsparing, -⟩ := run_sparing hnew hgrounded ((first, .start) :: events)
  refine ⟨hsparing.visits_nodup, fun b hb => ⟨?_, hsparing.visits_spent b hb⟩, hsparing.spent_nodup, fun b => ?_,
    fun b hb hstage => hsparing.target b hb ?_, fun before b msg after hsplit hmsg => ?_⟩
  · rw [← hrules]
    exact hsparing.visits_hosts b hb
  · rw [mem_spent_run hnew hgrounded, mem_spent?_iff]
    exact or_iff_right List.not_mem_nil
  · rcases hstage with hstage | hstage <;> rw [hstage] <;> nofun
  · have hasks : msg.isAsk = true := by rcases hmsg with rfl | rfl <;> rfl
    have hunspent := (not_spent_of_run_asks hnew hgrounded hsplit hasks).2
    rwa [mem_spent?_iff, not_or] at hunspent

/-- A visitor is let in by booth 1 and leaves. In its next scan it hears booth 1 again, which confirms a second
time although nothing was asked; booth 2, which was not asked either, sends a confirmation in between. -/
def insistentBooth : List (Moment × Input) :=
  let heard (source : NodeId) (message : Message) : Input := .message source message (-50) 5
  [(⟨⟨10⟩, 2⟩, heard ⟨1⟩ (.boothAnnounce ⟨⟨1⟩, 0, 2, 0⟩)), (⟨⟨200⟩, 3⟩, .timer .selection),
    (⟨⟨210⟩, 4⟩, heard ⟨1⟩ (.boothInfo 0 2 0 "Booth 1")), (⟨⟨215⟩, 4⟩, heard ⟨2⟩ (.registerResponse true .success)),
    (⟨⟨220⟩, 4⟩, heard ⟨1⟩ (.registerResponse true .success)), (⟨⟨900⟩, 5⟩, .intent .exit), (⟨⟨990⟩, 15⟩, .tick),
    (⟨⟨995⟩, 16⟩, heard ⟨1⟩ (.boothAnnounce ⟨⟨1⟩, 0, 2, 0⟩)),
    (⟨⟨996⟩, 16⟩, heard ⟨1⟩ (.registerResponse true .success)), (⟨⟨1190⟩, 18⟩, .timer .selection)]

/-- The visitor asks booth 1 for admission before it is let in there, and finds no booth in its second scan. -/
theorem run_never_revisits_insistentBooth :
    let life := (ofRules ⟨5⟩ .brisk).run ((⟨⟨0⟩, 1⟩, .start) :: insistentBooth)
    let before := life.2.take 13
    life.1.visits = [⟨1⟩] ∧ life.1.visits.Nodup ∧ life.2.getLast? = some (.emit .noBoothFound) ∧
      life.2 = before ++ .send ⟨1⟩ .registerRequest :: life.2.drop 14 ∧
      .sessionStarted ⟨1⟩ ∉ Action.emitted before := by
  intro life before
  have hnever := run_never_revisits ⟨5⟩ .brisk ⟨⟨0⟩, 1⟩ insistentBooth
  have hsplit : life.2 = before ++ .send ⟨1⟩ .registerRequest :: life.2.drop 14 := by decide
  exact ⟨by decide, hnever.1, by decide, hsplit,
    (hnever.2.2.2.2.2 before ⟨1⟩ .registerRequest (life.2.drop 14) hsplit (.inr rfl)).1⟩

end Visitor

end BoothFloor
