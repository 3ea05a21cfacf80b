import BoothFloor.Proofs.Visitor.Visits

/-!
# The journey of a visitor

The changes of stage that a visitor reports lead from scanning to its present stage, each one from where the
one before has led and none but by the ways that there are between stages. On this path sessions start and
end in turn: a session is open exactly while the visitor is inside, and its end names the booth of its start.
What one reaction reports is such a stretch, and stretches that meet make up a longer one.
-/

namespace BoothFloor

/-- The ways from one stage to another. -/
inductive Stage.Leads : Stage → Stage → Prop
  | selects : Leads .scanning .connected
  | queues : Leads .connected .waiting
  | enters : Leads .connected .inUse
  | fails : Leads .connected .scanning
  | claims : Leads .waiting .inUse
  | leaves : Leads .waiting .scanning
  | ends : Leads .inUse .scanning

/-- A row of changes that leads from one stage to another, each change from where the one before has led. -/
inductive Stage.Path : Stage → List (Stage × Stage) → Stage → Prop
  | nil (s : Stage) : Path s [] s
  | cons {a b c : Stage} {rest : List (Stage × Stage)} (hleads : Leads a b) (hrest : Path b rest c) :
      Path a ((a, b) :: rest) c

/-- A single change is a path. -/
theorem Stage.Leads.path {a b : Stage} (h : a.Leads b) : Stage.Path a [(a, b)] b := .cons h (.nil b)

/-- Where one path ends another may go on. -/
theorem Stage.Path.append {a b c : Stage} {first second : List (Stage × Stage)} (hfirst : Path a first b)
    (hsecond : Path b second c) : Path a (first ++ second) c := by
  induction hfirst with
  | nil => exact hsecond
  | cons hleads _ ih => exact .cons hleads (ih hsecond)

namespace Notice

/-- The change of stage that a notice reports. -/
def change? : Notice → Option (Stage × Stage)
  | stateChanged before after => some (before, after)
  | _ => none

/-- The booth at which a notice reports the start of a session. -/
def started? : Notice → Option NodeId
  | sessionStarted booth => some booth
  | _ => none

/-- Whether a notice reports the start or the end of a session. -/
def isSession : Notice → Bool
  | sessionStarted _ | sessionEnded _ _ => true
  | _ => false

end Notice

/-- Starts and ends of sessions in turn, from one open session or none to another one or none. A session ends
at the booth at which it has started. -/
inductive Sessions : Option NodeId → List Notice → Option NodeId → Prop
  | nil (present : Option NodeId) : Sessions present [] present
  | starts {booth : NodeId} {rest : List Notice} {last : Option NodeId} (hrest : Sessions (some booth) rest last) :
      Sessions none (.sessionStarted booth :: rest) last
  | ends {booth : NodeId} {reason : EndReason} {rest : List Notice} {last : Option NodeId}
      (hrest : Sessions none rest last) : Sessions (some booth) (.sessionEnded booth reason :: rest) last

/-- Where one row of sessions ends another may go on. -/
theorem Sessions.append {a b c : Option NodeId} {first second : List Notice} (hfirst : Sessions a first b)
    (hsecond : Sessions b second c) : Sessions a (first ++ second) c := by
  induction hfirst with
  | nil => exact hsecond
  | starts _ ih => exact .starts (ih hsecond)
  | ends _ ih => exact .ends (ih hsecond)

namespace Visitor

/-- The booth of the present session. -/
def session? (v : Visitor) : Option NodeId :=
  match v.phase with
  | .inUse booth _ => some booth
  | _ => none

/-- A session is open exactly while the visitor is inside. -/
theorem session?_isSome_iff (v : Visitor) : v.session?.isSome = true ↔ v.stage = .inUse := by
  unfold session? stage Phase.stage
  cases v.phase <;> simp

/-- A visitor that registers has no session. -/
theorem session?_of_registering? {v : Visitor} {booth : NodeId} (h : v.registering? = some booth) :
    v.session? = none := by
  rw [← Option.not_isSome_iff_eq_none, session?_isSome_iff]
  exact stage_ne_inUse h

/-- A visitor registers from a booth in view or from its queue. -/
theorem stage_of_registering? {v : Visitor} {booth : NodeId} (h : v.registering? = some booth) :
    v.stage = .connected ∨ v.stage = .waiting := by
  unfold registering? at h
  unfold stage Phase.stage
  split at h <;> simp_all

/-- The notices that a visitor has given on its way from one state to another. -/
structure Travels (v w : Visitor) (log : List Notice) : Prop where
  path : Stage.Path v.stage (log.filterMap Notice.change?) w.stage
  sessions : Sessions v.session? (log.filter Notice.isSession) w.session?
  visits : w.visits = v.visits ++ log.filterMap Notice.started?

variable {u v w : Visitor} {m : Moment} {i : Input}

/-- Without notices a visitor has not moved. -/
theorem Travels.refl (v : Visitor) : v.Travels v [] := ⟨.nil _, .nil _, (List.append_nil _).symm⟩

/-- Two ways that meet make up one. -/
theorem Travels.trans {first second : List Notice} (hfirst : u.Travels v first) (hsecond : v.Travels w second) :
    u.Travels w (first ++ second) where
  path := by
    rw [List.filterMap_append]
    exact hfirst.path.append hsecond.path
  sessions := by
    rw [List.filter_append]
    exact hfirst.sessions.append hsecond.sessions
  visits := by
    rw [hsecond.visits, hfirst.visits, List.filterMap_append, List.append_assoc]

/-- A visitor that stays in its stage and its session has not moved. -/
theorem Travels.stays {log : List Notice} (hstage : w.stage = v.stage) (hsession : w.session? = v.session?)
    (hvisits : w.visits = v.visits) (hchanges : log.filterMap Notice.change? = [])
    (hsessions : log.filter Notice.isSession = []) (hstarted : log.filterMap Notice.started? = []) :
    v.Travels w log where
  path := by
    rw [hchanges, hstage]
    exact .nil _
  sessions := by
    rw [hsessions, hsession]
    exact .nil _
  visits := by rw [hstarted, hvisits, List.append_nil]

/-- A visitor that reports a change of stage has moved along it. -/
theorem Travels.moves {log : List Notice} (hleads : v.stage.Leads w.stage)
    (hchanges : log.filterMap Notice.change? = [(v.stage, w.stage)])
    (hsessions : Sessions v.session? (log.filter Notice.isSession) w.session?)
    (hvisits : w.visits = v.visits ++ log.filterMap Notice.started?) : v.Travels w log := by
  refine ⟨?_, hsessions, hvisits⟩
  rw [hchanges]
  exact hleads.path

/-- A visitor that gets back to scanning from outside has moved without a session. -/
theorem Travels.frees {log : List Notice} (hscanning : w.phase = .scanning) (hleads : v.stage.Leads .scanning)
    (houtside : v.session? = none) (hvisits : w.visits = v.visits)
    (hchanges : log.filterMap Notice.change? = [(v.stage, .scanning)])
    (hsessions : log.filter Notice.isSession = []) (hstarted : log.filterMap Notice.started? = []) :
    v.Travels w log := by
  have hstage : w.stage = .scanning := by rw [stage, hscanning]; rfl
  refine .moves (hstage ▸ hleads) (hstage ▸ hchanges) ?_ (by rw [hstarted, hvisits, List.append_nil])
  rw [hsessions, houtside, session?, hscanning]
  exact .nil _

/-- What a reaction reports is the way that the visitor goes. -/
theorem react_travels (v : Visitor) (m : Moment) (i : Input) :
    v.Travels (v.react m i).1 (Action.emitted (v.react m i).2) := by
  have hreaction := v.react_reaction m i
  generalize v.react m i = outcome at hreaction
  cases hreaction with
  | idle | chats | answers | showsText | showsChat | showsExit | reconnects | reaffirms | reclaims
  | hears | findsNone =>
    exact .stays rfl rfl rfl rfl rfl rfl
  | starts | rescans =>
    rw [startScan_emitted]
    exact .stays rfl rfl rfl rfl rfl rfl
  | accepts booth current capacity waiting description rssi snr hphase
  | consults booth current capacity waiting description rssi snr hphase
  | affirms booth hphase
  | claims booth claiming place rssi snr hphase
  | placed booth message position total claiming place rssi snr hmessage hphase =>
    exact .stays (by rw [stage, stage, hphase]; rfl) (by rw [session?, session?, hphase]) rfl rfl rfl rfl
  | connects booth score hphase =>
    have hstage : v.stage = .scanning := by rw [stage, hphase]; rfl
    refine .moves ?_ (by rw [hstage]; rfl) ?_ (List.append_nil _).symm
    · rw [hstage]
      exact .selects
    · rw [session?, hphase]
      exact .nil _
  | losesBooth booth hphase | declines booth awaiting hphase | givesUp booth hphase =>
    refine .frees rfl ?_ (by rw [session?, hphase]) rfl rfl rfl rfl
    rw [stage, hphase]
    exact .fails
  | abandons booth place hphase | leaves booth claiming place hphase
  | dropped booth message position total claiming place rssi snr hmessage hphase =>
    refine .frees rfl ?_ (by rw [session?, hphase]) rfl rfl rfl rfl
    rw [stage, hphase]
    exact .leaves
  | enters booth reason rssi snr hregistering =>
    have hleads : v.stage.Leads .inUse := by
      rcases stage_of_registering? hregistering with hstage | hstage <;> rw [hstage]
      · exact .enters
      · exact .claims
    simp only [markSpent_eq]
    refine .moves hleads rfl ?_ rfl
    rw [session?_of_registering? hregistering]
    exact .starts (.nil _)
  | queues booth rssi snr hregistering =>
    have houtside := session?_of_registering? hregistering
    rcases stage_of_registering? hregistering with hstage | hstage
    · rw [if_neg (by simp [hstage])]
      refine .moves ?_ rfl ?_ (List.append_nil _).symm
      · rw [hstage]
        exact .queues
      · rw [houtside]
        exact .nil _
    · rw [if_pos hstage]
      exact .stays hstage.symm houtside.symm rfl rfl rfl rfl
  | refused booth rssi snr hregistering =>
    simp only [markSpent_eq]
    refine .frees rfl ?_ (session?_of_registering? hregistering) rfl rfl rfl rfl
    rcases stage_of_registering? hregistering with hstage | hstage <;> rw [hstage]
    · exact .fails
    · exact .leaves
  | timesOut booth start rssi snr hphase | exits booth start hphase | expires booth start hphase =>
    refine .moves ?_ rfl ?_ (List.append_nil _).symm
    · rw [stage, hphase]
      exact .ends
    · rw [session?, hphase]
      exact .ends (.nil _)

/-- What a run reports is the way that the visitor goes. -/
theorem run_travels (v : Visitor) (events : List (Moment × Input)) :
    v.Travels (v.run events).1 (Action.emitted (v.run events).2) := by
  induction events generalizing v with
  | nil => exact .refl v
  | cons e rest ih =>
    rw [run_cons, Action.emitted_append]
    exact (v.react_travels e.1 e.2).trans (ih _)

/-- The notices that a new visitor has given on its way to its present state: the path from the first scan,
the sessions on it, the one that is open exactly while the visitor is inside, and the visits, which are the
booths of all sessions in order. -/
structure Journey (v : Visitor) (log : List Notice) : Prop where
  path : Stage.Path .scanning (log.filterMap Notice.change?) v.stage
  sessions : Sessions none (log.filter Notice.isSession) v.session?
  inside : v.session?.isSome = true ↔ v.stage = .inUse
  visits : v.visits = log.filterMap Notice.started?

/-- Every run of a new visitor is a journey. -/
theorem run_journey (id : NodeId) (r : Rules) (events : List (Moment × Input)) :
    ((ofRules id r).run events).1.Journey (Action.emitted ((ofRules id r).run events).2) :=
  have h := (ofRules id r).run_travels events
  ⟨h.path, h.sessions, session?_isSome_iff _, h.visits⟩

end Visitor

end BoothFloor
