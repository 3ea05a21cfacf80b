import BoothFloor.Floor
import BoothFloor.Simulation.Draws
import BoothFloor.Simulation.Report

/-!
# Simulating a floor

All booths and visitors of a floor on one clock, each visitor hearing each booth with a strength
drawn from a seed. A run is a function of its setup and of the numbers that are drawn.
-/

namespace BoothFloor

/-- What a simulation is told. -/
structure Setup where
  rules : Rules
  users : UInt8
  duration : Duration
  tick : Duration
  seed : UInt64
  deriving DecidableEq, Repr

/-- Why a simulation cannot be set up. -/
inductive SimulationError where
  | tooManyUsers (users last : UInt8)
  | zeroTick
  | node (error : NodeError)
  deriving DecidableEq, Repr

def SimulationError.reason : SimulationError → String
  | tooManyUsers users last =>
    toString users ++ " users do not fit after admin " ++ toString last
  | zeroTick => "Tick must be greater than 0"
  | node error => error.message

/-- How strongly a sender (first) is heard by a receiver (second); what was noted last comes first. -/
abbrev Strengths := List ((NodeId × NodeId) × Int16)

namespace Setup

/-- The ids of the visitors, which follow those of the hosts. -/
def visitorIds (s : Setup) : List NodeId :=
  (List.range' (s.rules.hosts.last.toNat + 1) s.users.toNat).map NodeId.ofNat

def nodeIds (s : Setup) : List NodeId := s.rules.hosts.ids ++ s.visitorIds

/-- How many frames a node must be able to hold: four from every node in one tick. -/
def frameDepth (s : Setup) : Nat := (s.rules.hosts.count + s.users.toNat) * 4

/-- The rules with an inbox deep enough for the frames of one tick. -/
def raisedRules (s : Setup) : Rules :=
  if s.rules.frameDepth.toNat < s.frameDepth then
    { s.rules with frameDepth := UInt64.ofNat s.frameDepth }
  else s.rules

/-- The weakest strength that is drawn. -/
def weakest : Int := -95

/-- How many strengths there are, the strongest one being -35. -/
def strengthCount : Nat := 61

/-- Draw the strength with which a visitor and a booth hear each other, and note it for both directions. -/
def drawPair (lottery : Lottery strengthCount) (noted : Strengths × lottery.State) (pair : NodeId × NodeId) :
    Strengths × lottery.State :=
  let (n, state) := lottery.draw noted.2
  let rssi := Int16.ofInt (weakest + n)
  ((pair.swap, rssi) :: (pair, rssi) :: noted.1, state)

/-- The strengths between some booths and some visitors, drawn visitor by visitor. -/
def drawAll (lottery : Lottery strengthCount) (booths visitors : List NodeId) (seed : UInt64) : Strengths :=
  ((visitors.flatMap fun visitor => booths.map (visitor, ·)).foldl (drawPair lottery) ([], lottery.ofSeed seed)).1

def strengths (lottery : Lottery strengthCount) (s : Setup) : Strengths :=
  drawAll lottery s.rules.hosts.ids s.visitorIds s.seed

/-- The lottery from which strengths are drawn when a simulation runs. -/
def stream : Lottery strengthCount := Draws.lottery strengthCount (by decide)

end Setup

structure Simulation where
  setup : Setup
  floor : Floor
  strengths : Strengths
  /-- The tallies of the booths. -/
  tallies : List (NodeId × Tally)
  framesOnAir : Nat := 0
  ticks : Nat := 0
  /-- The fault that has ended the run, if any. -/
  fault : Option Fault := none
  deriving DecidableEq, Repr

namespace Simulation

/-- Set up a floor: the hosts of the rules and, after them, the visitors. -/
def ofSetupWith (lottery : Lottery Setup.strengthCount) (s : Setup) : Except SimulationError Simulation :=
  if 255 ≤ s.rules.hosts.last.toNat + s.users.toNat then
    .error (.tooManyUsers s.users s.rules.hosts.last)
  else if s.tick.nanos = 0 then .error .zeroTick
  else
    match s.nodeIds.mapM (Node.ofRules · s.raisedRules) with
    | .error e => .error (.node e)
    | .ok nodes =>
      .ok
        { setup := { s with rules := s.raisedRules }
          floor := ⟨nodes, ⟨.zero⟩⟩
          strengths := s.strengths lottery
          tallies := (nodes.filter (·.machine.role = .admin)).map fun n => (n.id, {}) }

/-- Set up a floor with strengths from the stream. -/
def ofSetup (s : Setup) : Except SimulationError Simulation := ofSetupWith Setup.stream s

/-- Hosts hear one another at -100, visitors one another like the weakest draw. -/
def radio (s : Simulation) : Radio := fun a b =>
  let rssi :=
    match s.strengths.lookup (a, b) with
    | some r => r
    | none => if s.setup.rules.isHost a && s.setup.rules.isHost b then -100 else -95
  some ⟨rssi, 8⟩

/-- Count what a node has reported in the tally of its booth, if it runs one. -/
def book (tallies : List (NodeId × Tally)) (reported : NodeId × List Notice) : List (NodeId × Tally) :=
  tallies.map fun (booth, t) =>
    (booth, if booth = reported.1 then reported.2.foldl Tally.count t else t)

/-- One tick of the whole floor. -/
def step (s : Simulation) : Simulation :=
  let (floor, round) := s.floor.round s.setup.tick s.radio
  { s with
    floor := floor
    tallies := round.notices.foldl book s.tallies
    framesOnAir := s.framesOnAir + round.transmissions.length
    ticks := s.ticks + 1
    fault := s.fault.or round.fault }

/-- Some ticks of the whole floor. -/
def steps : Nat → Simulation → Simulation
  | 0, s => s
  | n + 1, s => steps n s.step

/-- How many ticks a run takes: the whole milliseconds of its duration over those of a tick, which
count as at least one, modulo the word. -/
def runTicks (s : Setup) : Nat :=
  (UInt64.ofNat (s.duration.wholeMillis / max 1 s.tick.wholeMillis)).toNat

def boothReport (s : HostSnapshot) (stats : Stats) (t : Tally) : BoothReport where
  id := s.id
  tally := t
  served := s.registered.length
  active := s.active
  waiting := s.waiting
  framesReceived := stats.counters.framesReceived
  framesDropped := stats.counters.framesDropped

def visitorReport (s : VisitorSnapshot) : VisitorReport := ⟨s.id, s.stage, s.booth, s.visits⟩

/-- The state of the floor as a report that says how long the simulation took. -/
def reportOver (s : Simulation) (durationMs : UInt64) : Report where
  seed := s.setup.seed
  durationMs := durationMs
  ticks := s.ticks
  framesOnAir := s.framesOnAir
  booths := s.floor.nodes.filterMap fun n =>
    match n.snapshot with
    | .host h => some (boothReport h n.stats ((s.tallies.lookup h.id).getD {}))
    | .visitor _ => none
  visitors := s.floor.nodes.filterMap fun n =>
    match n.snapshot with
    | .host _ => none
    | .visitor v => some (visitorReport v)

/-- The state of the floor as a report, unless there has been a fault or the word does not hold how long the simulation
took. -/
def report (s : Simulation) : Except Fault Report :=
  match s.fault with
  | some fault => .error fault
  | none => do
    let durationMs ← Checked.mul 64 s.ticks s.setup.tick.toSpan.ms.toNat
    return s.reportOver (.ofNat durationMs)

/-- Run for the whole duration of the setup and report. -/
def run (s : Simulation) : Except Fault Report := (steps (runTicks s.setup) s).report

end Simulation

end BoothFloor
