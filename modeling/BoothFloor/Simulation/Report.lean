import BoothFloor.Message.Form
import BoothFloor.Node
import BoothFloor.Notice.Text

/-!
# Reports on a simulation

What happened at every booth and where every visitor ended up, as text and as JSON.
-/

namespace BoothFloor

/-- How often a booth reported each turn of events. -/
structure Tally where
  admitted : Nat := 0
  queued : Nat := 0
  refused : Nat := 0
  exited : Nat := 0
  expired : Nat := 0
  offersExpired : Nat := 0
  deriving DecidableEq, Repr, Inhabited

namespace Tally

/-- Count one notice. -/
def count (t : Tally) : Notice → Tally
  | .userAdmitted _ => { t with admitted := t.admitted + 1 }
  | .userQueued .. => { t with queued := t.queued + 1 }
  | .userRefused _ => { t with refused := t.refused + 1 }
  | .userExited _ => { t with exited := t.exited + 1 }
  | .sessionExpired _ => { t with expired := t.expired + 1 }
  | .offerExpired _ => { t with offersExpired := t.offersExpired + 1 }
  | _ => t

end Tally

structure BoothReport where
  id : NodeId
  tally : Tally
  served : Nat
  active : List NodeId
  waiting : List NodeId
  framesReceived : Nat
  framesDropped : Nat
  deriving DecidableEq, Repr

structure VisitorReport where
  id : NodeId
  stage : Stage
  booth : Option NodeId
  visits : List NodeId
  deriving DecidableEq, Repr

structure Report where
  seed : UInt64
  durationMs : UInt64
  ticks : Nat
  framesOnAir : Nat
  booths : List BoothReport
  visitors : List VisitorReport
  deriving DecidableEq, Repr

namespace BoothReport

def text (b : BoothReport) : String :=
  "  booth " ++ b.id.text ++ ": served " ++ toString b.served ++ ", admitted " ++
    toString b.tally.admitted ++ ", queued " ++ toString b.tally.queued ++ ", refused " ++
    toString b.tally.refused ++ ", exited " ++ toString b.tally.exited ++ ", expired " ++
    toString b.tally.expired ++ ", offers expired " ++ toString b.tally.offersExpired ++
    ", active " ++ listText b.active ++ ", waiting " ++ listText b.waiting ++ "\n"

end BoothReport

namespace VisitorReport

def text (v : VisitorReport) : String :=
  "  user " ++ v.id.text ++ ": " ++ v.stage.label ++ " at " ++ boothText v.booth ++
    ", visited " ++ listText v.visits ++ "\n"

end VisitorReport

namespace Report

/-- The report for people. -/
def text (r : Report) : String :=
  "simulated " ++ toString r.durationMs ++ " ms (" ++ toString r.ticks ++ " ticks, seed " ++
    toString r.seed ++ ", " ++ toString r.framesOnAir ++ " frames)\n\nbooths:\n" ++
    String.join (r.booths.map BoothReport.text) ++ "\nusers:\n" ++
    String.join (r.visitors.map VisitorReport.text)

def boothJson (b : BoothReport) : Json :=
  .obj
    [("id", b.id.toJson), ("admitted", .ofNat b.tally.admitted), ("queued", .ofNat b.tally.queued),
      ("refused", .ofNat b.tally.refused), ("exited", .ofNat b.tally.exited),
      ("expired", .ofNat b.tally.expired), ("offers_expired", .ofNat b.tally.offersExpired),
      ("served", .ofNat b.served), ("active", .ofList NodeId.toJson b.active),
      ("waiting", .ofList NodeId.toJson b.waiting), ("frames_received", .ofNat b.framesReceived),
      ("frames_dropped", .ofNat b.framesDropped)]

def visitorJson (v : VisitorReport) : Json :=
  .obj
    [("id", v.id.toJson), ("state", .str v.stage.key),
      ("booth", .ofOption NodeId.toJson v.booth),
      ("visits", .ofList NodeId.toJson v.visits)]

def toJson (r : Report) : Json :=
  .obj
    [("seed", .ofNat r.seed.toNat), ("duration_ms", .ofNat r.durationMs.toNat),
      ("ticks", .ofNat r.ticks), ("frames_on_air", .ofNat r.framesOnAir),
      ("booths", .ofList boothJson r.booths), ("users", .ofList visitorJson r.visitors)]

/-- The report for programs. -/
def jsonText (r : Report) : String := r.toJson.pretty

end Report

end BoothFloor
