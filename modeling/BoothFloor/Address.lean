import BoothFloor.NodeId

/-!
# Network addresses

The addresses of version 4 and version 6 of the Internet protocol as literals: four decimal numbers,
or up to eight groups of hexadecimal digits in brackets, in which one run of zeros may be left out
and the last two groups may be written as four decimal numbers. Written, the longest run of zeros is
left out, the first one of several.
-/

namespace BoothFloor

/-- Four octets. -/
structure Ipv4 where
  a : Nat
  b : Nat
  c : Nat
  d : Nat
  deriving DecidableEq, Repr

/-- A host's address: four octets, or eight groups of 16 bits with the number of the interface
through which it is reached. -/
inductive IpAddress where
  | v4 (octets : Ipv4)
  | v6 (groups : List Nat) (zone : Nat)
  deriving DecidableEq, Repr

namespace Address

/-- The value of a digit in a base up to sixteen. -/
def digit? (base : Nat) (c : Char) : Option Nat :=
  let v :=
    if '0' ≤ c ∧ c ≤ '9' then c.toNat - 48
    else if 'a' ≤ c ∧ c ≤ 'f' then c.toNat - 87
    else if 'A' ≤ c ∧ c ≤ 'F' then c.toNat - 55
    else 16
  if v < base then some v else none

/-- The number that some digits stand for. -/
def digitsValue (base : Nat) (digits : List Char) : Nat :=
  digits.foldl (fun n c => n * base + (digit? base c).getD 0) 0

/-- All digits at the front, as a number with at most `width` digits and at most `max`. -/
def readNumber (base width max : Nat) (cs : List Char) : Option (Nat × List Char) :=
  let digits := cs.takeWhile fun c => (digit? base c).isSome
  let value := digitsValue base digits
  if digits.isEmpty ∨ width < digits.length ∨ max < value then none
  else some (value, cs.drop digits.length)

/-- A number up to 255 without needless zeros. -/
def readOctet (cs : List Char) : Option (Nat × List Char) :=
  match cs with
  | '0' :: c :: _ => if (digit? 10 c).isSome then none else readNumber 10 3 255 cs
  | _ => readNumber 10 3 255 cs

def readChar (c : Char) : List Char → Option (List Char)
  | x :: rest => if x = c then some rest else none
  | [] => none

/-- Four octets with dots between them. -/
def readIpv4 (cs : List Char) : Option (Ipv4 × List Char) := do
  let (a, cs) ← readOctet cs
  let (b, cs) ← readOctet (← readChar '.' cs)
  let (c, cs) ← readOctet (← readChar '.' cs)
  let (d, cs) ← readOctet (← readChar '.' cs)
  return (⟨a, b, c, d⟩, cs)

/-- What some groups give: the groups, whether they end with four octets, and the rest. -/
structure Groups where
  groups : List Nat
  octets : Bool
  rest : List Char

/-- The colon before every group but the first. -/
def afterColon (first : Bool) (cs : List Char) : Option (List Char) :=
  if first then some cs else readChar ':' cs

/-- At most `slots` groups with colons between them, as many as can be read. -/
def readGroups (first : Bool) : Nat → List Char → Groups
  | 0, cs => ⟨[], false, cs⟩
  | slots + 1, cs =>
    let octets := if slots = 0 then none else (afterColon first cs).bind readIpv4
    match octets with
    | some (v, rest) => ⟨[v.a * 256 + v.b, v.c * 256 + v.d], true, rest⟩
    | none =>
      match (afterColon first cs).bind (readNumber 16 4 65535) with
      | some (g, rest) =>
        let later := readGroups false slots rest
        ⟨g :: later.groups, later.octets, later.rest⟩
      | none => ⟨[], false, cs⟩

/-- Eight groups, or fewer with two colons for the groups that are left out. -/
def readIpv6 (cs : List Char) : Option (List Nat × List Char) :=
  let head := readGroups true 8 cs
  if head.groups.length = 8 then some (head.groups, head.rest)
  else if head.octets then none
  else
    match (readChar ':' head.rest).bind (readChar ':') with
    | none => none
    | some rest =>
      let tail := readGroups true (7 - head.groups.length) rest
      let zeros := 8 - head.groups.length - tail.groups.length
      some (head.groups ++ List.replicate zeros 0 ++ tail.groups, tail.rest)

/-- The number of an interface behind a percent sign; nothing there means zero. -/
def readZone (cs : List Char) : Nat × List Char :=
  match (readChar '%' cs).bind fun rest => readNumber 10 rest.length (UInt32.size - 1) rest with
  | some (zone, rest) => (zone, rest)
  | none => (0, cs)

/-- A literal address and nothing behind it. -/
def parse (text : List Char) : Option IpAddress :=
  match text with
  | '[' :: rest => do
    let (groups, rest) ← readIpv6 rest
    let (zone, rest) := readZone rest
    if rest = [']'] then some (.v6 groups zone) else none
  | _ => do
    let (octets, rest) ← readIpv4 text
    if rest.isEmpty then some (.v4 octets) else none

/-- A number in hexadecimal without leading zeros. -/
def hexText (n : Nat) : String := String.ofList (Nat.toDigits 16 n)

def ipv4Text (v : Ipv4) : String :=
  toString v.a ++ "." ++ toString v.b ++ "." ++ toString v.c ++ "." ++ toString v.d

/-- Where a run of zeros begins and how long it is. -/
structure ZeroRun where
  start : Nat
  length : Nat
  deriving DecidableEq, Repr

/-- The longest run of zeros, the first one of several: `index` groups lie behind, the run that is
going on began `current` groups ago. -/
def longestRun (index current : Nat) (best : ZeroRun) : List Nat → ZeroRun
  | [] => best
  | g :: rest =>
    if g = 0 then
      let current := current + 1
      let best := if best.length < current then ⟨index + 1 - current, current⟩ else best
      longestRun (index + 1) current best rest
    else longestRun (index + 1) 0 best rest

def groupsText (groups : List Nat) : String := String.intercalate ":" (groups.map hexText)

/-- Eight groups, two or more zeros in a row left out once. -/
def ipv6Text (groups : List Nat) : String :=
  match groups with
  | [0, 0, 0, 0, 0, 0xFFFF, g, h] =>
    "::ffff:" ++ ipv4Text ⟨g / 256, g % 256, h / 256, h % 256⟩
  | _ =>
    let run := longestRun 0 0 ⟨0, 0⟩ groups
    if 1 < run.length then
      groupsText (groups.take run.start) ++ "::" ++ groupsText (groups.drop (run.start + run.length))
    else groupsText groups

/-- An address and a port. -/
def socketText (ip : IpAddress) (port : Nat) : String :=
  match ip with
  | .v4 octets => ipv4Text octets ++ ":" ++ toString port
  | .v6 groups zone =>
    "[" ++ ipv6Text groups ++ (if zone = 0 then "" else "%" ++ toString zone) ++ "]:" ++
      toString port

end Address

end BoothFloor
