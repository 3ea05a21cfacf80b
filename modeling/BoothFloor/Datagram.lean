import BoothFloor.Inbox

/-!
# Datagrams

A frame on a network of computers travels behind a header of three bytes: the id of its sender and
the strength and quality with which it is to be heard.
-/

namespace BoothFloor

/-- Why a datagram carries no frame. -/
inductive DatagramError where
  | noPayload (length : Nat)
  | reservedSource (source : NodeId)
  deriving DecidableEq, Repr

def DatagramError.reason : DatagramError → String
  | noPayload length => toString length ++ " bytes carry no payload"
  | reservedSource source => "source is reserved id " ++ source.text

namespace Datagram

/-- The datagram of a frame. -/
def encode (source : NodeId) (rssi snr : Int8) (bytes : List UInt8) : List UInt8 :=
  source.byte :: rssi.toUInt8 :: snr.toUInt8 :: bytes

/-- The frame in a datagram: at least one byte behind the header, from a node that can exist. -/
def decode (datagram : List UInt8) : Except DatagramError Frame :=
  match datagram with
  | source :: rssi :: snr :: first :: rest =>
    if NodeId.isReserved ⟨source⟩ then .error (.reservedSource ⟨source⟩)
    else .ok ⟨⟨source⟩, first :: rest, rssi.toInt8.toInt16, snr.toInt8⟩
  | _ => .error (.noPayload datagram.length)

end Datagram

end BoothFloor
