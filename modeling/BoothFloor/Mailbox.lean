/-!
# Bounded mailboxes

A first-in first-out buffer of bounded depth: when it is full, the oldest entry makes room for the new one and is
counted as overwritten. It accepts an entry as long as there is an end left at which entries can be taken out.
-/

namespace BoothFloor

/-- A buffer for at most `depth` entries, oldest first, with the number of its receiving ends. -/
structure Mailbox (α : Type) where
  depth : Nat
  receivers : Nat
  items : List α := []
  overwritten : Nat := 0
  deriving DecidableEq, Repr

namespace Mailbox

variable {α : Type}

/-- An empty mailbox; a depth of zero counts as one. It has two receiving ends: one that its owner reads from and
one that those who hand in entries use to make room. -/
def empty (depth : Nat) : Mailbox α where
  depth := max depth 1
  receivers := 2

/-- Hand in an entry: append it, dropping the oldest one if there is no room. Without a receiving end it is refused.
The answer is whether it was stored. -/
def send (m : Mailbox α) (a : α) : Bool × Mailbox α :=
  if m.receivers = 0 then (false, m)
  else if m.items.length < m.depth then (true, { m with items := m.items ++ [a] })
  else (true, { m with items := m.items.tail ++ [a], overwritten := m.overwritten + 1 })

/-- The mailbox once an entry was handed in. -/
def push (m : Mailbox α) (a : α) : Mailbox α := (m.send a).2

/-- Take out every entry, oldest first. -/
def drain (m : Mailbox α) : List α × Mailbox α := (m.items, { m with items := [] })

end Mailbox

end BoothFloor
