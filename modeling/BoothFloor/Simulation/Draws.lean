import BoothFloor.NodeId

/-!
# Seeded draws

A lottery gives numbers below a bound, one after the other, and is begun with a seed. The one that runs is a stream of
64-bit words that is a function of its seed, with draws from a range of numbers by the multiply-and-reject method, which
favours none of them.
-/

namespace BoothFloor

/-- A source of numbers below `bound`, each of which leaves it in another state. -/
structure Lottery (bound : Nat) where
  State : Type
  ofSeed : UInt64 → State
  draw : State → Nat × State
  draw_lt : ∀ s, (draw s).1 < bound

/-- The state of a stream of words. -/
structure Draws where
  state : UInt64
  deriving DecidableEq, Repr, Inhabited

namespace Draws

/-- The next word: the two halves of a product of the state with its own scrambled form, combined. -/
def next (d : Draws) : UInt64 × Draws :=
  let s := d.state + 0x2d358dccaa6c78a5
  let product := s.toNat * (s ^^^ 0x8bb84b93962eacc9).toNat
  (UInt64.ofNat product ^^^ UInt64.ofNat (product / UInt64.size), ⟨s⟩)

/-- The low 32 bits of the next word. -/
def next32 (d : Draws) : Nat × Draws :=
  let (word, d) := d.next
  (word.toNat % UInt32.size, d)

/-- Draw a number below `n`. A word that falls into the incomplete last share of the range is
rejected and another one drawn. The stream repeats after `2 ^ 64` words, so more attempts than that
would not help. -/
def belowWithin (n : Nat) : Nat → Draws → Nat × Draws
  | 0, d => (0, d)
  | attempts + 1, d =>
    let (word, d) := d.next32
    let product := word * n
    if product % UInt32.size < (UInt32.size - n) % n then belowWithin n attempts d
    else (product / UInt32.size, d)

/-- A number below `n`, all of them equally likely. -/
def below (n : Nat) (d : Draws) : Nat × Draws := belowWithin n UInt64.size d

/-- A draw stays below its bound, however many words are rejected on the way. -/
theorem belowWithin_lt {bound : Nat} (hbound : 0 < bound) (attempts : Nat) (d : Draws) :
    (belowWithin bound attempts d).1 < bound := by
  induction attempts generalizing d with
  | zero => exact hbound
  | succ attempts ih =>
    unfold belowWithin
    dsimp only
    split
    · exact ih _
    · have hword : d.next32.1 < UInt32.size := Nat.mod_lt _ (by decide)
      exact Nat.div_lt_of_lt_mul (Nat.mul_lt_mul_of_pos_right hword hbound)

/-- The lottery of this stream. -/
def lottery (bound : Nat) (hbound : 0 < bound) : Lottery bound where
  State := Draws
  ofSeed := Draws.mk
  draw := below bound
  draw_lt := belowWithin_lt hbound UInt64.size

end Draws

end BoothFloor
