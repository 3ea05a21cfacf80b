import BoothFloor.Fault
import Mathlib.Algebra.Group.Int.Defs
import Mathlib.Algebra.GroupWithZero.Nat

/-!
# Arithmetic that notices its faults

A machine's sum fits a word of so many bits, a difference is not below zero, a remainder needs a divisor and a place
in a list has to be there. The operations here give the result where all is well and otherwise say what is wrong.
Written with them, the steps of a node show every place at which their arithmetic could go astray; what is proved of
each of them is that it gives what the plain step gives, and when.
-/

namespace BoothFloor

namespace Checked

/-- The difference of two numbers that are not negative. -/
def sub (a b : Nat) : Except Fault Nat := if b ≤ a then .ok (a - b) else .error .underflow

/-- What a division leaves over. -/
def rem (a b : Nat) : Except Fault Nat := if b = 0 then .error .zeroDivisor else .ok (a % b)

/-- A number in a signed word of `bits` bits. -/
def signed (bits : Nat) (x : Int) : Except Fault Int :=
  if -2 ^ (bits - 1) ≤ x ∧ x < 2 ^ (bits - 1) then .ok x else .error .overflow

variable {α β : Type}

/-- A result, unless there has been a fault. -/
def result (fault : Option Fault) (a : α) : Except Fault α :=
  match fault with
  | some fault => .error fault
  | none => .ok a

/-- The entry of a list at a place. -/
def nth (l : List α) (i : Nat) : Except Fault α :=
  if h : i < l.length then .ok l[i] else .error .outOfRange

/-- The entries of a list from one place up to another. -/
def slice (l : List α) (start stop : Nat) : Except Fault (List α) :=
  if start ≤ stop ∧ stop ≤ l.length then .ok ((l.take stop).drop start) else .error .outOfRange

theorem add_of_lt {bits a b : Nat} (h : a + b < 2 ^ bits) : add bits a b = .ok (a + b) := if_pos h

theorem add_of_le {bits a b : Nat} (h : 2 ^ bits ≤ a + b) : add bits a b = .error .overflow :=
  if_neg (Nat.not_lt.mpr h)

theorem sub_of_le {a b : Nat} (h : b ≤ a) : sub a b = .ok (a - b) := if_pos h

theorem rem_of_pos {a b : Nat} (h : 0 < b) : rem a b = .ok (a % b) := if_neg (Nat.ne_of_gt h)

theorem signed_of_mem {bits : Nat} {x : Int} (hlow : -2 ^ (bits - 1) ≤ x) (hhigh : x < 2 ^ (bits - 1)) :
    signed bits x = .ok x := if_pos ⟨hlow, hhigh⟩

theorem nth_of_lt {l : List α} {i : Nat} (h : i < l.length) : nth l i = .ok l[i] := dif_pos h

theorem slice_zero_of_le {l : List α} {stop : Nat} (h : stop ≤ l.length) :
    slice l 0 stop = .ok (l.take stop) := if_pos ⟨Nat.zero_le _, h⟩

/-- The rest of a list from a place on. -/
theorem slice_length_of_le {l : List α} {start : Nat} (h : start ≤ l.length) :
    slice l start l.length = .ok (l.drop start) := by
  rw [slice, if_pos ⟨h, Nat.le_refl _⟩, List.take_length]

/-- What goes through for every entry of a list goes through for the list. -/
theorem mapM_eq_ok {step : α → Except Fault β} {plain : α → β} {l : List α}
    (hstep : ∀ a ∈ l, step a = .ok (plain a)) : l.mapM step = .ok (l.map plain) := by
  induction l with
  | nil => rfl
  | cons a rest ih =>
    rw [List.mapM_cons, hstep a List.mem_cons_self, ok_bind, ih fun b hb => hstep b (List.mem_cons_of_mem a hb)]
    rfl

/-- A loop goes through if each of its steps does and keeps what the next one needs. -/
theorem foldlM_eq_ok {step : β → α → Except Fault β} {plain : β → α → β} {P : List α → β → Prop} {l : List α} {b : β}
    (hb : P l b) (hstep : ∀ a rest b, P (a :: rest) b → step b a = .ok (plain b a) ∧ P rest (plain b a)) :
    l.foldlM step b = .ok (l.foldl plain b) := by
  induction l generalizing b with
  | nil => rfl
  | cons a rest ih =>
    obtain ⟨hok, hkeeps⟩ := hstep a rest b hb
    rw [List.foldlM_cons, hok, ok_bind]
    exact ih hkeeps

end Checked

end BoothFloor
