import BoothFloor.Handoff
import Mathlib.Data.List.DropRight

/-!
# Handing in a row of entries

A mailbox keeps the latest entries of a row, and all of them if there is room; it counts those that had to go. To
hand in an entry one has to take out one other at most.
-/

namespace BoothFloor

namespace Mailbox

variable {α : Type} {m : Mailbox α}

/-- How handing in an entry can end: the answer and the mailbox left behind, each under its condition. -/
inductive Sending (m : Mailbox α) (a : α) : Bool × Mailbox α → Prop
  /-- No receiving end is left. -/
  | refused (hcut : m.receivers = 0) : Sending m a (false, m)
  /-- There is room. -/
  | appended (hends : 0 < m.receivers) (hroom : m.items.length < m.depth) :
      Sending m a (true, { m with items := m.items ++ [a] })
  /-- The oldest entry has to go. -/
  | replaced (hends : 0 < m.receivers) (hfull : m.depth ≤ m.items.length) :
      Sending m a (true, { m with items := m.items.tail ++ [a], overwritten := m.overwritten + 1 })

/-- Handing in an entry ends in one of these ways. -/
theorem send_sending (m : Mailbox α) (a : α) : m.Sending a (m.send a) := by
  unfold send
  by_cases hcut : m.receivers = 0
  · rw [if_pos hcut]
    exact .refused hcut
  · have hends : 0 < m.receivers := Nat.pos_of_ne_zero hcut
    rw [if_neg hcut]
    by_cases hroom : m.items.length < m.depth
    · rw [if_pos hroom]
      exact .appended hends hroom
    · rw [if_neg hroom]
      exact .replaced hends (Nat.le_of_not_lt hroom)

/-- An entry is stored exactly if there is a receiving end. -/
theorem send_fst (m : Mailbox α) (a : α) : (m.send a).1 = decide (0 < m.receivers) := by
  have hsending := m.send_sending a
  generalize m.send a = outcome at hsending
  cases hsending with
  | refused hcut => simp [hcut]
  | appended hends | replaced hends => simp [hends]

/-- Handing in an entry leaves the depth and the receiving ends as they are. -/
theorem fixtures_push (m : Mailbox α) (a : α) :
    (m.push a).depth = m.depth ∧ (m.push a).receivers = m.receivers := by
  have hsending := m.send_sending a
  rw [push]
  generalize m.send a = outcome at hsending
  cases hsending <;> exact ⟨rfl, rfl⟩

/-- Handing in an entry leaves the depth as it is. -/
theorem depth_push (m : Mailbox α) (a : α) : (m.push a).depth = m.depth := (m.fixtures_push a).1

/-- Handing in an entry leaves the receiving ends as they are. -/
theorem receivers_push (m : Mailbox α) (a : α) : (m.push a).receivers = m.receivers := (m.fixtures_push a).2

/-- Handing in a row leaves the depth as it is. -/
theorem depth_foldl_push (m : Mailbox α) (row : List α) : (row.foldl push m).depth = m.depth := by
  induction row generalizing m with
  | nil => rfl
  | cons a rest ih => rw [List.foldl_cons, ih, depth_push]

/-- Handing in a row leaves the receiving ends as they are. -/
theorem receivers_foldl_push (m : Mailbox α) (row : List α) : (row.foldl push m).receivers = m.receivers := by
  induction row generalizing m with
  | nil => rfl
  | cons a rest ih => rw [List.foldl_cons, ih, receivers_push]

/-- While there is room, an entry is put behind the old ones. -/
theorem push_of_lt (hends : 0 < m.receivers) (hroom : m.items.length < m.depth) (a : α) :
    m.push a = { m with items := m.items ++ [a] } := by
  rw [push, send, if_neg (Nat.ne_of_gt hends), if_pos hroom]

/-- Without room, an entry takes the place of the oldest one. -/
theorem push_of_le (hends : 0 < m.receivers) (hfull : m.depth ≤ m.items.length) (a : α) :
    m.push a = { m with items := m.items.tail ++ [a], overwritten := m.overwritten + 1 } := by
  rw [push, send, if_neg (Nat.ne_of_gt hends), if_neg (Nat.not_lt_of_le hfull)]

/-- What is in a mailbox after a row has been handed in are the latest entries of the old ones and the
row. -/
theorem items_foldl_push (hends : 0 < m.receivers) (row : List α) : (row.foldl push m).items <:+ m.items ++ row := by
  induction row generalizing m with
  | nil =>
    rw [List.append_nil]
    exact List.suffix_refl _
  | cons a rest ih =>
    have hfirst : (m.push a).items <:+ m.items ++ [a] := by
      rcases Nat.lt_or_ge m.items.length m.depth with hroom | hfull
      · simp only [push_of_lt hends hroom, List.suffix_refl]
      · rw [push_of_le hends hfull]
        obtain ⟨dropped, hdropped⟩ := List.tail_suffix m.items
        exact ⟨dropped, by rw [← List.append_assoc, hdropped]⟩
    obtain ⟨dropped, hdropped⟩ := hfirst
    rw [List.foldl_cons]
    refine (ih ((m.receivers_push a).symm ▸ hends)).trans ⟨dropped, ?_⟩
    rw [← List.append_assoc, hdropped, List.append_assoc, List.singleton_append]

/-- A mailbox that has room for an entry at all and holds no more than it has room for, and whose entries can be
taken out. -/
structure Sound (m : Mailbox α) : Prop where
  depth : 0 < m.depth
  room : m.items.length ≤ m.depth
  connected : 0 < m.receivers

/-- An entry that is handed in at a sound mailbox is stored. -/
theorem Sound.send_fst (h : m.Sound) (a : α) : (m.send a).1 = true := by
  rw [Mailbox.send_fst, decide_eq_true h.connected]

/-- How many entries there are once one more has been handed in. -/
theorem Sound.length_push (h : m.Sound) (a : α) : (m.push a).items.length = min (m.items.length + 1) m.depth := by
  have hdepth := h.depth
  have hroom := h.room
  rcases Nat.lt_or_ge m.items.length m.depth with hless | hfull
  · rw [push_of_lt h.connected hless, List.length_append, List.length_singleton]
    omega
  · rw [push_of_le h.connected hfull, List.length_append, List.length_tail, List.length_singleton]
    omega

/-- An entry has to go exactly if there is no room for another one. -/
theorem Sound.overwritten_push (h : m.Sound) (a : α) :
    (m.push a).overwritten = m.overwritten + (m.items.length + 1 - m.depth) := by
  have hroom := h.room
  rcases Nat.lt_or_ge m.items.length m.depth with hless | hfull
  · rw [push_of_lt h.connected hless, Nat.sub_eq_zero_of_le hless]
    rfl
  · rw [push_of_le h.connected hfull, show m.items.length + 1 - m.depth = 1 by omega]

/-- A mailbox stays sound as an entry is handed in. -/
theorem Sound.push (h : m.Sound) (a : α) : (m.push a).Sound where
  depth := (depth_push m a).symm ▸ h.depth
  room := by
    rw [h.length_push, depth_push]
    exact Nat.min_le_right _ _
  connected := (receivers_push m a).symm ▸ h.connected

/-- How many entries there are once a row has been handed in, and how many had to go. -/
theorem Sound.count_foldl_push (h : m.Sound) (row : List α) :
    (row.foldl Mailbox.push m).items.length = min (m.items.length + row.length) m.depth ∧
      (row.foldl Mailbox.push m).overwritten = m.overwritten + (m.items.length + row.length - m.depth) := by
  induction row generalizing m with
  | nil =>
    have hroom := h.room
    simp only [List.foldl_nil, List.length_nil]
    omega
  | cons a rest ih =>
    obtain ⟨hlength, hcount⟩ := ih (h.push a)
    rw [h.length_push, depth_push] at hlength hcount
    rw [h.overwritten_push] at hcount
    have hroom := h.room
    rw [List.foldl_cons, hlength, hcount, List.length_cons]
    omega

/-- Of the old entries and a row that is handed in, those that there is room for are kept, the latest ones. -/
theorem Sound.items_foldl_push (h : m.Sound) (row : List α) :
    (row.foldl Mailbox.push m).items = (m.items ++ row).rtake m.depth := by
  have hlatest := List.suffix_iff_eq_drop.mp (Mailbox.items_foldl_push h.connected row)
  rw [(h.count_foldl_push row).1, List.length_append] at hlatest
  rw [hlatest, List.rtake, List.length_append]
  congr 1
  omega

/-- Handing in an entry takes nothing off the count. -/
theorem overwritten_le_push (m : Mailbox α) (a : α) : m.overwritten ≤ (m.push a).overwritten := by
  have hsending := m.send_sending a
  rw [push]
  generalize m.send a = outcome at hsending
  cases hsending with
  | refused | appended => exact Nat.le_refl _
  | replaced => exact Nat.le_succ _

/-- A mailbox in which nothing has been overwritten once an entry was stored had room for it. -/
theorem lt_of_overwritten_push {a : α} (hends : 0 < m.receivers) (h : (m.push a).overwritten = 0) :
    m.items.length < m.depth := by
  rcases Nat.lt_or_ge m.items.length m.depth with hroom | hfull
  · exact hroom
  · rw [push_of_le hends hfull] at h
    cases h

/-- While there is room, a row is put behind the old entries. -/
theorem foldl_push_of_le {row : List α} (hends : 0 < m.receivers) (hroom : m.items.length + row.length ≤ m.depth) :
    row.foldl push m = { m with items := m.items ++ row } := by
  induction row generalizing m with
  | nil => rw [List.foldl_nil, List.append_nil]
  | cons a rest ih =>
    rw [List.length_cons] at hroom
    rw [List.foldl_cons, push_of_lt hends (by omega), ih (by exact hends)]
    · simp
    · simp only [List.length_append, List.length_singleton]
      omega

/-- Nothing is lost while there is room. -/
theorem items_foldl_push_of_le {row : List α} (hends : 0 < m.receivers)
    (hroom : m.items.length + row.length ≤ m.depth) : (row.foldl push m).items = m.items ++ row := by
  rw [foldl_push_of_le hends hroom]

/-- Nothing is overwritten while there is room. -/
theorem overwritten_foldl_push_of_le {row : List α} (hends : 0 < m.receivers)
    (hroom : m.items.length + row.length ≤ m.depth) : (row.foldl push m).overwritten = m.overwritten := by
  rw [foldl_push_of_le hends hroom]

/-- A mailbox that has just been opened is sound. -/
theorem sound_empty (depth : Nat) : (empty depth : Mailbox α).Sound :=
  ⟨Nat.le_max_right _ _, Nat.zero_le _, Nat.zero_lt_two⟩

/-- A mailbox stays sound as its entries are taken out. -/
theorem Sound.drain (h : m.Sound) : m.drain.2.Sound := ⟨h.depth, Nat.zero_le _, h.connected⟩

/-- An entry that is handed in finds room, or room is made for it by taking out one other entry; it is stored. -/
theorem Sound.overwrite_eq (h : m.Sound) (a : α) :
    m.overwrite a = some (true, m.items.length + 1 - m.depth, m.push a) := by
  have hdepth := h.depth
  have hroom := h.room
  have hends := Nat.ne_of_gt h.connected
  rcases Nat.lt_or_ge m.items.length m.depth with hless | hfull
  · rw [overwrite, trySend, if_neg hends, if_pos hless, push_of_lt h.connected hless, Nat.sub_eq_zero_of_le hless]
  · rw [overwrite, trySend, if_neg hends, if_neg (Nat.not_lt_of_le hfull), push_of_le h.connected hfull]
    obtain ⟨depth, receivers, items, overwritten⟩ := m
    cases items with
    | nil => exact absurd hdepth (Nat.not_lt_of_le hfull)
    | cons oldest rest =>
      dsimp only [tryRecv] at *
      rw [List.length_cons] at hroom hfull
      -- once the oldest entry is gone there is room
      have hnext : rest.length < depth := by omega
      have hone : rest.length + 1 + 1 - depth = 1 := by omega
      rw [overwrite, trySend, if_neg hends, if_pos hnext, List.length_cons, hone]
      rfl

/-- Without a receiving end the attempts end at once, and the entry is refused. -/
theorem overwrite_of_disconnected (hcut : m.receivers = 0) (a : α) : m.overwrite a = some (false, 0, m) := by
  rw [overwrite, trySend, if_pos hcut]

/-- What a call makes of a mailbox: it takes the entries out, hands one in or leaves the mailbox alone. -/
def serve (m : Mailbox α) (drains : Bool) (handed? : Option α) : Mailbox α :=
  if drains then m.drain.2 else handed?.elim m m.push

/-- The latest entries of a row are there, as many as there is room for, and the others have been counted. -/
structure Keeps (m : Mailbox α) (room : Nat) (row : List α) (later : Mailbox α) : Prop where
  drained : later.drain.1 = row.rtake (min row.length room)
  counted : later.overwritten = m.overwritten + (row.length - min row.length room)

/-- A mailbox stays sound and as deep as it was, whatever a call makes of it. -/
theorem Sound.serve (h : m.Sound) (drains : Bool) (handed? : Option α) :
    (m.serve drains handed?).Sound ∧ (m.serve drains handed?).depth = m.depth := by
  unfold Mailbox.serve
  split
  · exact ⟨h.drain, rfl⟩
  · cases handed? with
    | none => exact ⟨h, rfl⟩
    | some a => exact ⟨h.push a, depth_push m a⟩

/-- A row that is handed in to an empty mailbox is kept as far as there is room. -/
theorem Sound.keeps (h : m.Sound) (hempty : m.items = []) (row : List α) :
    m.Keeps m.depth row (row.foldl Mailbox.push m) := by
  have hcount := (h.count_foldl_push row).2
  rw [hempty, List.length_nil, Nat.zero_add] at hcount
  refine ⟨?_, ?_⟩
  · change (row.foldl Mailbox.push m).items = _
    rw [h.items_foldl_push, hempty, List.nil_append, List.rtake, List.rtake]
    congr 1
    omega
  · omega

end Mailbox

end BoothFloor
