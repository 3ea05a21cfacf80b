import BoothFloor.NodeId
import Mathlib.Data.List.Nodup
import Mathlib.Data.List.Perm.Subperm

/-!
# The ids of a range

A range of ids is a row of distinct ids, those that it contains. A set of ids holds what was put in.
-/

namespace BoothFloor

/-- An id that a node may carry is not the one for everyone. -/
theorem NodeId.isBroadcast_of_free {id : NodeId} (h : id.isReserved = false) : id.isBroadcast = false :=
  (Bool.or_eq_false_iff.mp h).2

/-- A node may carry every id but the two reserved ones. -/
theorem NodeId.isReserved_eq_false_iff {id : NodeId} : id.isReserved = false ↔ id.byte ≠ 0 ∧ id.byte ≠ 255 := by
  unfold isReserved isBroadcast
  rw [Bool.or_eq_false_iff, beq_eq_false_iff_ne, beq_eq_false_iff_ne]
  exact and_congr_right fun _ => not_congr ⟨congrArg NodeId.byte, congrArg NodeId.mk⟩

/-- An id that a node may carry lies between the two reserved ones. -/
theorem NodeId.bounds_of_free {id : NodeId} (h : id.isReserved = false) : 1 ≤ id.toNat ∧ id.toNat ≤ 254 := by
  obtain ⟨hzero, hlast⟩ := Bool.or_eq_false_iff.mp h
  have hfirst : id.byte.toNat ≠ 0 := fun heq => beq_eq_false_iff_ne.mp hzero (UInt8.toNat_inj.mp heq)
  have hbroadcast : id.byte.toNat ≠ 255 := fun heq =>
    beq_eq_false_iff_ne.mp hlast (congrArg NodeId.mk (UInt8.toNat_inj.mp heq))
  have hbyte := id.byte.toNat_lt
  unfold NodeId.toNat
  omega

/-- The id with a number is that number, if it is small enough. -/
theorem NodeId.toNat_byte_ofNat {k : Nat} (hk : k < 256) : (NodeId.ofNat k).byte.toNat = k :=
  UInt8.toNat_ofNat_of_lt' hk

/-- Distinct numbers that are small enough are those of distinct ids. -/
theorem NodeId.nodup_map_ofNat {numbers : List Nat} (hnodup : numbers.Nodup)
    (hsmall : ∀ k ∈ numbers, k < 256) : (numbers.map NodeId.ofNat).Nodup := by
  refine List.Nodup.map_on (fun k hk j hj heq => ?_) hnodup
  rw [← toNat_byte_ofNat (hsmall k hk), heq, toNat_byte_ofNat (hsmall j hj)]

/-- Some of the members of a list are fewer than all if one is missing. -/
theorem length_lt_of_missing {u : NodeId} {some all : List NodeId} (hnodup : some.Nodup) (hsub : some ⊆ all)
    (hu : u ∈ all) (hmissing : u ∉ some) : some.length < all.length :=
  (List.subperm_of_subset (List.nodup_cons.mpr ⟨hmissing, hnodup⟩) (List.cons_subset.mpr ⟨hu, hsub⟩)).length_le

/-- A set with an id put in holds that id and what it held before. -/
theorem NodeSet.contains_insert (s : NodeSet) (u v : NodeId) :
    (s.insert u).contains v = (v == u || s.contains v) := by
  unfold insert
  split
  · next hold =>
    by_cases heq : v = u
    · rw [heq, hold, Bool.or_true]
    · rw [beq_eq_false_iff_ne.mpr heq, Bool.false_or]
  · rw [contains, List.contains_cons]
    rfl

/-- A set that has just been set up holds no id. -/
theorem NodeSet.contains_empty (u : NodeId) : ({} : NodeSet).contains u = false := rfl

namespace IdRange

variable {r : IdRange} {id : NodeId}

/-- The numbers of a range of ids are those from the first to the last. -/
theorem mem_numbers_iff {k : Nat} :
    k ∈ List.range' r.first.toNat r.count ↔ r.first.toNat ≤ k ∧ k ≤ r.last.toNat := by
  rw [List.mem_range'_1, count]
  omega

/-- The numbers of a range of ids are small enough for ids. -/
theorem lt_of_mem_numbers {k : Nat} (hk : k ∈ List.range' r.first.toNat r.count) : k < 256 :=
  Nat.lt_of_le_of_lt (mem_numbers_iff.mp hk).2 r.last.toNat_lt

/-- The ids of a range are those that it contains. -/
theorem mem_ids_iff : id ∈ r.ids ↔ r.contains id = true := by
  unfold ids contains
  rw [Bool.and_eq_true, decide_eq_true_eq, decide_eq_true_eq, UInt8.le_iff_toNat_le, UInt8.le_iff_toNat_le,
    List.mem_map]
  constructor
  · rintro ⟨k, hk, rfl⟩
    rw [NodeId.toNat_byte_ofNat (lt_of_mem_numbers hk)]
    exact mem_numbers_iff.mp hk
  · intro hid
    refine ⟨id.byte.toNat, mem_numbers_iff.mpr hid, ?_⟩
    rw [NodeId.ofNat, UInt8.ofNat_toNat]

/-- A range of ids has as many of them as it counts. -/
theorem length_ids : r.ids.length = r.count := by simp [ids]

/-- The ids of a range are distinct. -/
theorem nodup_ids : r.ids.Nodup := NodeId.nodup_map_ofNat List.nodup_range' fun _ => lt_of_mem_numbers

end IdRange

end BoothFloor
