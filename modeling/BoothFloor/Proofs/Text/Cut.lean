import BoothFloor.Proofs.Text.Utf8
import BoothFloor.Text.Cut
import Mathlib.Data.List.TakeWhile

/-!
# What is left of a text that is cut

Cutting leaves the longest beginning that fits. On the air the part of a text from its first NUL on is
lost before the rest is cut to its cap; `IsCut` says so without the algorithm.
-/

namespace BoothFloor.Text

/-- What is left of a text under a cap of `max` bytes: of the beginnings of the part before its first
NUL that fit, the longest one. -/
structure IsCut (max : Nat) (text cut : String) : Prop where
  beginning : cut.toList <+: beforeNul text.toList
  fits : byteSize cut ≤ max
  longest : ∀ cs, cs <+: beforeNul text.toList → Utf8.size cs ≤ max → cs <+: cut.toList

/-- What fits is a beginning of the text. -/
theorem fitting_prefix_self (budget : Nat) (cs : List Char) : fitting budget cs <+: cs := by
  induction cs generalizing budget with
  | nil => exact List.prefix_rfl
  | cons c cs ih =>
    simp only [fitting]
    split
    · exact (List.prefix_cons_inj c).mpr (ih _)
    · exact List.nil_prefix

/-- What fits takes no more than the budget. -/
theorem size_fitting_le (budget : Nat) (cs : List Char) : Utf8.size (fitting budget cs) ≤ budget := by
  induction cs generalizing budget with
  | nil => exact Nat.zero_le _
  | cons c cs ih =>
    simp only [fitting]
    split
    · next hfits =>
      have hrest := ih (budget - Utf8.width c)
      simp only [Utf8.size]
      omega
    · exact Nat.zero_le _

/-- Every beginning within the budget is a beginning of what fits. -/
theorem prefix_fitting {budget : Nat} {part cs : List Char} (hpart : part <+: cs)
    (hsize : Utf8.size part ≤ budget) : part <+: fitting budget cs := by
  induction cs generalizing budget part with
  | nil => exact hpart
  | cons c cs ih =>
    cases part with
    | nil => exact List.nil_prefix
    | cons d part =>
      obtain ⟨rfl, hrest⟩ := List.cons_prefix_cons.mp hpart
      simp only [Utf8.size] at hsize
      simp only [fitting]
      rw [if_pos (by omega)]
      exact (List.prefix_cons_inj d).mpr (ih hrest (by omega))

/-- The longest beginning of a text that takes at most `max` bytes. -/
structure IsLongest (max : Nat) (whole part : List Char) : Prop where
  beginning : part <+: whole
  fits : Utf8.size part ≤ max
  longest : ∀ cs, cs <+: whole → Utf8.size cs ≤ max → cs <+: part

/-- What fits is the longest beginning that does. -/
theorem isLongest_fitting (max : Nat) (cs : List Char) : IsLongest max cs (fitting max cs) :=
  ⟨fitting_prefix_self max cs, size_fitting_le max cs, fun _ => prefix_fitting⟩

/-- A text that fits is its own longest beginning. -/
theorem fitting_of_size_le {max : Nat} {cs : List Char} (h : Utf8.size cs ≤ max) : fitting max cs = cs :=
  (fitting_prefix_self max cs).eq_of_length_le (prefix_fitting List.prefix_rfl h).length_le

/-- There is no NUL before the first one. -/
theorem nul_not_mem_beforeNul (cs : List Char) : '\x00' ∉ beforeNul cs := by
  intro hmem
  simpa using List.all_eq_true.mp List.all_takeWhile _ hmem

/-- There is no NUL in what is left of a text. -/
theorem nul_not_mem_wired (max : Nat) (text : String) : '\x00' ∉ (wired max text).toList := by
  rw [wired, String.toList_ofList]
  exact fun hmem => nul_not_mem_beforeNul _ ((fitting_prefix_self _ _).subset hmem)

/-- The form in which a text arrives is what is left of it under the cap. -/
theorem wired_isCut (max : Nat) (text : String) : IsCut max text (wired max text) where
  beginning := by
    rw [wired, String.toList_ofList]
    exact fitting_prefix_self _ _
  fits := by
    rw [byteSize, wired, String.toList_ofList]
    exact size_fitting_le _ _
  longest := fun cs hcs hsize => by
    rw [wired, String.toList_ofList]
    exact prefix_fitting hcs hsize

/-- A text is left in one form only. -/
theorem IsCut.eq {max : Nat} {text cut cut' : String} (h : IsCut max text cut) (h' : IsCut max text cut') :
    cut' = cut := by
  have hle : cut'.toList <+: cut.toList := h.longest _ h'.beginning h'.fits
  have hge : cut.toList <+: cut'.toList := h'.longest _ h.beginning h.fits
  exact String.toList_injective (hle.eq_of_length (Nat.le_antisymm hle.length_le hge.length_le))

/-- The part before the first NUL is all of a text without one. -/
theorem beforeNul_eq_self {cs : List Char} (h : '\x00' ∉ cs) : beforeNul cs = cs := by
  rw [beforeNul, List.takeWhile_eq_self_iff]
  exact fun c hc => decide_eq_true fun heq => h (heq ▸ hc)

/-- A text is left whole exactly if it has no NUL and fits. -/
theorem isCut_self_iff {max : Nat} {text : String} :
    IsCut max text text ↔ '\x00' ∉ text.toList ∧ byteSize text ≤ max := by
  constructor
  · intro h
    exact ⟨fun hmem => nul_not_mem_beforeNul _ (h.beginning.subset hmem), h.fits⟩
  · rintro ⟨hnul, hfits⟩
    have hwhole := beforeNul_eq_self hnul
    refine ⟨?_, hfits, fun cs hcs _ => ?_⟩
    · exact hwhole.symm ▸ List.prefix_rfl
    · rwa [hwhole] at hcs

end BoothFloor.Text
