import BoothFloor.Text.Blank
import Mathlib.Data.List.DropRight

/-!
# What is left of a text that is trimmed

Trimming takes a run of blanks off either end and stops at the first character that is none. A text is
therefore split in one way only into blanks, a part that neither begins nor ends with one, and blanks again;
`trim_eq_of_tight` and `exists_trim` say so, and the rest follows from the two.
-/

namespace BoothFloor.Text

/-- Whether a text has nothing but blanks. -/
def AllBlank (cs : List Char) : Prop := ∀ c ∈ cs, isBlank c = true

instance (cs : List Char) : Decidable (AllBlank cs) := decidable_of_iff (cs.all isBlank = true) List.all_eq_true

/-- Whether a text is one word: none of its characters is a blank. -/
def Unbroken (cs : List Char) : Prop := ∀ c ∈ cs, isBlank c = false

instance (cs : List Char) : Decidable (Unbroken cs) :=
  decidable_of_iff (cs.any isBlank = false) (by simp only [Unbroken, List.any_eq_false, Bool.not_eq_true])

/-- Whether a text neither begins nor ends with a blank. -/
structure Tight (cs : List Char) : Prop where
  begins : ∀ c ∈ cs.head?, isBlank c = false
  ends : ∀ c ∈ cs.getLast?, isBlank c = false

instance (cs : List Char) : Decidable (Tight cs) :=
  decidable_of_iff (cs.head?.any isBlank = false ∧ cs.getLast?.any isBlank = false) (by
    rw [Option.any_eq_false, Option.any_eq_false]
    exact ⟨fun h => ⟨h.1, h.2⟩, fun h => ⟨h.begins, h.ends⟩⟩)

variable {before cs core after gap word : List Char}

/-- An empty text is blank. -/
theorem AllBlank.nil : AllBlank [] := nofun

/-- Blanks behind blanks are blanks. -/
theorem AllBlank.append (hbefore : AllBlank before) (hafter : AllBlank after) : AllBlank (before ++ after) :=
  fun c hc => (List.mem_append.mp hc).elim (hbefore c) (hafter c)

/-- A word neither begins nor ends with a blank. -/
theorem Unbroken.tight (h : Unbroken word) : Tight word :=
  ⟨fun c hc => h c (List.mem_of_head? hc), fun c hc => h c (List.mem_of_getLast? hc)⟩

/-- A word, a gap and a text behind it neither begin nor end with a blank if the text does not. -/
theorem Tight.append (hword : Unbroken word) (hne : word ≠ []) (htight : Tight cs) (hcs : cs ≠ []) :
    Tight (word ++ gap ++ cs) where
  begins := by
    rw [List.append_assoc, List.head?_append_of_ne_nil _ hne]
    exact hword.tight.begins
  ends := by
    rw [List.getLast?_append_of_ne_nil _ hcs]
    exact htight.ends

/-- Blanks around a text that neither begins nor ends with one are taken off it. -/
theorem trim_eq_of_tight (hbefore : AllBlank before) (hcore : Tight core) (hafter : AllBlank after) :
    trim (before ++ core ++ after) = core := by
  have hleft : trimLeft (before ++ core ++ after) = trimLeft (core ++ after) := by
    rw [trimLeft, List.append_assoc, List.dropWhile_append_of_pos hbefore]
    rfl
  rw [trim, hleft]
  cases core with
  | nil =>
    have hnone : trimLeft after = [] := List.dropWhile_eq_nil_iff.mpr hafter
    rw [List.nil_append, hnone]
    rfl
  | cons c cs =>
    have hc : ¬ isBlank c = true := Bool.eq_false_iff.mp (hcore.begins c rfl)
    have hstays : trimLeft (c :: cs ++ after) = c :: cs ++ after := List.dropWhile_cons_of_neg hc
    have hends : List.rdropWhile isBlank (c :: cs) = c :: cs :=
      List.rdropWhile_eq_self_iff.mpr fun hne =>
        Bool.eq_false_iff.mp (hcore.ends _ (List.getLast?_eq_getLast_of_ne_nil hne))
    rw [hstays, trimRight, List.reverse_append,
      List.dropWhile_append_of_pos fun a ha => hafter a (List.mem_reverse.mp ha)]
    exact hends

/-- A text is what trimming leaves of it with blanks before and behind. -/
theorem exists_trim (cs : List Char) :
    ∃ before after, AllBlank before ∧ AllBlank after ∧ cs = before ++ trim cs ++ after := by
  refine ⟨cs.takeWhile isBlank, (trimLeft cs).rtakeWhile isBlank, fun c => List.mem_takeWhile_imp,
    fun c => List.mem_rtakeWhile_imp, ?_⟩
  have hright : trim cs ++ (trimLeft cs).rtakeWhile isBlank = trimLeft cs := List.rdropWhile_append_rtakeWhile
  rw [List.append_assoc, hright]
  exact List.takeWhile_append_dropWhile.symm

/-- Trimming leaves a text that neither begins nor ends with a blank. -/
theorem tight_trim (cs : List Char) : Tight (trim cs) where
  begins := by
    intro c hc
    obtain ⟨rest, hrest⟩ : trim cs <+: trimLeft cs := List.rdropWhile_prefix isBlank _
    have hhead : (cs.dropWhile isBlank).head? = some c := by
      rw [show cs.dropWhile isBlank = trim cs ++ rest from hrest.symm, List.head?_append, hc]
      rfl
    have hnot := List.head?_dropWhile_not isBlank cs
    rwa [hhead] at hnot
  ends := by
    intro c hc
    have hne : trim cs ≠ [] := List.ne_nil_of_mem (List.mem_of_getLast? hc)
    obtain rfl : (trim cs).getLast hne = c :=
      Option.some.inj ((List.getLast?_eq_getLast_of_ne_nil hne).symm.trans hc)
    exact Bool.eq_false_iff.mpr (List.rdropWhile_last_not isBlank (trimLeft cs) hne)

/-- Blanks around a text make no difference to what trimming leaves of it. -/
theorem trim_surround (hbefore : AllBlank before) (hafter : AllBlank after) (cs : List Char) :
    trim (before ++ cs ++ after) = trim cs := by
  obtain ⟨front, back, hfront, hback, hcs⟩ := exists_trim cs
  have hparts : before ++ cs ++ after = (before ++ front) ++ trim cs ++ (back ++ after) := by
    conv_lhs => rw [hcs]
    simp only [List.append_assoc]
  rw [hparts]
  exact trim_eq_of_tight (hbefore.append hfront) (tight_trim cs) (hback.append hafter)

/-- Nothing is left of a text exactly if it has nothing but blanks. -/
theorem trim_eq_nil_iff {cs : List Char} : trim cs = [] ↔ AllBlank cs := by
  constructor
  · intro hnone
    obtain ⟨front, back, hfront, hback, hcs⟩ := exists_trim cs
    rw [hcs, hnone, List.append_nil]
    exact hfront.append hback
  · intro hcs
    have htrim : trim (cs ++ [] ++ []) = [] := trim_eq_of_tight hcs ⟨nofun, nofun⟩ .nil
    rwa [List.append_nil, List.append_nil] at htrim

section Word

variable {rest : List Char} (hword : Unbroken word) (hrest : ∀ c ∈ rest.head?, isBlank c = true)

include hword hrest

/-- A word is read up to the blank behind it. -/
theorem takeWhile_word : (word ++ rest).takeWhile (!isBlank ·) = word := by
  have hstop : rest.takeWhile (!isBlank ·) = [] := by
    cases rest with
    | nil => rfl
    | cons c rest => simp [hrest c rfl]
  rw [List.takeWhile_append_of_pos fun c hc => by rw [hword c hc]; rfl, hstop, List.append_nil]

/-- What follows a word begins with the blank behind it. -/
theorem dropWhile_word : (word ++ rest).dropWhile (!isBlank ·) = rest := by
  rw [List.dropWhile_append_of_pos fun c hc => by rw [hword c hc]; rfl]
  cases rest with
  | nil => rfl
  | cons c rest => simp [hrest c rfl]

end Word

/-- A text that is not empty and does not begin with a blank begins with a word. -/
theorem exists_word (hcore : Tight core) (hne : core ≠ []) :
    ∃ word rest, Unbroken word ∧ word ≠ [] ∧ (∀ c ∈ rest.head?, isBlank c = true) ∧ core = word ++ rest := by
  refine ⟨core.takeWhile (!isBlank ·), core.dropWhile (!isBlank ·), ?_, ?_, ?_, ?_⟩
  · intro c hc
    simpa using List.mem_takeWhile_imp hc
  · obtain ⟨c, cs, rfl⟩ := List.exists_cons_of_ne_nil hne
    simp [hcore.begins c rfl]
  · intro c hc
    have hnot := List.head?_dropWhile_not (!isBlank ·) core
    rw [hc] at hnot
    simpa using hnot
  · exact List.takeWhile_append_dropWhile.symm

end BoothFloor.Text
