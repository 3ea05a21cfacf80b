import BoothFloor.Proofs.Checked.Frames
import BoothFloor.Proofs.Message.RoundTrip
import BoothFloor.Rules
import Mathlib.Data.List.Infix

/-!
# What a booth says of itself

A booth's description is the template of the rules with the booth's id in the place of every marker, cut to the cap on
descriptions. It is cut in the same way as every text on the air: byte by byte from the cap back to where a character
begins, which leaves the longest beginning that fits. So a description has been cut enough when it is sent, and only a
NUL in it can still take something off.
-/

namespace BoothFloor

namespace Rules

/-- The marker in a template that stands for a booth's id. -/
def marker : List Char := ['\x7b', 'i', 'd', '\x7d']

/-- A piece between two markers grows by one character at its front. -/
theorem intercalate_grow (between : List Char) (c : Char) (first : List Char) (more : List (List Char)) :
    between.intercalate ((c :: first) :: more) = c :: between.intercalate (first :: more) := by
  cases more <;> simp [List.intercalate_cons_cons]

/-- A row of pieces begins with the first one. -/
theorem prefix_intercalate (between first : List Char) (more : List (List Char)) :
    first <+: between.intercalate (first :: more) := by
  cases more with
  | nil => rw [List.intercalate_singleton]
  | cons second more =>
    rw [List.intercalate_cons_cons, List.append_assoc]
    exact List.prefix_append _ _

/-- A template is a row of pieces in which no marker is left, with a marker between any two of them; it is filled with a
value by the same pieces, with the value between them. -/
theorem exists_pieces (value template : List Char) :
    ∃ first more, (∀ piece ∈ first :: more, ¬ marker <:+: piece) ∧ template = marker.intercalate (first :: more) ∧
      fillTemplate value template = value.intercalate (first :: more) := by
  induction template using fillTemplate.induct with
  | case1 rest ih =>
    obtain ⟨first, more, hfree, hrest, hfilled⟩ := ih
    refine ⟨[], first :: more, ?_, ?_, ?_⟩
    · rintro piece (_ | ⟨_, hpiece⟩)
      · decide
      · exact hfree piece hpiece
    · rw [List.intercalate_cons_cons, ← hrest]
      rfl
    · rw [List.intercalate_cons_cons, ← hfilled]
      rfl
  | case2 c rest hother ih =>
    obtain ⟨first, more, hfree, hrest, hfilled⟩ := ih
    refine ⟨c :: first, more, ?_, ?_, ?_⟩
    · rintro piece (_ | ⟨_, hpiece⟩)
      · rw [List.infix_cons_iff]
        rintro (hfront | hinside)
        · -- a marker there would stand at the front of the template
          obtain ⟨behind, hbehind⟩ := hfront.trans ((List.prefix_cons_inj c).mpr (prefix_intercalate marker first more))
          rw [← hrest] at hbehind
          obtain ⟨hc, hrest⟩ := List.cons.inj hbehind
          exact hother behind hc.symm hrest.symm
        · exact hfree first List.mem_cons_self hinside
      · exact hfree piece (List.mem_cons_of_mem _ hpiece)
    · rw [intercalate_grow, ← hrest]
    · rw [intercalate_grow, ← hfilled, fillTemplate]
      exact hother
  | case3 => exact ⟨[], [], by decide, rfl, rfl⟩

/-- A booth's description, cut byte by byte if it is too long. -/
def descriptionForChecked (r : Rules) (booth : NodeId) : Except Fault String := do
  let filled := fillTemplate booth.text.toList r.descriptionTemplate.toList
  if Wire.maxDescription < Utf8.size filled then
    let stop ← Wire.backToBoundary filled Wire.maxDescription
    return String.ofList (Utf8.decode (← Checked.slice (Utf8.encode filled) 0 stop))
  else
    return String.ofList filled

/-- Cutting a description byte by byte never faults and leaves what fits. -/
theorem descriptionForChecked_eq (r : Rules) (booth : NodeId) :
    r.descriptionForChecked booth = .ok (r.descriptionFor booth) := by
  unfold descriptionForChecked descriptionFor
  dsimp only
  generalize fillTemplate booth.text.toList r.descriptionTemplate.toList = filled
  split
  · next hlong =>
    have hback := Wire.backToBoundary_eq filled Wire.maxDescription
    rw [Nat.min_eq_right (Nat.le_of_lt hlong)] at hback
    rw [hback, Checked.ok_bind, Wire.slice_fitting, Checked.ok_bind, Utf8.decode_encode]
    rfl
  · next hfits =>
    rw [Text.fitting_of_size_le (Nat.not_lt.mp hfits)]
    rfl

/-- A description is sent as it is exactly if there is no NUL in it. -/
theorem fits_description_iff (r : Rules) (booth : NodeId) (current capacity waiting : UInt8) :
    (Message.boothInfo current capacity waiting (r.descriptionFor booth)).Fits ↔
      '\x00' ∉ (r.descriptionFor booth).toList := by
  refine and_iff_left ?_
  rw [Text.byteSize, descriptionFor, String.toList_ofList]
  exact Text.size_fitting_le _ _

end Rules

namespace Wire

/-- Every text is cut to the longest beginning that fits. On the air that is the longest beginning of the part before
its first NUL, closed by a NUL, whatever the cap; a booth's description is the longest beginning of its template, in
which the booth's id stands in the place of every marker. Going back byte by byte from the cap comes to its end in both
cases, and never below the first byte. So what a booth sends of itself arrives as its description exactly if that has no
NUL. -/
theorem cuts_agree :
    (∀ max (text : String), ∃ part, Text.IsLongest max (Text.beforeNul text.toList) part ∧
        textBytes max text = Utf8.encode part ++ [0] ∧ textBytesChecked max text = .ok (Utf8.encode part ++ [0])) ∧
      (∀ (r : Rules) (booth : NodeId), (∃ first more, (∀ piece ∈ first :: more, ¬ Rules.marker <:+: piece) ∧
          r.descriptionTemplate.toList = Rules.marker.intercalate (first :: more) ∧
          Text.IsLongest maxDescription (booth.text.toList.intercalate (first :: more))
            (r.descriptionFor booth).toList) ∧
        r.descriptionForChecked booth = .ok (r.descriptionFor booth)) ∧
      ∀ (r : Rules) (booth : NodeId) (current capacity waiting : UInt8) (source : Role),
        decode (encode (.boothInfo current capacity waiting (r.descriptionFor booth))) source =
            .ok (.boothInfo current capacity waiting (r.descriptionFor booth)) ↔
          '\x00' ∉ (r.descriptionFor booth).toList := by
  refine ⟨fun max text => ?_, fun r booth => ⟨?_, r.descriptionForChecked_eq booth⟩,
    fun r booth current capacity waiting source => ?_⟩
  · exact ⟨_, Text.isLongest_fitting max _, rfl, textBytesChecked_eq max text⟩
  · obtain ⟨first, more, hfree, htemplate, hfilled⟩ :=
      Rules.exists_pieces booth.text.toList r.descriptionTemplate.toList
    refine ⟨first, more, hfree, htemplate, ?_⟩
    rw [Rules.descriptionFor, String.toList_ofList, hfilled]
    exact Text.isLongest_fitting _ _
  · have hfrom : (Message.boothInfo current capacity waiting (r.descriptionFor booth)).IsFrom source := trivial
    have hread := decode_encode_append hfrom []
    rw [List.append_nil] at hread
    rw [hread, ← Rules.fits_description_iff r booth current capacity waiting, ← Message.arrives_self_iff,
      Message.arrives_iff, Except.ok.injEq]
    exact eq_comm

/-- A template that is a byte too long once it is filled, with a letter of two bytes across the cap. -/
def longRules : Rules := { descriptionTemplate := "\x7bid\x7d/" ++ String.ofList (List.replicate 45 'a' ++ ['é']) }

/-- The description of a booth with a number of two digits loses its last letter, and arrives so. -/
theorem cuts_agree_longTemplate :
    longRules.descriptionForChecked ⟨12⟩ = .ok ("12/" ++ String.ofList (List.replicate 45 'a')) ∧
      decode (encode (.boothInfo 0 2 0 ("12/" ++ String.ofList (List.replicate 45 'a')))) .admin =
        .ok (.boothInfo 0 2 0 ("12/" ++ String.ofList (List.replicate 45 'a'))) := by
  obtain ⟨-, hdescription, hread⟩ := cuts_agree
  have hcut : longRules.descriptionFor ⟨12⟩ = "12/" ++ String.ofList (List.replicate 45 'a') := by decide +kernel
  have hchecked := (hdescription longRules ⟨12⟩).2
  have harrives := (hread longRules ⟨12⟩ 0 2 0 .admin).mpr (by decide +kernel)
  rw [hcut] at hchecked harrives
  exact ⟨hchecked, harrives⟩

end Wire

end BoothFloor
