import BoothFloor.Console
import BoothFloor.Proofs.Text.Blank

/-!
# The grammar of the console

A line that is not blank has a first word and a text behind it, which may be empty; blanks may stand before the word,
between the two and at the end. `Spells` says so without the reader, and a line is read by these two parts alone. So
it asks for an intent exactly if its word is the letter of the intent, the node may have it, and a text that the
intent carries is the one behind the word.
-/

namespace BoothFloor

namespace Intent

/-- The letter of the command for an intent. -/
def letter : Intent → Char
  | affirm => 'y'
  | decline => 'n'
  | exit => 'e'
  | leaveQueue => 'l'
  | chat _ => 'c'
  | announce _ => 'a'
  | toggleBroadcast => 'b'
  | status => 's'

/-- The text that an intent carries. -/
def said? : Intent → Option String
  | chat text | announce text => some text
  | _ => none

/-- The line that asks for an intent: its letter, a space and its text. -/
def line (i : Intent) : String := String.ofList (i.letter :: ' ' :: (i.said?.getD "").toList)

/-- Which intents a node may have: some are for booth hosts, some for visitors and some for both. -/
inductive IsFor : Role → Intent → Prop
  | affirm : IsFor .user affirm
  | decline : IsFor .user decline
  | exit : IsFor .user exit
  | leaveQueue : IsFor .user leaveQueue
  | announce (text : String) : IsFor .admin (announce text)
  | toggleBroadcast : IsFor .admin toggleBroadcast
  | chat (role : Role) (text : String) : IsFor role (chat text)
  | status (role : Role) : IsFor role status

/-- Whether the text that an intent carries can be typed: there is some, and it neither begins nor ends with a
blank. -/
def Sayable (i : Intent) : Prop := ∀ text, i.said? = some text → text ≠ "" ∧ Text.Tight text.toList

/-- The parts of a line: its first word, and the text behind it, apart from the blanks around both. -/
inductive Spells : (line command text : List Char) → Prop
  | intro {before command gap text after : List Char} (before_blank : Text.AllBlank before)
      (command_word : Text.Unbroken command) (command_ne : command ≠ []) (gap_blank : Text.AllBlank gap)
      (gap_ne : text ≠ [] → gap ≠ []) (text_tight : Text.Tight text) (after_blank : Text.AllBlank after) :
      Spells (before ++ command ++ gap ++ text ++ after) command text

/-- What a line is read as whose parts are these. -/
def answer (role : Role) (command text : List Char) : Except ConsoleError (Option Intent) :=
  match ofCommand command text with
  | .error e => .error e
  | .ok i => (gate role command i).map some

variable {role : Role} {i : Intent} {line command text : List Char}

/-- The reader lets a node have the intents that are for it. -/
theorem allowedFor_iff : i.allowedFor role = true ↔ i.IsFor role := by
  constructor
  · intro h
    cases role <;> cases i <;> first | constructor | cases h
  · rintro (_ | _) <;> first | rfl | (cases role <;> rfl)

/-- The text of a line has no blanks around it. -/
theorem Spells.tight (h : Spells line command text) : Text.Tight text := by
  obtain ⟨-, -, -, -, -, htight, -⟩ := h
  exact htight

/-- A line that is not blank has its parts. -/
theorem exists_spells (h : ¬ Text.AllBlank line) : ∃ command text, Spells line command text := by
  obtain ⟨before, after, hbefore, hafter, hline⟩ := Text.exists_trim line
  have hcore := Text.tight_trim line
  have hne : Text.trim line ≠ [] := fun hnil => h (Text.trim_eq_nil_iff.mp hnil)
  generalize Text.trim line = core at hline hcore hne
  subst hline
  obtain ⟨command, behind, hword, hnot, hbehind, rfl⟩ := Text.exists_word hcore hne
  obtain ⟨gap, back, hgap, hback, hparts⟩ := Text.exists_trim behind
  have htight := Text.tight_trim behind
  generalize Text.trim behind = text at hparts htight
  subst hparts
  have hgapNe : text ≠ [] → gap ≠ [] := by
    rintro htext rfl
    obtain ⟨c, cs, rfl⟩ := List.exists_cons_of_ne_nil htext
    have hblank : Text.isBlank c = true := hbehind c rfl
    exact Bool.false_ne_true ((htight.begins c rfl).symm.trans hblank)
  have hspells := Spells.intro hbefore hword hnot hgap hgapNe htight (hback.append hafter)
  refine ⟨command, text, ?_⟩
  simpa only [List.append_assoc] using hspells

/-- Trimming leaves of a line its parts, with a gap between them if there is a text. -/
theorem exists_trim_of_spells (h : Spells line command text) :
    ∃ behind, Text.trim line = command ++ behind ∧ (∀ c ∈ behind.head?, Text.isBlank c = true) ∧
      Text.trim behind = text := by
  obtain ⟨hbefore, hword, hne, hgap, hgapNe, htight, hafter⟩ := h
  rename_i before gap after
  by_cases htext : text = []
  · subst htext
    refine ⟨[], ?_, nofun, rfl⟩
    have htrim := Text.trim_eq_of_tight hbefore hword.tight (hgap.append hafter)
    simpa only [List.append_assoc, List.append_nil, List.nil_append] using htrim
  · refine ⟨gap ++ text, ?_, ?_, ?_⟩
    · have hcore : Text.Tight (command ++ gap ++ text) := .append hword hne htight htext
      have htrim := Text.trim_eq_of_tight hbefore hcore hafter
      simpa only [List.append_assoc] using htrim
    · rw [List.head?_append_of_ne_nil _ (hgapNe htext)]
      exact fun c hc => hgap c (List.mem_of_head? hc)
    · have htrim := Text.trim_eq_of_tight hgap htight .nil
      rwa [List.append_nil] at htrim

/-- A line is read by its parts. -/
theorem parseLine_of_spells (role : Role) (h : Spells line command text) :
    parseLine role line = answer role command text := by
  obtain ⟨behind, htrim, hbehind, rfl⟩ := exists_trim_of_spells h
  have hword : Text.Unbroken command ∧ command ≠ [] := by
    obtain ⟨-, hword, hne, -⟩ := h
    exact ⟨hword, hne⟩
  have hnonempty : (command ++ behind).isEmpty = false := by simp [hword.2]
  unfold parseLine
  dsimp only
  rw [htrim, hnonempty, Text.takeWhile_word hword.1 hbehind, Text.dropWhile_word hword.1 hbehind]
  rfl

/-- A command asks for an intent exactly if it is the letter of the intent, and a text that the intent carries is the
one behind it, of which there is some. -/
theorem ofCommand_eq_ok_iff :
    ofCommand command text = .ok i ↔
      command = [i.letter] ∧ ∀ said, i.said? = some said → said.toList = text ∧ text ≠ [] := by
  constructor
  · intro h
    unfold ofCommand at h
    dsimp only at h
    split at h
    case h_5 | h_6 =>
      split at h
      · cases h
      · next htext =>
        obtain rfl := Except.ok.inj h
        refine ⟨rfl, fun said hsaid => ?_⟩
        obtain rfl := Option.some.inj hsaid
        exact ⟨String.toList_ofList, fun hnil => htext (List.isEmpty_iff.mpr hnil)⟩
    case h_9 => cases h
    all_goals
      obtain rfl := Except.ok.inj h
      exact ⟨rfl, nofun⟩
  · rintro ⟨rfl, hsaid⟩
    cases i with
    | chat said | announce said =>
      obtain ⟨rfl, hne⟩ := hsaid said rfl
      simp [letter, ofCommand, hne]
    | _ => rfl

/-- An intent that a node may not have is refused. -/
theorem exists_gate_eq_error (command : List Char) (h : ¬ i.allowedFor role = true) :
    ∃ e, gate role command i = .error e := by
  unfold gate
  rw [if_neg h]
  cases role <;> exact ⟨_, rfl⟩

/-- A line is read as an intent exactly if its command asks for it and the node may have it. -/
theorem answer_eq_ok_iff :
    answer role command text = .ok (some i) ↔
      i.IsFor role ∧ command = [i.letter] ∧ ∀ said, i.said? = some said → said.toList = text ∧ text ≠ [] := by
  rw [← ofCommand_eq_ok_iff, ← allowedFor_iff, answer]
  cases hcommand : ofCommand command text with
  | error e => exact ⟨nofun, nofun⟩
  | ok j =>
    by_cases hj : j.allowedFor role = true
    · simp only [gate, if_pos hj, Except.map, Except.ok.injEq, Option.some.injEq]
      exact ⟨fun heq => ⟨heq ▸ hj, heq⟩, fun h => h.2⟩
    · obtain ⟨e, he⟩ := exists_gate_eq_error command hj
      simp only [he, Except.map, Except.ok.injEq, reduceCtorEq, false_iff]
      rintro ⟨hi, rfl⟩
      exact hj hi

/-- A line with a word in it is never read as a blank one. -/
theorem answer_ne_none (role : Role) (command text : List Char) : answer role command text ≠ .ok none := by
  unfold answer
  cases ofCommand command text with
  | error e => exact nofun
  | ok j => cases hgate : gate role command j <;> simp [hgate, Except.map]

/-- A line stands for no intent exactly if it is blank. -/
theorem parseLine_eq_none_iff : parseLine role line = .ok none ↔ Text.AllBlank line := by
  constructor
  · intro h
    by_contra hline
    obtain ⟨command, text, hspells⟩ := exists_spells hline
    rw [parseLine_of_spells role hspells] at h
    exact answer_ne_none role command text h
  · intro h
    unfold parseLine
    dsimp only
    rw [Text.trim_eq_nil_iff.mpr h]
    rfl

/-- A line asks for an intent exactly if its parts do. -/
theorem parseLine_eq_some_iff :
    parseLine role line = .ok (some i) ↔
      i.IsFor role ∧ ∃ text, Spells line [i.letter] text ∧
        ∀ said, i.said? = some said → said.toList = text ∧ text ≠ [] := by
  constructor
  · intro h
    have hline : ¬ Text.AllBlank line := fun hblank => by
      rw [parseLine_eq_none_iff.mpr hblank] at h
      cases h
    obtain ⟨command, text, hspells⟩ := exists_spells hline
    rw [parseLine_of_spells role hspells, answer_eq_ok_iff] at h
    obtain ⟨hfor, rfl, hsaid⟩ := h
    exact ⟨hfor, text, hspells, hsaid⟩
  · rintro ⟨hfor, text, hspells, hsaid⟩
    rw [parseLine_of_spells role hspells, answer_eq_ok_iff]
    exact ⟨hfor, rfl, hsaid⟩

/-- Blanks around a line make no difference. -/
theorem parseLine_surround (role : Role) {before after : List Char} (hbefore : Text.AllBlank before)
    (hafter : Text.AllBlank after) (line : List Char) :
    parseLine role (before ++ line ++ after) = parseLine role line := by
  unfold parseLine
  dsimp only
  rw [Text.trim_surround hbefore hafter]

/-- A word, a gap and whatever follows are the parts of a line. -/
theorem spells_of_gap {command gap : List Char} (hword : Text.Unbroken command) (hne : command ≠ [])
    (hgap : Text.AllBlank gap) (hgapNe : gap ≠ []) (behind : List Char) :
    Spells (command ++ gap ++ behind) command (Text.trim behind) := by
  obtain ⟨front, back, hfront, hback, hparts⟩ := Text.exists_trim behind
  have htight := Text.tight_trim behind
  generalize Text.trim behind = text at hparts htight ⊢
  subst hparts
  have hspells := Spells.intro .nil hword hne (hgap.append hfront)
    (fun _ hnil => hgapNe (List.append_eq_nil_iff.mp hnil).1) htight hback
  simpa only [List.append_assoc, List.nil_append] using hspells

/-- It makes no difference how long the gap behind the first word of a line is. -/
theorem parseLine_gap (role : Role) {command gap gap' : List Char} (hword : Text.Unbroken command)
    (hgap : Text.AllBlank gap) (hgapNe : gap ≠ []) (hgap' : Text.AllBlank gap') (hgapNe' : gap' ≠ [])
    (behind : List Char) : parseLine role (command ++ gap ++ behind) = parseLine role (command ++ gap' ++ behind) := by
  by_cases hne : command = []
  · subst hne
    have hfront := parseLine_surround role hgap .nil behind
    have hfront' := parseLine_surround role hgap' .nil behind
    rw [List.append_nil] at hfront hfront'
    exact hfront.trans hfront'.symm
  · rw [parseLine_of_spells role (spells_of_gap hword hne hgap hgapNe behind),
      parseLine_of_spells role (spells_of_gap hword hne hgap' hgapNe' behind)]

/-- The line that asks for an intent has its letter and its text as parts. -/
theorem spells_line (h : i.Sayable) : Spells i.line.toList [i.letter] (i.said?.getD "").toList := by
  have hletter : Text.Unbroken [i.letter] := by
    have hnot : Text.isBlank i.letter = false := by cases i <;> rfl
    simpa [Text.Unbroken] using hnot
  have hspace : Text.AllBlank [' '] := by decide
  have htight : Text.Tight (i.said?.getD "").toList := by
    cases hsaid : i.said? with
    | none => exact ⟨nofun, nofun⟩
    | some said => exact (h said hsaid).2
  have hspells := Spells.intro .nil hletter nofun hspace nofun htight .nil
  rw [line, String.toList_ofList]
  simpa only [List.append_assoc, List.append_nil, List.nil_append, List.cons_append] using hspells

/-- What the lines of a console stand for. A line stands for no intent exactly if it is blank. Blanks around a line make
no difference, nor does the length of the gap behind its first word. An intent that a line stands for is one that the
node may have, and a text that it carries is not empty and has no blanks around it. Every such intent is read from the
line that is made of its letter, a space and its text. -/
theorem parse_follows_grammar (role : Role) :
    (∀ line, parse role line = .ok none ↔ Text.AllBlank line.toList) ∧
      (∀ before line after : String, Text.AllBlank before.toList → Text.AllBlank after.toList →
        parse role (before ++ line ++ after) = parse role line) ∧
      (∀ before command gap gap' behind : String, Text.AllBlank before.toList → Text.Unbroken command.toList →
        Text.AllBlank gap.toList → gap ≠ "" → Text.AllBlank gap'.toList → gap' ≠ "" →
        parse role (before ++ command ++ gap ++ behind) = parse role (before ++ command ++ gap' ++ behind)) ∧
      (∀ line i, parse role line = .ok (some i) → i.IsFor role ∧ i.Sayable) ∧
      ∀ i, i.IsFor role → i.Sayable → parse role i.line = .ok (some i) := by
  refine ⟨fun line => parseLine_eq_none_iff, fun before line after hbefore hafter => ?_,
    fun before command gap gap' behind hbefore hword hgap hne hgap' hne' => ?_, fun line i hparse => ?_,
    fun i hfor hsay => ?_⟩
  · rw [parse, String.toList_append, String.toList_append]
    exact parseLine_surround role hbefore hafter line.toList
  · have hfront (line : List Char) : parseLine role (before.toList ++ line) = parseLine role line := by
      simpa only [List.append_nil] using parseLine_surround role hbefore .nil line
    simp only [parse, String.toList_append, List.append_assoc, hfront]
    simp only [← List.append_assoc]
    exact parseLine_gap role hword hgap (mt String.toList_eq_nil_iff.mp hne) hgap'
      (mt String.toList_eq_nil_iff.mp hne') behind.toList
  · obtain ⟨hfor, text, hspells, hsaid⟩ := parseLine_eq_some_iff.mp hparse
    refine ⟨hfor, fun said hsome => ?_⟩
    obtain ⟨rfl, hne⟩ := hsaid said hsome
    exact ⟨mt String.toList_eq_nil_iff.mpr hne, hspells.tight⟩
  · refine parseLine_eq_some_iff.mpr ⟨hfor, _, spells_line hsay, fun said hsaid => ?_⟩
    rw [hsaid]
    exact ⟨rfl, mt String.toList_eq_nil_iff.mp (hsay said hsaid).1⟩

/-- A question typed with wide blanks around it and a tab in front of its text. -/
theorem parse_follows_grammar_wideBlanks :
    parse .user "\u3000c\u2003\tis it  on?\u00a0" = .ok (some (.chat "is it  on?")) ∧
      parse .user "\u3000\u2003" = .ok none := by
  obtain ⟨hblank, hends, hgap, -, hline⟩ := parse_follows_grammar .user
  have htight : Text.Tight "is it  on?".toList := by decide
  have hplain := hline (.chat "is it  on?") (.chat _ _) fun said hsaid => Option.some.inj hsaid ▸ ⟨by decide, htight⟩
  have hwide := hgap "" "c" " " "\u2003\t" "is it  on?" (by decide) (by decide) (by decide) (by decide) (by decide)
    (by decide)
  have hround := hends "\u3000" "c\u2003\tis it  on?" "\u00a0" (by decide) (by decide)
  refine ⟨?_, (hblank _).mpr (by decide)⟩
  exact hround.trans (hwide.symm.trans hplain)

end Intent

end BoothFloor
