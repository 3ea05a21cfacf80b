import BoothFloor.Proofs.Host.Standing
import BoothFloor.Proofs.Visitor.Stance

/-!
# A visitor and a booth in accord

A visitor and a host take their turns at the same time, each on what the other one has said in the turn
before. How the visitor stands with the booth, how the booth stands with the visitor and what the two have
just said to each other fit together in one of a few ways, and a turn of both leads from each of them to
another one.
-/

namespace BoothFloor

namespace Stance

variable {s s' : Stance} {msg : Message} {ignored told said : List Message}

/-- Whoever is no stranger does with a dealing what its stance calls for. -/
theorem Course.of_cons (h : s.Course (msg :: told) s' said) (hs : s ≠ .stranger) :
    ∃ rest, said = (s.hear msg).2 ++ rest ∧ (s.hear msg).1.Course told s' rest := by
  cases h with
  | hears _ _ _ _ rest h => exact ⟨rest, rfl, h⟩
  | asks => exact absurd rfl hs

/-- Whoever is no stranger stays as it stands when it hears nothing. -/
theorem Course.of_nil (h : s.Course [] s' said) (hs : s ≠ .stranger) : s' = s ∧ said = [] := by
  cases h with
  | done => exact ⟨rfl, rfl⟩
  | asks => exact absurd rfl hs

/-- Whoever is no stranger passes over what is nothing to it. -/
theorem Course.of_ignored (h : s.Course (ignored ++ told) s' said) (hs : s ≠ .stranger)
    (hignored : ∀ msg ∈ ignored, s.hear msg = (s, [])) : s.Course told s' said := by
  induction ignored generalizing said with
  | nil => exact h
  | cons msg rest ih =>
    obtain ⟨later, rfl, hlater⟩ := h.of_cons hs
    rw [hignored msg List.mem_cons_self] at hlater ⊢
    exact ih hlater fun other hother => hignored other (List.mem_cons_of_mem _ hother)

/-- Whoever is no stranger stays as it stands over what is nothing to it. -/
theorem Course.stays (h : s.Course ignored s' said) (hs : s ≠ .stranger)
    (hignored : ∀ msg ∈ ignored, s.hear msg = (s, [])) : s' = s ∧ said = [] := by
  rw [← List.append_nil ignored] at h
  exact (h.of_ignored hs hignored).of_nil hs

/-- A stranger stays one or asks for admission, if what it hears is nothing to a visitor that asks. -/
theorem Course.of_stranger (h : Course .stranger told s' said) (htold : ∀ msg ∈ told, asking.hear msg = (asking, [])) :
    s' = .stranger ∧ said = [] ∨ s' = .asking ∧ said = [.registerRequest] := by
  induction told generalizing said with
  | nil =>
    cases h with
    | done => exact .inl ⟨rfl, rfl⟩
    | asks _ _ _ h =>
      obtain ⟨rfl, rfl⟩ := h.of_nil nofun
      exact .inr ⟨rfl, rfl⟩
  | cons msg rest ih =>
    cases h with
    | hears _ _ _ _ later h =>
      rw [hear_stranger] at h ⊢
      exact ih h fun other hother => htold other (List.mem_cons_of_mem _ hother)
    | asks _ _ _ h =>
      obtain ⟨rfl, rfl⟩ := h.stays nofun htold
      exact .inr ⟨rfl, rfl⟩

/-- News of the queue is nothing to change a stance. -/
theorem hear_of_isNews (h : msg.isNews = true) (s : Stance) : s.hear msg = (s, []) := by
  cases msg with
  | queueInfo position total | queueUpdate position total =>
    have hplace : position ≠ 0 ∧ total ≠ 0 := by simpa [Message.isNews] using h
    simp [hear, hplace]
  | _ => cases h

/-- However much news of the queue there is, it is nothing to change a stance. -/
theorem hear_of_news {news : List Message} (hnews : ∀ msg ∈ news, msg.isNews = true) (s : Stance) :
    ∀ msg ∈ news, s.hear msg = (s, []) :=
  fun msg hmem => hear_of_isNews (hnews msg hmem) s

/-- Only an offer makes a visitor wait for an answer, to the claim with which it replies. -/
theorem asks_of_hear (hs : s.awaits = false) (h : (s.hear msg).1.awaits = true) :
    .registerRequest ∈ (s.hear msg).2 := by
  have hsame : s.awaits ≠ true := by simp [hs]
  cases msg with
  | registerResponse success reason => cases success <;> cases reason <;> simp [hear, hs] at h
  | queueInfo | queueUpdate | timeoutAlert =>
    unfold hear at h
    dsimp only at h
    split at h
    · cases h
    · exact absurd h hsame
  | queueReady =>
    rw [hear] at h ⊢
    split at h
    · next hwaits =>
      rw [if_pos hwaits]
      exact List.mem_cons_self
    · exact absurd h hsame
  | _ => exact absurd h hsame

/-- Whoever comes to wait for an answer has asked. -/
theorem Course.asks_of_awaits (h : s.Course told s' said) (hs : s.awaits = false) (hs' : s'.awaits = true) :
    .registerRequest ∈ said := by
  induction h with
  | done => exact absurd (hs.symm.trans hs') nofun
  | asks => exact List.mem_cons_self
  | hears s s' msg told said _ ih =>
    cases hheard : (s.hear msg).1.awaits with
    | false => exact List.mem_append_right _ (ih hheard hs')
    | true => exact List.mem_append_left _ (asks_of_hear hs hheard)

/-- A turn goes on from what is heard first. -/
theorem Turn.of_cons (h : s.Turn (msg :: told) s' said) (hs : s ≠ .stranger) (hsilent : (s.hear msg).2 = []) :
    (s.hear msg).1.Turn told s' said := by
  cases h with
  | ends _ _ h =>
    obtain ⟨rest, rfl, hrest⟩ := h.of_cons hs
    rw [hsilent]
    exact .ends _ _ hrest
  | exits _ h =>
    obtain ⟨rest, rfl, hrest⟩ := h.of_cons hs
    rw [hsilent]
    exact .exits _ hrest

/-- A turn that does not end inside is a course. -/
theorem Turn.course (h : s.Turn told s' said) (hout : ∀ said, ¬ s.Course told inside said) : s.Course told s' said := by
  cases h with
  | ends _ _ h => exact h
  | exits _ h => exact absurd h (hout _)

end Stance

/-- A visitor that is outside and says nothing, or that takes leave, is outside and is told nothing. -/
theorem Standing.Turn.outside {now : Instant} {st st' : Standing} {said told : List Message}
    (h : st.Turn now said st' told) (hout : st = .outside ∧ said = [] ∨ said = [.exitRequest]) :
    st' = .outside ∧ told = [] := by
  cases h with
  | rests _ _ h =>
    obtain ⟨rfl, -⟩ := hout.resolve_right nofun
    cases h
    exact ⟨rfl, rfl⟩
  | expires since hst =>
    obtain ⟨rfl, -⟩ := hout.resolve_right nofun
    cases hst
  | asks => rcases hout with ⟨-, hsaid⟩ | hsaid <;> cases hsaid
  | parts => exact ⟨rfl, rfl⟩

/-- How a visitor and a booth may stand with each other after a turn of both, the last one at some instant: the
visitor's stance, what it has said to the booth in the turn, the visitor's standing with the booth, and what the
visitor was told in the turn. -/
inductive Accord (last : Instant) : Stance → List Message → Standing → List Message → Prop
  | strangers : Accord last .stranger [] .outside []
  | asked : Accord last .asking [.registerRequest] .outside []
  | admitted (since : Instant) : Accord last .asking [] (.inside since) [.registerResponse true .success]
  | refused : Accord last .asking [] .outside [.registerResponse false .alreadyUsed]
  | queued (st : Standing) (news : List Message) (h : Standing.queued.Drifts last st news) :
      Accord last .asking [] st (.registerResponse false .fullWaiting :: news)
  | waits (st : Standing) (news : List Message) (h : Standing.queued.Drifts last st news) :
      Accord last .queueing [] st news
  | claims (since : Instant) (news : List Message) (hnews : ∀ msg ∈ news, msg.isNews = true) :
      Accord last .claiming [.registerRequest] (.offered since) news
  | entered (since : Instant) (news : List Message) (hnews : ∀ msg ∈ news, msg.isNews = true) :
      Accord last .claiming [] (.inside since) (news ++ [.registerResponse true .success])
  | stays (since : Instant) : Accord last .inside [] (.inside since) []
  | expired : Accord last .inside [] .outside [.timeoutAlert]
  /-- The visitor has ended its session by itself, and the host does not know it yet. -/
  | leaves (since : Instant) : Accord last .stranger [.exitRequest] (.inside since) []
  /-- The two have ended the session at the same time. -/
  | parted : Accord last .stranger [.exitRequest] .outside [.timeoutAlert]

namespace Accord

variable {last now : Instant} {s s' : Stance} {st st' : Standing} {said said' told told' : List Message}

/-- Whoever is outside a booth is a stranger to it or has just asked for admission, once nothing more is told. -/
theorem of_outside (h : s.Turn told s' said)
    (hcourse : ∀ t said, s.Course told t said → t = .stranger ∧ said = [] ∨ t = .asking ∧ said = [.registerRequest]) :
    Accord now s' said .outside [] := by
  cases h with
  | ends _ _ h =>
    rcases hcourse _ _ h with ⟨rfl, rfl⟩ | ⟨rfl, rfl⟩
    · exact .strangers
    · exact .asked
  | exits _ h => rcases hcourse _ _ h with ⟨hnot, -⟩ | ⟨hnot, -⟩ <;> cases hnot

/-- Whoever is inside a booth stays, leaves or is told to leave. -/
theorem of_inside {since : Instant} (hvisitor : s.Turn told s' said)
    (hcourse : ∀ t said, s.Course told t said → t = .inside ∧ said = [])
    (hhost : (Standing.inside since).Turn now [] st' told') : Accord now s' said st' told' := by
  have hstays : s' = .inside ∧ said = [] ∨ s' = .stranger ∧ said = [.exitRequest] := by
    cases hvisitor with
    | ends _ _ h => exact .inl (hcourse _ _ h)
    | exits _ h =>
      obtain ⟨-, rfl⟩ := hcourse _ _ h
      exact .inr ⟨rfl, rfl⟩
  cases hhost with
  | rests _ _ h =>
    cases h
    rcases hstays with ⟨rfl, rfl⟩ | ⟨rfl, rfl⟩
    · exact .stays since
    · exact .leaves since
  | expires =>
    rcases hstays with ⟨rfl, rfl⟩ | ⟨rfl, rfl⟩
    · exact .expired
    · exact .parted

/-- A visitor that was put on the queue and has heard of it stays there, or claims the slot that was offered to it. -/
theorem of_queue {news : List Message} (hdrifts : Standing.queued.Drifts last st news)
    (hvisitor : Stance.Turn .queueing news s' said) (hhost : st.Turn now [] st' told') :
    Accord now s' said st' told' := by
  cases hdrifts with
  | queued _ hnews =>
    have hcourse (t : Stance) (said : List Message) (h : Stance.Course .queueing news t said) :
        t = .queueing ∧ said = [] := h.stays nofun (Stance.hear_of_news hnews _)
    have hends := hvisitor.course fun said h => by cases (hcourse _ said h).1
    obtain ⟨rfl, rfl⟩ := hcourse _ _ hends
    cases hhost with
    | rests _ _ h => exact .waits _ _ h
    | expires since hst => cases hst
  | called earlier later hearlier hlater =>
    have hcourse (t : Stance) (said : List Message)
        (h : Stance.Course .queueing (earlier ++ .queueReady :: later) t said) :
        t = .claiming ∧ said = [.registerRequest] := by
      have hready := h.of_ignored nofun (Stance.hear_of_news hearlier _)
      obtain ⟨rest, rfl, hrest⟩ := hready.of_cons nofun
      obtain ⟨rfl, rfl⟩ := hrest.stays nofun (Stance.hear_of_news hlater _)
      exact ⟨rfl, rfl⟩
    have hends := hvisitor.course fun said h => by cases (hcourse _ said h).1
    obtain ⟨rfl, rfl⟩ := hcourse _ _ hends
    cases hhost with
    | rests _ _ h =>
      cases h with
      | offered since _ hnews => exact .claims last _ hnews
    | expires since hst => cases hst

/-- Whoever has asked for admission from outside is let in, refused or put on the queue. -/
theorem of_asked (hhost : Standing.outside.Turn now [.registerRequest] st' told') :
    Accord now .asking [] st' told' := by
  cases hhost with
  | asks first second _ before answer after hbefore hanswer hafter =>
    cases hbefore
    cases hanswer with
    | enters =>
      cases hafter
      exact .admitted now
    | refused =>
      cases hafter
      exact .refused
    | queues _ _ news hnews => exact .queued _ _ ((Standing.Drifts.queued news hnews).trans hafter)

/-- Whoever has claimed the slot that it was offered is let in. -/
theorem of_claimed {since : Instant} (hhost : (Standing.offered since).Turn now [.registerRequest] st' told') :
    Accord now .claiming [] st' told' := by
  cases hhost with
  | asks first second _ before answer after hbefore hanswer hafter =>
    cases hbefore with
    | offered _ _ hnews =>
      cases hanswer with
      | enters =>
        cases hafter
        exact .entered now before hnews
      | queues _ hst => rcases hst with hst | hst <;> cases hst

/-- A turn of both leaves a visitor and a booth in accord. -/
theorem turn (h : Accord last s said st told) (hvisitor : s.Turn told s' said') (hhost : st.Turn now said st' told') :
    Accord now s' said' st' told' := by
  have hnothing : ∀ msg ∈ ([] : List Message), Stance.asking.hear msg = (.asking, []) :=
    fun _ hmem => absurd hmem List.not_mem_nil
  have halert : ∀ msg ∈ [Message.timeoutAlert], Stance.asking.hear msg = (.asking, []) := by simp [Stance.hear]
  cases h with
  | strangers =>
    obtain ⟨rfl, rfl⟩ := hhost.outside (.inl ⟨rfl, rfl⟩)
    exact of_outside hvisitor fun _ _ hcourse => hcourse.of_stranger hnothing
  | asked =>
    have hcourse (t : Stance) (said : List Message) (h : Stance.Course .asking [] t said) : t = .asking ∧ said = [] :=
      h.of_nil (by decide)
    obtain ⟨rfl, rfl⟩ := hcourse _ _ (hvisitor.course fun said h => by cases (hcourse _ said h).1)
    exact of_asked hhost
  | admitted since =>
    refine of_inside hvisitor (fun t said hcourse => ?_) hhost
    obtain ⟨rest, rfl, hrest⟩ := hcourse.of_cons (by decide)
    exact hrest.of_nil (by decide)
  | refused =>
    obtain ⟨rfl, rfl⟩ := hhost.outside (.inl ⟨rfl, rfl⟩)
    refine of_outside hvisitor fun _ _ hcourse => ?_
    obtain ⟨rest, rfl, hrest⟩ := hcourse.of_cons (by decide)
    exact hrest.of_stranger hnothing
  | queued _ news hdrifts => exact of_queue hdrifts (hvisitor.of_cons (by decide) rfl) hhost
  | waits _ _ hdrifts => exact of_queue hdrifts hvisitor hhost
  | claims since _ hnews =>
    have hcourse (t : Stance) (said : List Message) (h : Stance.Course .claiming told t said) :
        t = .claiming ∧ said = [] := h.stays (by decide) (Stance.hear_of_news hnews _)
    obtain ⟨rfl, rfl⟩ := hcourse _ _ (hvisitor.course fun said h => by cases (hcourse _ said h).1)
    exact of_claimed hhost
  | entered since news hnews =>
    refine of_inside hvisitor (fun t said hcourse => ?_) hhost
    have hanswer := hcourse.of_ignored (by decide) (Stance.hear_of_news hnews _)
    obtain ⟨rest, rfl, hrest⟩ := hanswer.of_cons (by decide)
    exact hrest.of_nil (by decide)
  | stays since => exact of_inside hvisitor (fun t said hcourse => hcourse.of_nil (by decide)) hhost
  | expired =>
    obtain ⟨rfl, rfl⟩ := hhost.outside (.inl ⟨rfl, rfl⟩)
    refine of_outside hvisitor fun _ _ hcourse => ?_
    obtain ⟨rest, rfl, hrest⟩ := hcourse.of_cons (by decide)
    exact hrest.of_stranger hnothing
  | leaves since =>
    obtain ⟨rfl, rfl⟩ := hhost.outside (.inr rfl)
    exact of_outside hvisitor fun _ _ hcourse => hcourse.of_stranger hnothing
  | parted =>
    obtain ⟨rfl, rfl⟩ := hhost.outside (.inr rfl)
    exact of_outside hvisitor fun _ _ hcourse => hcourse.of_stranger halert

/-- What a visitor may have said in a turn: nothing, a request from outside or a leave. An offer to a visitor that
has said nothing is as old as the turn. -/
theorem said_cases (h : Accord last s said st told) :
    (said = [] ∧ ∀ since, st = .offered since → since = last) ∨
      (said = [.registerRequest] ∧ ∀ since, st ≠ .inside since) ∨
      said = [.exitRequest] ∧ (st = .outside ∨ ∃ since, st = .inside since) := by
  cases h with
  | queued _ _ hdrifts | waits _ _ hdrifts =>
    refine .inl ⟨rfl, ?_⟩
    rintro since rfl
    cases hdrifts
    rfl
  | asked | claims => exact .inr (.inl ⟨rfl, nofun⟩)
  | leaves since => exact .inr (.inr ⟨rfl, .inr ⟨since, rfl⟩⟩)
  | parted => exact .inr (.inr ⟨rfl, .inl rfl⟩)
  | _ => exact .inl ⟨rfl, nofun⟩

/-- A visitor that still waits for an answer once it has heard the booth out has asked in this turn or in the last
one. -/
theorem asks_of_awaits (h : Accord last s said st told) (hcourse : s.Course told s' said')
    (hawaits : s'.awaits = true) :
    .registerRequest ∈ said' ∨ s.awaits = true ∧ .registerRequest ∈ said := by
  cases h with
  | asked | claims => exact .inr ⟨rfl, List.mem_cons_self⟩
  | admitted | refused | queued =>
    obtain ⟨rest, rfl, hrest⟩ := hcourse.of_cons nofun
    exact .inl (hrest.asks_of_awaits rfl hawaits)
  | entered since news hnews =>
    have hanswer := hcourse.of_ignored nofun (Stance.hear_of_news hnews _)
    obtain ⟨rest, rfl, hrest⟩ := hanswer.of_cons nofun
    exact .inl (hrest.asks_of_awaits rfl hawaits)
  | _ => exact .inl (hcourse.asks_of_awaits rfl hawaits)

/-- Whoever holds a slot or a place in the queue of a booth deals with the booth, or has just taken leave. -/
theorem no_ghost (h : Accord last s said st told) (hst : st ≠ .outside) : s ≠ .stranger ∨ .exitRequest ∈ said := by
  cases h with
  | strangers | asked | refused | expired | parted => exact absurd rfl hst
  | leaves => exact .inr List.mem_cons_self
  | _ => exact .inl nofun

end Accord

end BoothFloor
