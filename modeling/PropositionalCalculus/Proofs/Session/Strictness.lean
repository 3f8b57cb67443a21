import PropositionalCalculus.Proofs.Session.Counting
import PropositionalCalculus.Proofs.Session.Termination

/-!
# Strict surveys

A strict survey takes the turns of one that is not strict, which is called lenient here, up to the first failure, and
stops there (`survey_turns`). So a strict run announces what the lenient run on the same source announces, up to its
first failure, and both give the same report; if there is no failure they leave the same of the source and have the
same counts (`Session.strict_surveys_truncate`). A lenient run may go on for ever on a source that fails for ever. A
strict one stops at the first failed read, so it always ends.
-/

set_option autoImplicit false

namespace PropositionalCalculus

/-! ## Events up to a failure -/

namespace Event

/-- The events up to the first failure, which is the last of them; all events if there is none. -/
def upToFailure : List Event → List Event
  | [] => []
  | event :: later => if event.isFailure then [event] else event :: upToFailure later

variable {events before later : List Event} {event : Event}

theorem upToFailure_cons_of_failure (h : event.isFailure = true) : upToFailure (event :: later) = [event] := by
  simp [upToFailure, h]

theorem upToFailure_cons_of_unfailed (h : event.isFailure = false) :
    upToFailure (event :: later) = event :: upToFailure later := by
  simp [upToFailure, h]

/-- Without a failure nothing is cut off. -/
theorem upToFailure_of_unfailed (h : ∀ event ∈ events, event.isFailure = false) : upToFailure events = events := by
  induction events with
  | nil => rfl
  | cons event later ih =>
      obtain ⟨hevent, hlater⟩ := List.forall_mem_cons.1 h
      rw [upToFailure_cons_of_unfailed hevent, ih hlater]

/-- **The first failure is kept and what comes behind it is cut off.** -/
theorem upToFailure_append (hbefore : ∀ event ∈ before, event.isFailure = false) (h : event.isFailure = true) :
    upToFailure (before ++ event :: later) = before ++ [event] := by
  induction before with
  | nil => exact upToFailure_cons_of_failure h
  | cons first others ih =>
      obtain ⟨hfirst, hothers⟩ := List.forall_mem_cons.1 hbefore
      rw [List.cons_append, upToFailure_cons_of_unfailed hfirst, ih hothers]
      rfl

/-- Who hears every failure can cut off what is heard. -/
theorem filter_upToFailure {hears : Event → Bool} (h : ∀ event ∈ events, event.isFailure = true → hears event = true) :
    (upToFailure events).filter hears = upToFailure (events.filter hears) := by
  induction events with
  | nil => rfl
  | cons event later ih =>
      obtain ⟨hevent, hlater⟩ := List.forall_mem_cons.1 h
      cases hfailure : event.isFailure with
      | true =>
          rw [upToFailure_cons_of_failure hfailure, List.filter_cons_of_pos (hevent hfailure),
            List.filter_cons_of_pos (hevent hfailure), upToFailure_cons_of_failure hfailure]
          rfl
      | false =>
          rw [upToFailure_cons_of_unfailed hfailure]
          cases hheard : hears event with
          | true => simp [hheard, upToFailure_cons_of_unfailed hfailure, ih hlater]
          | false => simp [hheard, ih hlater]

end Event

/-! ## Two surveys side by side -/

section Survey

variable {accepted : Event → Bool} {inspect : Formula → Tally → Finding} {n : Notation} {state : Tally × Report}
  {source : Source} {ending : Ending (Tally × Report)}

/-- **One line in both surveys.** They announce the same event and count the same. A failure stops the strict one. -/
theorem survey_turns (h : Candid accepted inspect) (state : Tally × Report) (line : Except LineError Formula) :
    ∃ event t,
      (survey false inspect).onLine state line = ([event], .next (t, state.2.withAnnounced event)) ∧
      (survey true inspect).onLine state line =
        ([event], if event.isFailure then .stop (t, .failure) else .next (t, state.2)) := by
  obtain ⟨event, -, hlenient⟩ := survey_onLine false h state line
  obtain ⟨event', -, hstrict⟩ := survey_onLine true h state line
  -- What is announced of a line does not depend on what happens then.
  have hsame : ((survey true inspect).onLine state line).1 = ((survey false inspect).onLine state line).1 := by
    cases line <;> rfl
  rw [hlenient, hstrict] at hsame
  obtain rfl : event' = event := List.singleton_inj.1 hsame
  refine ⟨event', state.1.countAnnounced event', hlenient, ?_⟩
  rw [hstrict]
  cases hfailure : event'.isFailure <;> simp [Report.withAnnounced, hfailure]

/-- A lenient survey does not stop at a line. -/
theorem exists_next_of_turn (h : Candid accepted inspect) {line : Except LineError Formula} {events : List Event}
    {state' : Tally × Report} (hturn : (survey false inspect).onLine state line = (events, .next state')) :
    ∃ event, events = [event] ∧ state'.2 = state.2.withAnnounced event ∧
      (survey true inspect).onLine state line =
        ([event], if event.isFailure then .stop (state'.1, .failure) else .next (state'.1, state.2)) := by
  obtain ⟨event, t, hlenient, hstrict⟩ := survey_turns h state line
  obtain ⟨rfl, hstate⟩ := Prod.mk.inj (hlenient.symm.trans hturn)
  obtain rfl := Turn.next.inj hstate
  exact ⟨event, rfl, rfl, hstrict⟩

/-- A failure is never made good. -/
theorem failure_of_ends (hinspect : Candid accepted inspect) (h : (survey false inspect).Ends n state source ending)
    (hstate : state.2 = .failure) : ending.result.2 = .failure := by
  induction h with
  | finished _ => exact hstate
  | stopped _ hturn => exact absurd hturn (survey_neverStops inspect _ _ _ _)
  | next _ hturn _ ih =>
      obtain ⟨event, -, hreport, -⟩ := exists_next_of_turn hinspect hturn
      apply ih
      rw [hreport, Report.withAnnounced, hstate, ite_self]

/-- **A strict survey ends at the first failure of a lenient one**, and where that one ends if there is none. -/
theorem exists_strict_of_ends (hinspect : Candid accepted inspect)
    (h : (survey false inspect).Ends n state source ending) :
    ∃ strict, (survey true inspect).Ends n state source strict ∧
      strict.events = Event.upToFailure ending.events ∧ strict.result.2 = ending.result.2 ∧
      ((∀ event ∈ ending.events, event.isFailure = false) → strict = ending) := by
  induction h with
  | finished hline => exact ⟨_, .finished hline, rfl, rfl, fun _ => rfl⟩
  | stopped _ hturn => exact absurd hturn (survey_neverStops inspect _ _ _ _)
  | @next state state' source line events ending hline hturn hends ih =>
      obtain ⟨event, rfl, hreport, hstrict⟩ := exists_next_of_turn hinspect hturn
      cases hfailure : event.isFailure with
      | true =>
          rw [if_pos hfailure] at hstrict
          refine ⟨_, .stopped hline hstrict, ?_, ?_, ?_⟩
          · exact (Event.upToFailure_cons_of_failure hfailure).symm
          · have hstate : state'.2 = .failure := by rw [hreport, Report.withAnnounced, if_pos hfailure]
            exact (failure_of_ends hinspect hends hstate).symm
          · intro hunfailed
            exact absurd hfailure (by simp [hunfailed event List.mem_cons_self])
      | false =>
          obtain ⟨strict, hends', hevents, hresult, hsame⟩ := ih
          have hstate : (state'.1, state.2) = state' := by simp [Prod.ext_iff, hreport, Report.withAnnounced, hfailure]
          rw [hfailure, if_neg Bool.false_ne_true, hstate] at hstrict
          refine ⟨_, .next hline hstrict hends', ?_, hresult, ?_⟩
          · rw [hevents]
            exact (Event.upToFailure_cons_of_unfailed hfailure).symm
          · intro hunfailed
            rw [hsame fun event hevent => hunfailed event (List.mem_cons_of_mem _ hevent)]

/-- A strict survey stops at errors. -/
theorem survey_stopsAtErrors (inspect : Formula → Tally → Finding) : (survey true inspect).StopsAtErrors := by
  intro state error
  exact ⟨_, _, rfl⟩

end Survey

/-- The strict run is the lenient one up to its first failure, when these are the events that the lenient one
announces to the audience. -/
structure Truncates (audience : Audience) (announced : List Event) (lenient strict : Run Report) : Prop where
  lenient_events : lenient.events = announced.filter audience.hears
  strict_events : strict.events = (Event.upToFailure announced).filter audience.hears
  /-- Who hears the failures finds the end of the strict run among the events of the lenient one. -/
  heard : (∀ event ∈ announced, event.isFailure = true → audience.hears event = true) →
    strict.events = Event.upToFailure lenient.events
  report : strict.result = lenient.result
  failure_iff : lenient.result = .failure ↔ ∃ event ∈ announced, event.isFailure = true
  unfailed : (∀ event ∈ announced, event.isFailure = false) →
    strict.source = lenient.source ∧ strict.session.tally = lenient.session.tally

namespace Session

/-- The session with the choice whether a survey stops at its first failure. -/
def withStrict (s : Session) (strict : Bool) : Session :=
  { s with settings := { s.settings with strict := strict } }

/-- Two runs of one survey. -/
theorem exists_truncated (s : Session) {accepted : Event → Bool} {inspect : Formula → Tally → Finding}
    (hinspect : Candid accepted inspect) {source : Source} {lenient : Run Report}
    (hrun : ((survey false inspect).run s.settings.reading ({}, .success) source).map (s.withStrict false).conclude =
      some lenient) :
    ∃ strict announced,
      ((survey true inspect).run s.settings.reading ({}, .success) source).map (s.withStrict true).conclude =
        some strict ∧
      (survey false inspect).Announces s.settings.reading ({}, .success) source announced ∧
      Truncates s.audience announced lenient strict := by
  obtain ⟨ending, hends, rfl⟩ := Procedure.exists_ends_of_conclude hrun
  obtain ⟨strict, hends', hevents, hreport, hsame⟩ := exists_strict_of_ends hinspect hends
  obtain ⟨ending', hrun', hends''⟩ := Procedure.run_eq_some (n := s.settings.reading) (survey_stopsAtErrors inspect)
    ({}, .success) source
  obtain rfl := hends'.unique hends''
  refine ⟨(s.withStrict true).conclude strict, ending.events, by rw [hrun']; rfl, ⟨_, _, hends⟩, ?_⟩
  have hstrict : ((s.withStrict true).conclude strict).events =
      (Event.upToFailure ending.events).filter s.audience.hears := by
    rw [← hevents]
    rfl
  refine ⟨rfl, hstrict, ?_, hreport, ?_, ?_⟩
  · intro hheard
    rw [hstrict]
    exact Event.filter_upToFailure hheard
  · obtain ⟨hsurveyed, -⟩ := surveyed_of_ends hinspect hends
    change ending.result.2 = .failure ↔ _
    rw [hsurveyed.report, hsurveyed.failures, List.countP_pos_iff]
  · intro hunfailed
    rw [hsame hunfailed]
    exact ⟨rfl, rfl⟩

/-- **A strict survey is a lenient one up to the first failure**, on every source and with every proof system. When
the lenient run ends, the strict run has announced the same events up to the first failure, and has the same report;
without a failure it leaves the same of the source and has the same counts. The lenient run ends on every source that
does not fail for ever. -/
theorem strict_surveys_truncate (s : Session) (source : Source) :
    (∀ lenient, (s.withStrict false).echo source = some lenient → ∃ strict announced,
        (s.withStrict true).echo source = some strict ∧
        (s.withStrict false).echoProcedure.Announces s.settings.reading ({}, .success) source announced ∧
        Truncates s.audience announced lenient strict) ∧
      (∀ lenient, (s.withStrict false).checkAxioms source = some lenient → ∃ strict announced,
        (s.withStrict true).checkAxioms source = some strict ∧
        (s.withStrict false).axiomProcedure.Announces s.settings.reading ({}, .success) source announced ∧
        Truncates s.audience announced lenient strict) ∧
      (¬ source.FailsForEver →
        (∃ lenient, (s.withStrict false).echo source = some lenient) ∧
          ∃ lenient, (s.withStrict false).checkAxioms source = some lenient) := by
  refine ⟨?_, ?_, ?_⟩
  · intro lenient hrun
    exact s.exists_truncated candid_inspectFormula hrun
  · intro lenient hrun
    exact s.exists_truncated (candid_inspectAxiom s.system) hrun
  · intro hfinite
    have hnothing : s.settings.reading.ComesToNothing source := Notation.comesToNothing_of_finite source hfinite
    obtain ⟨ending, hecho⟩ :=
      (s.withStrict false).echoProcedure.exists_run_of_comesToNothing ({}, .success) hnothing
    obtain ⟨ending', haxioms⟩ :=
      (s.withStrict false).axiomProcedure.exists_run_of_comesToNothing ({}, .success) hnothing
    constructor
    · exact ⟨_, by rw [echo]; exact congrArg (Option.map _) hecho⟩
    · exact ⟨_, by rw [checkAxioms]; exact congrArg (Option.map _) haxioms⟩

-- The second of three lines is no formula: three lines are announced, and two of them when the survey is strict.
example :
    [false, true].map (fun strict =>
        ((({ system := Hilbert.system } : Session).withStrict strict).echo
          (.ofBytes "A\n)\nB\n".toUTF8.data.toList)).map (·.events.length)) = [some 3, some 2] := by
  decide +kernel

end Session

end PropositionalCalculus
