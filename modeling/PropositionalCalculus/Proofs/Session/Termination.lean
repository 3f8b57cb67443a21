import PropositionalCalculus.CommandLine.Run
import PropositionalCalculus.Proofs.Line.Sequence
import PropositionalCalculus.Proofs.Line.Taking
import PropositionalCalculus.Proofs.Session.Procedure

/-!
# Whether a survey ends

A survey that is not strict goes on until an attempt to read a line gives nothing. `Notation.ComesToNothing` says
that this happens on a source sooner or later. It does on every source that does not fail for ever, however often
and wherever it fails: an attempt that gives something uses up a read (`comesToNothing_of_finite`). And it is all
that a survey needs, with the attempts that `Procedure.run` allows (`Session.lenient_surveys_end_iff`).

On a source that fails for ever, as a directory does, an attempt uses up nothing and gives an error again and again,
so that no number of attempts is enough (`Session.surveys_of_directory_endless`).
-/

set_option autoImplicit false

namespace PropositionalCalculus

namespace Notation

variable {n : Notation}

/-- An attempt to read a line of the source gives nothing, sooner or later. -/
inductive ComesToNothing (n : Notation) : Source → Prop where
  | now {source : Source} : (n.readLine source).1.line? = none → ComesToNothing n source
  | later {source : Source} : ComesToNothing n (n.readLine source).2 → ComesToNothing n source

theorem readLine_failing (n : Notation) (fault : ReadFault) :
    n.readLine (.failing fault) = (.error (.unreadable fault), .failing fault) := by
  cases n <;> rfl

/-- What gives something uses up a read, unless every read fails from here on. -/
theorem reads_lt_of_line? {source : Source} (hfailing : ∀ fault, source ≠ .failing fault)
    {line : Except LineError Formula} (h : (n.readLine source).1.line? = some line) :
    (n.readLine source).2.reads < source.reads := by
  have hended : source ≠ .ended := by
    rintro rfl
    rw [readLine_ended] at h
    exact nomatch h
  obtain ⟨σ, m, After, hread, -⟩ := n.exists_recognizes
  rw [hread]
  exact m.reads_readLine_lt hended hfailing

/-- **A source that does not fail for ever comes to nothing.** -/
theorem comesToNothing_of_finite (source : Source) (h : ¬ source.FailsForEver) : n.ComesToNothing source := by
  -- The induction is on the number of reads that are left.
  induction hreads : source.reads using Nat.strongRecOn generalizing source with
  | ind reads ih =>
      cases hline : (n.readLine source).1.line? with
      | none => exact .now hline
      | some line =>
          have hfailing : ∀ fault, source ≠ .failing fault := by
            rintro fault rfl
            exact h trivial
          obtain ⟨taken, hleaves, -⟩ := n.exists_stopsBehind source
          have hrest : ¬ (n.readLine source).2.FailsForEver := mt hleaves.failsForEver_iff.1 h
          have hlt := reads_lt_of_line? hfailing hline
          exact .later (ih _ (hreads ▸ hlt) _ hrest rfl)

/-- A source that fails from its next read on gives errors only. -/
theorem not_comesToNothing_failing (n : Notation) (fault : ReadFault) : ¬ n.ComesToNothing (.failing fault) := by
  intro h
  generalize hsource : Source.failing fault = source at h
  induction h with
  | now hline =>
      subst hsource
      rw [readLine_failing] at hline
      exact nomatch hline
  | later _ ih =>
      subst hsource
      rw [readLine_failing] at ih
      exact ih rfl

end Notation

namespace Procedure

variable {σ ρ : Type} {p : Procedure σ ρ} {n : Notation}

/-- The procedure never stops by itself. -/
def NeverStops (p : Procedure σ ρ) : Prop :=
  ∀ state line events result, p.onLine state line ≠ (events, .stop result)

/-- A run that comes to nothing ends within the attempts that are allowed. -/
theorem exists_run_of_comesToNothing (p : Procedure σ ρ) (state : σ) {source : Source}
    (h : n.ComesToNothing source) : ∃ ending, p.run n state source = some ending := by
  refine exists_runWithin_of_progress n.ComesToNothing ?_ [] h (Nat.lt_succ_self source.reads)
  intro state source line hsource hline
  have hfailing : ∀ fault, source ≠ .failing fault := by
    rintro fault rfl
    exact n.not_comesToNothing_failing fault hsource
  refine Or.inr ⟨Notation.reads_lt_of_line? hfailing hline, ?_⟩
  cases hsource with
  | now hnothing => exact nomatch hnothing.symm.trans hline
  | later hrest => exact hrest

theorem Ends.comesToNothing (hp : p.NeverStops) {state : σ} {source : Source} {ending : Ending ρ}
    (h : p.Ends n state source ending) : n.ComesToNothing source := by
  induction h with
  | finished hline => exact .now hline
  | stopped _ hturn => exact absurd hturn (hp _ _ _ _)
  | next _ _ _ ih => exact .later ih

/-- **A procedure that never stops by itself ends exactly when its source comes to nothing.** -/
theorem exists_run_iff (hp : p.NeverStops) (state : σ) (source : Source) :
    (∃ ending, p.run n state source = some ending) ↔ n.ComesToNothing source := by
  constructor
  · rintro ⟨ending, hrun⟩
    obtain ⟨e, hends, -⟩ := exists_ends_of_runWithin hrun
    exact hends.comesToNothing hp
  · exact p.exists_run_of_comesToNothing state

/-- No number of attempts ends it on a source that fails for ever. -/
theorem runWithin_failing (hp : p.NeverStops) (attempts : Nat) (state : σ) (announced : List Event)
    (fault : ReadFault) : p.runWithin n attempts state announced (.failing fault) = none := by
  cases hrun : p.runWithin n attempts state announced (.failing fault) with
  | none => rfl
  | some ending =>
      obtain ⟨e, hends, -⟩ := exists_ends_of_runWithin hrun
      exact absurd (hends.comesToNothing hp) (n.not_comesToNothing_failing fault)

end Procedure

theorem survey_neverStops (inspect : Formula → Tally → Finding) : (survey false inspect).NeverStops := by
  intro state line events result
  cases line with
  | error error => exact nofun
  | ok f =>
      simp only [survey, Survey.afterFailure, Bool.false_eq_true, if_false]
      split <;> exact nofun

namespace Session

/-- **When a survey that is not strict ends.** It ends if and only if an attempt to read a line gives nothing at
some time, and this is so on every source that does not fail for ever, wherever and however often it fails. -/
theorem lenient_surveys_end_iff (s : Session) (hstrict : s.settings.strict = false) (source : Source) :
    (¬ source.FailsForEver → s.settings.reading.ComesToNothing source) ∧
      ((∃ run, s.echo source = some run) ↔ s.settings.reading.ComesToNothing source) ∧
      ((∃ run, s.checkAxioms source = some run) ↔ s.settings.reading.ComesToNothing source) := by
  have hecho : s.echoProcedure.NeverStops := by
    rw [echoProcedure, hstrict]
    exact survey_neverStops _
  have haxioms : s.axiomProcedure.NeverStops := by
    rw [axiomProcedure, hstrict]
    exact survey_neverStops _
  refine ⟨Notation.comesToNothing_of_finite source, ?_, ?_⟩
  · rw [← Procedure.exists_run_iff hecho ({}, .success) source]
    simp only [echo, Option.map_eq_some_iff]
    exact ⟨fun ⟨_, ending, h, _⟩ => ⟨ending, h⟩, fun ⟨ending, h⟩ => ⟨_, ending, h, rfl⟩⟩
  · rw [← Procedure.exists_run_iff haxioms ({}, .success) source]
    simp only [checkAxioms, Option.map_eq_some_iff]
    exact ⟨fun ⟨_, ending, h, _⟩ => ⟨ending, h⟩, fun ⟨ending, h⟩ => ⟨_, ending, h, rfl⟩⟩

/-- Three reads fail in the middle of the line `(A>B)`, and both surveys end. -/
theorem lenient_surveys_end_interrupted :
    ({ system := Hilbert.system } : Session).settings.strict = false ∧
      (∃ run, ({ system := Hilbert.system } : Session).echo
        (.withFaults .interrupted 3 2 "(A>B)\n".toUTF8.data.toList) = some run) ∧
      ∃ run, ({ system := Hilbert.system } : Session).checkAxioms
        (.withFaults .interrupted 3 2 "(A>B)\n".toUTF8.data.toList) = some run := by
  obtain ⟨hfinite, hecho, haxioms⟩ := lenient_surveys_end_iff { system := Hilbert.system } rfl
    (.withFaults .interrupted 3 2 "(A>B)\n".toUTF8.data.toList)
  have hnothing := hfinite (by decide +kernel)
  exact ⟨rfl, hecho.2 hnothing, haxioms.2 hnothing⟩

/-- **Surveys of a directory never end.** Every read of it fails, so neither survey ends within any number of
attempts, and a command that is to write its formulas, even in silence, does not end. -/
theorem surveys_of_directory_endless :
    (∀ attempts, ({ system := Hilbert.system } : Session).echoProcedure.runWithin .bracketed attempts
        ({}, .success) [] (.failing .isADirectory) = none) ∧
      (∀ attempts, ({ system := Hilbert.system } : Session).axiomProcedure.runWithin .bracketed attempts
        ({}, .success) [] (.failing .isADirectory) = none) ∧
      CommandLine.run ["-q", "."] (fun _ => .opened (.failing .isADirectory)) .ended = none := by
  refine ⟨?_, ?_, by decide +kernel⟩
  · intro attempts
    exact Procedure.runWithin_failing (survey_neverStops inspectFormula) attempts _ _ _
  · intro attempts
    exact Procedure.runWithin_failing (survey_neverStops (inspectAxiom Hilbert.system)) attempts _ _ _

end Session

end PropositionalCalculus
