import PropositionalCalculus.Hilbert
import PropositionalCalculus.Session.Survey
import PropositionalCalculus.Proofs.Line.Boundary
import PropositionalCalculus.Proofs.Line.Taking
import PropositionalCalculus.Proofs.Session.Reachability

/-!
# Where the formulas of a survey stand

A formula that a survey announces is written in the input, from some place up to the next line feed, with no failed
read in between. The place is the beginning of a line, or the point where a read has failed before
(`Session.surveys_announce_written`). So a survey announces formulas of complete lines only as long as no read fails
in the middle of a line. When one does, the attempt after it takes what is left of the line for a line, and the
formula that it announces may stand on no line at all (`Session.echo_announces_rest_of_line`).
-/

set_option autoImplicit false

namespace PropositionalCalculus

open Line

/-- A line begins behind these bytes. -/
def Line.StartsLine (before : List UInt8) : Prop :=
  before = [] ∨ EndsLine before

/-- Behind the given bytes of the source a formula is written, up to a line feed. -/
def Notation.WrittenBehind (n : Notation) (source : Source) (before : List UInt8) (f : Formula) : Prop :=
  ∃ w after, source.bytes = before ++ (w ++ lineFeed :: after) ∧ lineFeed ∉ w ∧
    (n.readLine (.ofBytes (w ++ [lineFeed]))).1 = .ok (some f)

namespace Procedure

variable {σ ρ : Type} {p : Procedure σ ρ} {n : Notation} {state₀ state : σ} {source₀ source : Source}
  {lines : List (Except LineError Formula)} {announced : List Event} {event : Event}

/-- The run reads this line in this state, at this point of its source. -/
def Meets (p : Procedure σ ρ) (n : Notation) (state₀ : σ) (source₀ : Source) (state : σ) (source : Source)
    (line : Except LineError Formula) : Prop :=
  (n.readLine source).1.line? = some line ∧
    ∃ lines announced, p.Reaches n state₀ source₀ lines announced state source

/-- **Whatever a run announces, it announces over a line that it reads.** -/
theorem Reaches.exists_meets (h : p.Reaches n state₀ source₀ lines announced state source)
    (hevent : event ∈ announced) :
    ∃ state' source' line, p.Meets n state₀ source₀ state' source' line ∧ event ∈ (p.onLine state' line).1 := by
  induction h with
  | start => exact absurd hevent List.not_mem_nil
  | @next lines announced events state state' source line hreaches hline hturn ih =>
      rcases List.mem_append.1 hevent with hbefore | hnow
      · exact ih hbefore
      · exact ⟨state, source, line, ⟨hline, lines, announced, hreaches⟩, by rwa [hturn]⟩

theorem Ends.exists_meets {ending : Ending ρ} (h : p.Ends n state₀ source₀ ending)
    (hevent : event ∈ ending.events) :
    ∃ state source line, p.Meets n state₀ source₀ state source line ∧ event ∈ (p.onLine state line).1 := by
  obtain ⟨lines, announced, state, source, hreaches, hlast⟩ := h.exists_reaches
  cases hlast with
  | finished _ => exact hreaches.exists_meets hevent
  | @stopped line events result hline hturn =>
      rcases List.mem_append.1 hevent with hbefore | hnow
      · exact hreaches.exists_meets hbefore
      · exact ⟨state, source, line, ⟨hline, lines, announced, hreaches⟩, by rwa [hturn]⟩

/-- **Where a run goes on reading**: where a line begins, where a read has failed, or at the end. -/
theorem Reaches.exists_leaves (h : p.Reaches n state₀ source₀ lines announced state source) :
    ∃ taken, source₀.Leaves taken source ∧
      (StartsLine taken ∨ source₀.FailsBehind taken ∨ source = .ended) := by
  induction h with
  | start => exact ⟨[], .nothing source₀, Or.inl (Or.inl rfl)⟩
  | @next _ _ _ _ _ source _ _ _ _ ih =>
      obtain ⟨before, hbefore, -⟩ := ih
      obtain ⟨taken, hleaves, hstop⟩ := n.exists_stopsBehind source
      refine ⟨before ++ taken, hbefore.trans hleaves, ?_⟩
      rcases hstop with hends | hfails | hended
      · exact Or.inl (Or.inr (hends.append before))
      · exact Or.inr (Or.inl (hbefore.failsBehind hfails))
      · exact Or.inr (Or.inr hended)

/-- A formula that a run reads is written where the run goes on reading. -/
theorem Meets.exists_written {f : Formula} (h : p.Meets n state₀ source₀ state source (.ok f)) :
    ∃ before, n.WrittenBehind source₀ before f ∧ (StartsLine before ∨ source₀.FailsBehind before) := by
  obtain ⟨hline, lines, announced, hreaches⟩ := h
  obtain ⟨before, hleaves, hstart⟩ := hreaches.exists_leaves
  obtain ⟨w, hw, hsource, halone⟩ := Notation.exists_line_of_readLine (line?_eq_ok hline)
  have hbytes : source.bytes = w ++ lineFeed :: (n.readLine source).2.bytes :=
    (congrArg Source.bytes hsource).trans (Source.bytes_append w _)
  refine ⟨before, ⟨w, _, hleaves.bytes_eq.trans (congrArg (before ++ ·) hbytes), hw, halone⟩, ?_⟩
  rcases hstart with hstarts | hfails | rfl
  · exact Or.inl hstarts
  · exact Or.inr hfails
  · -- Nothing is written at the end.
    exact absurd hbytes (by simp [Source.bytes])

end Procedure

/-- The formula that an event is about. -/
def Event.subject? : Event → Option Formula
  | .formula f => some f
  | .classified f _ => some f
  | .step _ f _ => some f
  | .rejected _ _ => none

/-- What a survey announces of a formula is about the formula of the line. -/
theorem survey_subject {strict : Bool} {inspect : Formula → Tally → Finding}
    (hinspect : ∀ f t, (inspect f t).event.subject? = some f) {state : Tally × Report}
    {line : Except LineError Formula} {event : Event} {f : Formula}
    (hevent : event ∈ ((survey strict inspect).onLine state line).1) (hf : event.subject? = some f) :
    line = .ok f := by
  cases line with
  | error error =>
      obtain rfl := List.mem_singleton.1 hevent
      exact nomatch hf
  | ok g =>
      obtain rfl := List.mem_singleton.1 hevent
      rw [hinspect] at hf
      rw [Option.some.inj hf]

theorem subject_inspectFormula (f : Formula) (t : Tally) : (inspectFormula f t).event.subject? = some f :=
  rfl

theorem subject_inspectAxiom (system : ProofSystem) (f : Formula) (t : Tally) :
    (inspectAxiom system f t).event.subject? = some f := by
  rw [inspectAxiom]
  split <;> rfl

namespace Session

/-- A formula that a survey announces is written where a line begins or where a read has failed. -/
theorem exists_written_of_survey {s : Session} {inspect : Formula → Tally → Finding}
    (hinspect : ∀ f t, (inspect f t).event.subject? = some f) {source : Source} {run : Run Report}
    (hrun : ((survey s.settings.strict inspect).run s.settings.reading ({}, .success) source).map s.conclude =
      some run)
    {event : Event} (hevent : event ∈ run.events) {f : Formula} (hf : event.subject? = some f) :
    ∃ before, s.settings.reading.WrittenBehind source before f ∧
      (StartsLine before ∨ source.FailsBehind before) := by
  obtain ⟨ending, hends, rfl⟩ := Procedure.exists_ends_of_conclude hrun
  have hannounced : event ∈ ending.events := (List.mem_filter.1 hevent).1
  obtain ⟨state, next, line, hmeets, hline⟩ := hends.exists_meets hannounced
  obtain rfl := survey_subject hinspect hline hf
  exact hmeets.exists_written

/-- **What a survey announces is written in the input**, from the beginning of a line or from a place where a read
has failed, up to the end of the line. -/
theorem surveys_announce_written (s : Session) (source : Source) :
    (∀ run f, s.echo source = some run → .formula f ∈ run.events →
        ∃ before, s.settings.reading.WrittenBehind source before f ∧
          (StartsLine before ∨ source.FailsBehind before)) ∧
      ∀ run f type?, s.checkAxioms source = some run → .classified f type? ∈ run.events →
        ∃ before, s.settings.reading.WrittenBehind source before f ∧
          (StartsLine before ∨ source.FailsBehind before) := by
  constructor
  · intro run f hrun hevent
    exact exists_written_of_survey subject_inspectFormula hrun hevent rfl
  · intro run f type? hrun hevent
    exact exists_written_of_survey (subject_inspectAxiom s.system) hrun hevent rfl

/-- **A survey may announce a formula that stands on no line.** One read fails behind the first byte of the only line,
`-A`, and the survey goes on with the rest of the line, which is `A`. -/
theorem echo_announces_rest_of_line :
    (({ system := Hilbert.system } : Session).echo
        (.withFaults .interrupted 1 1 [0x2D, 0x41, lineFeed])).map Run.events =
      some [.rejected 1 (.unreadable .interrupted), .formula (.letter 'A')] ∧
      ¬ ∃ before, StartsLine before ∧ Notation.bracketed.WrittenBehind
        (.withFaults .interrupted 1 1 [0x2D, 0x41, lineFeed]) before (.letter 'A') := by
  refine ⟨by decide +kernel, ?_⟩
  rintro ⟨before, rfl | ⟨w, rfl⟩, rest, after, hbytes, hrest, hline⟩
  · -- The only line gives the negation of the letter.
    have hfirst : rest ++ [lineFeed] = [0x2D, 0x41, lineFeed] := by
      rw [← firstLine_terminated hrest after, ← List.nil_append (rest ++ _), ← hbytes]
      decide +kernel
    have hgiven : (Notation.bracketed.readLine (.ofBytes [0x2D, 0x41, lineFeed])).1 =
        .ok (some (.negation (.letter 'A'))) := rfl
    rw [hfirst, hgiven] at hline
    exact nomatch hline
  · -- Behind its line feed there is no other one.
    have hcount := congrArg (List.count lineFeed) hbytes
    have honce : (Source.withFaults .interrupted 1 1 [0x2D, 0x41, lineFeed]).bytes.count lineFeed = 1 := by
      decide +kernel
    rw [honce] at hcount
    simp only [List.count_append, List.count_cons_self, List.count_nil] at hcount
    omega

end Session

end PropositionalCalculus
