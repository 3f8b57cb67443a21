import PropositionalCalculus.Session.Basic
import PropositionalCalculus.Proofs.Line.Reading

/-!
# How the run of a procedure ends

`Procedure.Ends` says how a run ends without counting attempts at reading a line. Whatever a limited number
of attempts gives is such an ending (`exists_ends_of_runWithin`), a run has one ending only
(`Ends.unique`), and the attempts that are allowed suffice for every procedure that stops at the first line
that gives an error (`run_eq_some`).
-/

set_option autoImplicit false

namespace PropositionalCalculus

namespace Turn

variable {σ ρ : Type} {answer : List Event × Turn σ ρ} {events events' : List Event} {state state' : σ}
  {result result' : ρ}

/-- A line leads to one state. -/
theorem next_unique (h : answer = (events, .next state)) (h' : answer = (events', .next state')) :
    state = state' :=
  next.inj (Prod.mk.inj (h.symm.trans h')).2

/-- A line at which a procedure stops has one result. -/
theorem stop_unique (h : answer = (events, .stop result)) (h' : answer = (events', .stop result')) :
    result = result' :=
  stop.inj (Prod.mk.inj (h.symm.trans h')).2

/-- A procedure does not both go on and stop. -/
theorem not_next_and_stop (h : answer = (events, .next state)) (h' : answer = (events', .stop result)) : False :=
  nomatch (Prod.mk.inj (h.symm.trans h')).2

end Turn

namespace Procedure

variable {σ ρ : Type}

/-- A run from a state on a source ends in this way. -/
inductive Ends (p : Procedure σ ρ) (n : Notation) : σ → Source → Ending ρ → Prop where
  | finished {state : σ} {source : Source} :
      (n.readLine source).1.line? = none →
        Ends p n state source ⟨p.onEnd state, [], (n.readLine source).2⟩
  | stopped {state : σ} {source : Source} {line : Except LineError Formula} {events : List Event}
      {result : ρ} :
      (n.readLine source).1.line? = some line → p.onLine state line = (events, .stop result) →
        Ends p n state source ⟨result, events, (n.readLine source).2⟩
  | next {state state' : σ} {source : Source} {line : Except LineError Formula} {events : List Event}
      {ending : Ending ρ} :
      (n.readLine source).1.line? = some line → p.onLine state line = (events, .next state') →
        Ends p n state' (n.readLine source).2 ending →
          Ends p n state source ⟨ending.result, events ++ ending.events, ending.source⟩

variable {p : Procedure σ ρ} {n : Notation}

/-- What a limited run gives is how the run ends, behind what was announced before. -/
theorem exists_ends_of_runWithin {attempts : Nat} {state : σ} {announced : List Event}
    {source : Source} {ending : Ending ρ}
    (h : p.runWithin n attempts state announced source = some ending) :
    ∃ e, p.Ends n state source e ∧
      ending = ⟨e.result, announced.reverse ++ e.events, e.source⟩ := by
  induction attempts generalizing state announced source with
  | zero => exact nomatch h
  | succ attempts ih =>
      rw [runWithin] at h
      cases hline : (n.readLine source).1.line? with
      | none =>
          rw [hline] at h
          obtain rfl := Option.some.inj h
          exact ⟨_, Ends.finished hline, by rw [List.append_nil]⟩
      | some line =>
          rcases hturn : p.onLine state line with ⟨events, turn⟩
          simp only [hline, hturn] at h
          cases turn with
          | stop result =>
              obtain rfl := Option.some.inj h
              refine ⟨_, Ends.stopped hline hturn, ?_⟩
              rw [List.reverse_append, List.reverse_reverse]
          | next state' =>
              obtain ⟨e, hends, rfl⟩ := ih h
              refine ⟨_, Ends.next hline hturn hends, ?_⟩
              rw [List.reverse_append, List.reverse_reverse, List.append_assoc]

/-- The run of a session is concluded when its procedure has ended. -/
theorem exists_ends_of_conclude {α : Type} {p : Procedure σ (Tally × α)} {s : Session} {state : σ}
    {source : Source} {run : Run α} (h : (p.run n state source).map s.conclude = some run) :
    ∃ ending, p.Ends n state source ending ∧ run = s.conclude ending := by
  obtain ⟨ending, hending, rfl⟩ := Option.map_eq_some_iff.1 h
  obtain ⟨e, hends, rfl⟩ := exists_ends_of_runWithin hending
  exact ⟨e, hends, rfl⟩

/-- A run ends in one way only. -/
theorem Ends.unique {state : σ} {source : Source} {e e' : Ending ρ} (h : p.Ends n state source e)
    (h' : p.Ends n state source e') : e = e' := by
  induction h generalizing e' with
  | finished hline =>
      cases h' with
      | finished hline' => rfl
      | stopped hline' hturn' => simp [hline] at hline'
      | next hline' hturn' _ => simp [hline] at hline'
  | stopped hline hturn =>
      cases h' with
      | finished hline' => simp [hline] at hline'
      | stopped hline' hturn' =>
          obtain rfl := Option.some.inj (hline.symm.trans hline')
          obtain ⟨rfl, hresult⟩ := Prod.mk.inj (hturn.symm.trans hturn')
          rw [Turn.stop.inj hresult]
      | next hline' hturn' _ =>
          obtain rfl := Option.some.inj (hline.symm.trans hline')
          simp [hturn] at hturn'
  | next hline hturn _ ih =>
      cases h' with
      | finished hline' => simp [hline] at hline'
      | stopped hline' hturn' =>
          obtain rfl := Option.some.inj (hline.symm.trans hline')
          simp [hturn] at hturn'
      | next hline' hturn' hends' =>
          obtain rfl := Option.some.inj (hline.symm.trans hline')
          obtain ⟨rfl, hstate⟩ := Prod.mk.inj (hturn.symm.trans hturn')
          obtain rfl := Turn.next.inj hstate
          rw [ih hends']

/-- The procedure stops at the first line that gives an error. -/
def StopsAtErrors (p : Procedure σ ρ) : Prop :=
  ∀ state error, ∃ events result, p.onLine state (.error error) = (events, .stop result)

/-- An outcome that is not an error is a formula or nothing. -/
theorem line?_eq_ok {outcome : Line.Outcome} {f : Formula} (h : outcome.line? = some (.ok f)) :
    outcome = .ok (some f) := by
  match outcome, h with
  | .ok (some g), h => rw [Except.ok.inj (Option.some.inj h)]

/-- An outcome that is neither is nothing. -/
theorem line?_eq_none {outcome : Line.Outcome} (h : outcome.line? = none) : outcome = .ok none := by
  match outcome, h with
  | .ok none, _ => rfl

/-- A run ends within the attempts that are allowed when every line either stops it or uses up a read, and what is
left of the source is again one for which this holds. -/
theorem exists_runWithin_of_progress (Good : Source → Prop)
    (hp : ∀ state source line, Good source → (n.readLine source).1.line? = some line →
      (∃ events result, p.onLine state line = (events, .stop result)) ∨
        ((n.readLine source).2.reads < source.reads ∧ Good (n.readLine source).2))
    {attempts : Nat} {state : σ} (announced : List Event) {source : Source} (hgood : Good source)
    (hreads : source.reads < attempts) :
    ∃ ending, p.runWithin n attempts state announced source = some ending := by
  induction attempts generalizing state announced source with
  | zero => exact absurd hreads (Nat.not_lt_zero _)
  | succ attempts ih =>
      rw [runWithin]
      cases hline : (n.readLine source).1.line? with
      | none => exact ⟨_, rfl⟩
      | some line =>
          rcases hturn : p.onLine state line with ⟨events, turn⟩
          simp only [hturn]
          cases turn with
          | stop result => exact ⟨_, rfl⟩
          | next state' =>
              rcases hp state source line hgood hline with ⟨events', result, hstop⟩ | ⟨hlt, hrest⟩
              · simp [hturn] at hstop
              · exact ih _ hrest (Nat.lt_of_lt_of_le hlt (Nat.le_of_lt_succ hreads))

theorem exists_runWithin (hp : p.StopsAtErrors) {attempts : Nat} {state : σ} (announced : List Event)
    {source : Source} (hreads : source.reads < attempts) :
    ∃ ending, p.runWithin n attempts state announced source = some ending := by
  refine exists_runWithin_of_progress (fun _ => True) ?_ announced trivial hreads
  intro state source line _ hline
  -- Only a formula lets the procedure go on, and a formula uses up a read.
  cases line with
  | error error => exact Or.inl (hp state error)
  | ok f => exact Or.inr ⟨Notation.reads_lt_of_readLine (Prod.ext (line?_eq_ok hline) rfl), trivial⟩

/-- **A procedure that stops at errors always ends**, and `run` gives its ending. -/
theorem run_eq_some (hp : p.StopsAtErrors) (state : σ) (source : Source) :
    ∃ ending, p.run n state source = some ending ∧ p.Ends n state source ending := by
  obtain ⟨ending, hrun⟩ : ∃ ending, p.run n state source = some ending :=
    exists_runWithin hp [] (Nat.lt_succ_self source.reads)
  obtain ⟨e, hends, rfl⟩ := exists_ends_of_runWithin hrun
  exact ⟨e, hrun, hends⟩

end Procedure

end PropositionalCalculus
