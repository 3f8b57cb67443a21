import PropositionalCalculus.Proofs.Session.Procedure

/-!
# How far a run gets

`Procedure.Reaches` says which lines a run has read and what it has announced at a point from which it goes on.
Every run ends with one more turn from such a point (`Ends.exists_reaches`), and such a turn ends it
(`Reaches.ends`). A procedure that takes the same turns as another one, but announces nothing, gets to the same
points (`Reaches.silenced`).
-/

set_option autoImplicit false

namespace PropositionalCalculus.Procedure

variable {σ ρ : Type}

/-- A run from a state on a source goes on after these lines and announcements, with a state and what is left of
the source. -/
inductive Reaches (p : Procedure σ ρ) (n : Notation) (state₀ : σ) (source₀ : Source) :
    List (Except LineError Formula) → List Event → σ → Source → Prop where
  | start : Reaches p n state₀ source₀ [] [] state₀ source₀
  | next {lines : List (Except LineError Formula)} {announced events : List Event} {state state' : σ}
      {source : Source} {line : Except LineError Formula} :
      Reaches p n state₀ source₀ lines announced state source →
        (n.readLine source).1.line? = some line → p.onLine state line = (events, .next state') →
          Reaches p n state₀ source₀ (lines ++ [line]) (announced ++ events) state' (n.readLine source).2

/-- One turn ends the run: the line gives nothing, or the procedure stops there. -/
inductive LastTurn (p : Procedure σ ρ) (n : Notation) (state : σ) (source : Source) (announced : List Event) :
    Ending ρ → Prop where
  | finished :
      (n.readLine source).1.line? = none →
        LastTurn p n state source announced ⟨p.onEnd state, announced, (n.readLine source).2⟩
  | stopped {line : Except LineError Formula} {events : List Event} {result : ρ} :
      (n.readLine source).1.line? = some line → p.onLine state line = (events, .stop result) →
        LastTurn p n state source announced ⟨result, announced ++ events, (n.readLine source).2⟩

variable {p q : Procedure σ ρ} {n : Notation} {state₀ state : σ} {source₀ source : Source}
  {lines : List (Except LineError Formula)} {announced : List Event} {ending : Ending ρ}

/-- A run that goes on ends as the run from there does. -/
theorem Reaches.ends_append (h : p.Reaches n state₀ source₀ lines announced state source)
    (hends : p.Ends n state source ending) :
    p.Ends n state₀ source₀ ⟨ending.result, announced ++ ending.events, ending.source⟩ := by
  induction h generalizing ending with
  | start => exact hends
  | next _ hline hturn ih =>
      have hbefore := ih (.next hline hturn hends)
      rwa [← List.append_assoc] at hbefore

/-- **A last turn ends the run.** -/
theorem Reaches.ends (h : p.Reaches n state₀ source₀ lines announced state source)
    (hlast : p.LastTurn n state source announced ending) : p.Ends n state₀ source₀ ending := by
  cases hlast with
  | finished hline =>
      have hends := h.ends_append (.finished hline)
      rwa [List.append_nil] at hends
  | stopped hline hturn => exact h.ends_append (.stopped hline hturn)

/-- What comes after a point of a run is part of the run. -/
theorem Reaches.exists_last (h : p.Reaches n state₀ source₀ lines announced state source)
    (hends : p.Ends n state source ending) :
    ∃ lines' announced' state' source', p.Reaches n state₀ source₀ lines' announced' state' source' ∧
      p.LastTurn n state' source' announced' ⟨ending.result, announced ++ ending.events, ending.source⟩ := by
  induction hends generalizing lines announced with
  | finished hline =>
      refine ⟨_, _, _, _, h, ?_⟩
      rw [List.append_nil]
      exact .finished hline
  | stopped hline hturn => exact ⟨_, _, _, _, h, .stopped hline hturn⟩
  | next hline hturn _ ih =>
      rw [← List.append_assoc]
      exact ih (.next h hline hturn)

/-- **A run gets to some point, and ends with one more turn.** -/
theorem Ends.exists_reaches (h : p.Ends n state₀ source₀ ending) :
    ∃ lines announced state source, p.Reaches n state₀ source₀ lines announced state source ∧
      p.LastTurn n state source announced ending :=
  Reaches.start.exists_last h

/-! ## Announcements -/

/-- A run that ends announces these events, whoever hears them. -/
def Announces (p : Procedure σ ρ) (n : Notation) (state : σ) (source : Source) (events : List Event) : Prop :=
  ∃ result rest, p.Ends n state source ⟨result, events, rest⟩

/-- A run, whether it ends or not, announces these events up to some line that it reads, the line included. -/
def AnnouncesUpToLine (p : Procedure σ ρ) (n : Notation) (state₀ : σ) (source₀ : Source) (events : List Event) :
    Prop :=
  ∃ lines announced state source line, p.Reaches n state₀ source₀ lines announced state source ∧
    (n.readLine source).1.line? = some line ∧ events = announced ++ (p.onLine state line).1

/-! ## Silent procedures -/

/-- The procedure takes the turns of another one and announces nothing. -/
def Silences (q p : Procedure σ ρ) : Prop :=
  ∀ state line, q.onLine state line = ([], (p.onLine state line).2)

/-- **Announcements do not decide how far a run gets.** -/
theorem Reaches.silenced (hq : q.Silences p)
    (h : p.Reaches n state₀ source₀ lines announced state source) :
    q.Reaches n state₀ source₀ lines [] state source := by
  induction h with
  | start => exact .start
  | @next lines announced events state state' source line _ hline hturn ih =>
      have hsilent : q.onLine state line = ([], .next state') := by rw [hq, hturn]
      exact .next ih hline hsilent

end PropositionalCalculus.Procedure
