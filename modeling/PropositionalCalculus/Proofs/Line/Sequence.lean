import PropositionalCalculus.Proofs.Line.Reading

/-!
# Formulas on successive lines

`Notation.Reads` says which formulas the lines of a source give when every line gives one, up to the first
that gives nothing. They are plain, the first ones of them are what `Notation.firstFormulas` computes, and
formulas written one below the other are read back (`reads_lines`).
-/

set_option autoImplicit false

namespace PropositionalCalculus

open Line

/-- The lines of a source give these formulas, then nothing, and leave the rest. -/
inductive Notation.Reads (n : Notation) : Source → List Formula → Source → Prop where
  | nothing {source rest : Source} :
      n.readLine source = (.ok none, rest) → Reads n source [] rest
  | formula {source next rest : Source} {f : Formula} {fs : List Formula} :
      n.readLine source = (.ok (some f), next) → Reads n next fs rest → Reads n source (f :: fs) rest

/-- The formulas of the first lines, at most the given number, up to a line that gives none. -/
def Notation.firstFormulas (n : Notation) : Nat → Source → List Formula
  | 0, _ => []
  | count + 1, source =>
      match n.readLine source with
      | (.ok (some f), next) => f :: firstFormulas n count next
      | _ => []

/-- The formulas one below the other. -/
def Formula.lines (n : Notation) (fs : List Formula) : List UInt8 :=
  fs.flatMap (line n)

namespace Notation

variable {n : Notation}

theorem readLine_ended : n.readLine .ended = (.ok none, .ended) := by
  cases n <;> rfl

namespace Reads

variable {source rest : Source} {fs : List Formula}

theorem plain (h : n.Reads source fs rest) : ∀ f ∈ fs, f.Plain := by
  induction h with
  | nothing _ =>
      intro f hf
      simp at hf
  | formula hline _ ih =>
      intro g hg
      rcases List.mem_cons.1 hg with rfl | hg
      · exact plain_of_readLine hline
      · exact ih g hg

/-- **The first formulas of a source are the first ones of all.** -/
theorem firstFormulas_eq (h : n.Reads source fs rest) (count : Nat) :
    n.firstFormulas count source = fs.take count := by
  induction h generalizing count with
  | nothing hline =>
      cases count with
      | zero => rfl
      | succ count => rw [firstFormulas, hline]; rfl
  | formula hline _ ih =>
      cases count with
      | zero => rfl
      | succ count => rw [firstFormulas, hline, List.take_succ_cons]; exact congrArg _ (ih count)

end Reads

/-- **Plain formulas that are written one below the other are read back.** -/
theorem reads_lines {fs : List Formula} (hfs : ∀ f ∈ fs, f.Plain) :
    n.Reads (Source.ofBytes (Formula.lines n fs)) fs .ended := by
  induction fs with
  | nil => exact Reads.nothing readLine_ended
  | cons f fs ih =>
      rw [Formula.lines, List.flatMap_cons, Source.ofBytes_append]
      obtain ⟨hf, hrest⟩ := List.forall_mem_cons.1 hfs
      exact Reads.formula (readLine_line hf _) (ih hrest)

end Notation

end PropositionalCalculus
