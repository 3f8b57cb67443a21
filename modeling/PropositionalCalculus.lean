import PropositionalCalculus.Formula.Valuation
import PropositionalCalculus.Main
import PropositionalCalculus.Random.Formula
import PropositionalCalculus.Proofs.Formula.Bytes
import PropositionalCalculus.Proofs.Formula.Traversals
import PropositionalCalculus.Proofs.Random.Formula
import PropositionalCalculus.Proofs.Line.Scan
import PropositionalCalculus.Proofs.Line.Recognition
import PropositionalCalculus.Proofs.Line.Polish
import PropositionalCalculus.Proofs.Line.Bracketed
import PropositionalCalculus.Proofs.Line.ReversePolish
import PropositionalCalculus.Proofs.Line.Reading
import PropositionalCalculus.Proofs.Line.Rejection
import PropositionalCalculus.Proofs.Session.Procedure
import PropositionalCalculus.Proofs.Line.Sequence
import PropositionalCalculus.Proofs.Session.Proving
import PropositionalCalculus.Proofs.Hilbert.ModusPonens
import PropositionalCalculus.Proofs.Hilbert.Soundness
import PropositionalCalculus.Proofs.Proof.Renumbering
import PropositionalCalculus.Proofs.Hilbert.Pruning
import PropositionalCalculus.Proofs.Proof.Editing
import PropositionalCalculus.Proofs.Proof.Needed
import PropositionalCalculus.Proofs.Line.Boundary
import PropositionalCalculus.Proofs.Hilbert.Acceptance
import PropositionalCalculus.Proofs.Hilbert.Classification
import PropositionalCalculus.Proofs.Hilbert.Derivability
import PropositionalCalculus.Proofs.Hilbert.Completeness
import PropositionalCalculus.Proofs.Session.Reachability
import PropositionalCalculus.Proofs.Session.Readings
import PropositionalCalculus.Proofs.Proof.Checking
import PropositionalCalculus.Proofs.Session.Verification
import PropositionalCalculus.Proofs.Session.Modes
import PropositionalCalculus.Proofs.Hilbert.Closure
import PropositionalCalculus.Proofs.Line.Taking
import PropositionalCalculus.Proofs.Session.Counting
import PropositionalCalculus.Proofs.Hilbert.Deduction
import PropositionalCalculus.Proofs.Session.Provenance
import PropositionalCalculus.Proofs.Session.Termination
import PropositionalCalculus.Proofs.Session.Echo
import PropositionalCalculus.Proofs.Session.Decision
import PropositionalCalculus.Proofs.CommandLine.Arguments
import PropositionalCalculus.Proofs.CommandLine.Conversion
import PropositionalCalculus.Proofs.CommandLine.Quiet
import PropositionalCalculus.Proofs.Schema.Overlap
import PropositionalCalculus.Proofs.Hilbert.Ambiguity
import PropositionalCalculus.Proofs.Line.Interruption
import PropositionalCalculus.Proofs.Session.Bound
import PropositionalCalculus.Proofs.Line.Redundancy
import PropositionalCalculus.Proofs.Session.AxiomLines
import PropositionalCalculus.Proofs.Session.Strictness
import PropositionalCalculus.Proofs.Random.Period
import PropositionalCalculus.Proofs.Line.Stacks
