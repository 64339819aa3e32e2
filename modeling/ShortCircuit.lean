import ShortCircuit.About
import ShortCircuit.CommandLine.Program
import ShortCircuit.Files.Tree
import ShortCircuit.Main
import ShortCircuit.Session.Step
import ShortCircuit.Proofs.CommandLine.Process
import ShortCircuit.Proofs.Evaluation.Failures
import ShortCircuit.Proofs.Evaluation.Graft
import ShortCircuit.Proofs.Evaluation.Halting
import ShortCircuit.Proofs.Evaluation.Meaning
import ShortCircuit.Proofs.Evaluation.Order
import ShortCircuit.Proofs.Evaluation.Mirror
import ShortCircuit.Proofs.Evaluation.Trace
import ShortCircuit.Proofs.Evaluation.Course
import ShortCircuit.Proofs.Evaluation.Reentrance
import ShortCircuit.Proofs.Evaluation.Regrouping
import ShortCircuit.Proofs.Evaluation.Transparency
import ShortCircuit.Proofs.Evaluation.Duality
import ShortCircuit.Proofs.Session.Ledger
import ShortCircuit.Proofs.Session.Retention
import ShortCircuit.Proofs.Session.Keeping
import ShortCircuit.Proofs.Session.Steps
import ShortCircuit.Proofs.Session.Immutability
import ShortCircuit.Proofs.Session.Purity
import ShortCircuit.Proofs.Session.Spelling
import ShortCircuit.Proofs.Session.Representation
import ShortCircuit.Proofs.Evaluation.Matching
import ShortCircuit.Proofs.Session.Consulting
import ShortCircuit.Proofs.Evaluation.Substitution
import ShortCircuit.Proofs.Evaluation.Rearrangement
import ShortCircuit.Proofs.Evaluation.Monotonicity
import ShortCircuit.Proofs.CommandLine.Override
import ShortCircuit.Proofs.CommandLine.Precedence
import ShortCircuit.Proofs.Settings.Document
import ShortCircuit.Proofs.Settings.Written
import ShortCircuit.Proofs.Session.Grouping
import ShortCircuit.Proofs.Settings.Validity
import ShortCircuit.Proofs.Session.Equality
import ShortCircuit.Proofs.Evaluation.Invariant
