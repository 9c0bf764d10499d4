import Formula.Main
import Formula.Proofs.Acceptance
import Formula.Proofs.Accounting
import Formula.Proofs.Arguments
import Formula.Proofs.Assignments
import Formula.Proofs.Balance
import Formula.Proofs.Commands
import Formula.Proofs.Description
import Formula.Proofs.Dialogue
import Formula.Proofs.Emptiness
import Formula.Proofs.EqualsSign
import Formula.Proofs.Evaluation
import Formula.Proofs.Fault
import Formula.Proofs.Forest
import Formula.Proofs.Grouping
import Formula.Proofs.Interruption
import Formula.Proofs.Lexicon
import Formula.Proofs.Lines
import Formula.Proofs.Log
import Formula.Proofs.Message
import Formula.Proofs.Names
import Formula.Proofs.Nesting
import Formula.Proofs.Noninterference
import Formula.Proofs.Occurrence
import Formula.Proofs.Placement
import Formula.Proofs.Readback
import Formula.Proofs.Rejection
import Formula.Proofs.Reordering
import Formula.Proofs.Reports
import Formula.Proofs.Sessions
import Formula.Proofs.Sharing
import Formula.Proofs.Spelling
import Formula.Proofs.Stack
import Formula.Proofs.Standard
import Formula.Proofs.Substitution
import Formula.Proofs.Surroundings
import Formula.Session
