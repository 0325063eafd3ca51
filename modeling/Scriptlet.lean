import Scriptlet.Console.Completion
import Scriptlet.Main
import Scriptlet.Pattern.Matcher
import Scriptlet.Pattern.Parser
import Scriptlet.Proofs.Session.Control
import Scriptlet.Proofs.Session.Initializers
import Scriptlet.Proofs.Session.StaticErrors
import Scriptlet.Proofs.Token.Partition
import Scriptlet.Proofs.Tree.Completeness
import Scriptlet.Text.Canonical
import Scriptlet.Proofs.Evaluator.Names
import Scriptlet.Proofs.Evaluator.Origin
import Scriptlet.Proofs.Scope.Relocation
import Scriptlet.Proofs.Scope.Sequence
import Scriptlet.Proofs.Session.Batch
import Scriptlet.Proofs.Evaluator.Closures
import Scriptlet.Proofs.Evaluator.Signals
import Scriptlet.Proofs.Evaluator.Termination
import Scriptlet.Proofs.Session.Names
import Scriptlet.Proofs.Session.Signals
import Scriptlet.Proofs.Session.Termination
import Scriptlet.Proofs.Session.Verdict
import Scriptlet.Proofs.Session.Printing
import Scriptlet.Proofs.Session.Reporting
import Scriptlet.Proofs.Session.Chains
import Scriptlet.Proofs.Scope.Placement
import Scriptlet.Proofs.Scope.Distances
import Scriptlet.Proofs.Scope.Unused
import Scriptlet.Proofs.Tree.Places
import Scriptlet.Proofs.Tree.Recovery
import Scriptlet.Proofs.Tree.Precedence
import Scriptlet.Proofs.Tree.Nesting
import Scriptlet.Proofs.Evaluator.Loops
import Scriptlet.Proofs.Session.Supers
import Scriptlet.Proofs.Session.Receivers
import Scriptlet.Proofs.Heap.Lookup
import Scriptlet.Proofs.Console.Joining
import Scriptlet.Proofs.Evaluator.Assignment
import Scriptlet.Proofs.Session.Arguments
import Scriptlet.Proofs.Session.Inputs
import Scriptlet.Proofs.Command.Interleaving
import Scriptlet.Proofs.Token.Respacing
import Scriptlet.Proofs.Tree.Dump
import Scriptlet.Proofs.Token.Numbers
import Scriptlet.Proofs.Token.Strings
import Scriptlet.Proofs.Command.Trees
