import Replica.Class.Definition
import Replica.Memory.Script
import Replica.Proofs.Result
import Replica.Proofs.Memory.Tree
import Replica.Proofs.Memory.Store
import Replica.Proofs.Memory.Unfolding
import Replica.Proofs.Memory.Gathering
import Replica.Proofs.Memory.KeyOrder
import Replica.Proofs.Memory.TreeCopy
import Replica.Proofs.Memory.Growth
import Replica.Proofs.Memory.Backing
import Replica.Proofs.Memory.Outcome
import Replica.Proofs.Memory.Likeness
import Replica.Proofs.Memory.Footprint
import Replica.Proofs.Memory.Region
import Replica.Proofs.Memory.Building
import Replica.Proofs.Memory.Writing
import Replica.Proofs.Memory.Altering
import Replica.Proofs.Memory.Reachable
import Replica.Proofs.Memory.Independence
import Replica.Proofs.Memory.Halting
import Replica.Proofs.Memory.Poison
import Replica.Proofs.Memory.Conservation
import Replica.Proofs.Class.Attributes
import Replica.Proofs.Class.Selection
import Replica.Proofs.Class.Scanning
import Replica.Proofs.Class.Acceptance
import Replica.Proofs.Class.Refusal
import Replica.Proofs.Class.Arguments
import Replica.Proofs.Class.Agreement
import Replica.Proofs.Class.Signatures
import Replica.Proofs.Class.Delegation
import Replica.Proofs.Class.Diagnosis
import Replica.Proofs.Class.Locality
import Replica.Proofs.Class.Stripping
import Replica.Proofs.Class.Obstacles
import Replica.Proofs.Class.Literals
import Replica.Proofs.Grammar.Reading
import Replica.Proofs.Grammar.Separation
import Replica.Proofs.Class.Grouping
import Replica.Proofs.Class.Headers
import Replica.Proofs.Memory.Renaming
import Replica.Proofs.Memory.Soothing
import Replica.Proofs.Memory.Lockstep
import Replica.Proofs.Memory.Twins
import Replica.Proofs.Memory.Soiling
import Replica.Proofs.Memory.Attempt
import Replica.Proofs.Memory.Commuting
import Replica.Proofs.Memory.Stopping
import Replica.Proofs.Class.Blame
import Replica.Proofs.Memory.KeyKeeping
import Replica.Proofs.Memory.Rebuilding
import Replica.Proofs.Memory.Draining
import Replica.Proofs.Memory.Ending
import Replica.Proofs.Memory.Height
import Replica.Proofs.Memory.Tidiness
import Replica.Proofs.Memory.Searching
import Replica.Proofs.Memory.Neatness
import Replica.Proofs.Memory.Resemblance
import Replica.Proofs.Memory.Replacing
import Replica.Proofs.Memory.Propagation
import Replica.Proofs.Memory.Orderliness
import Replica.Proofs.Memory.Retrieval
import Replica.Proofs.Memory.Showing
import Replica.Proofs.Memory.Reflecting
import Replica.Proofs.Memory.Renewal
import Replica.Proofs.Memory.Constructing
import Replica.Proofs.Memory.Generations
import Replica.Proofs.Class.Requirements
import Replica.Proofs.Class.Returning
import Replica.Proofs.Class.Uniformity
import Replica.Proofs.Grammar.Printing
import Replica.Proofs.Grammar.Calling
import Replica.Proofs.Grammar.Rereading
import Replica.Proofs.Grammar.Nesting
import Replica.Proofs.Class.Callees
import Replica.Proofs.Grammar.Progress
import Replica.Proofs.Grammar.Shrinking
import Replica.Proofs.Grammar.Consuming
import Replica.Proofs.Class.Sequence
import Replica.Proofs.Class.Clashes
