import KernelLint.Main
import KernelLint.Proofs.CallGraph.Coherence
import KernelLint.Proofs.CallGraph.Cycle
import KernelLint.Proofs.CallGraph.Reach
import KernelLint.Proofs.Rule.Coverage
import KernelLint.Proofs.Rule.Depth
import KernelLint.Proofs.Resolve.Revision
import KernelLint.Proofs.Rule.Recursion
import KernelLint.Proofs.Catalog
import KernelLint.Proofs.Program.Links
import KernelLint.Proofs.Session.Desk
import KernelLint.Proofs.Session.Runnable
import KernelLint.Proofs.Report
import KernelLint.Proofs.Session.Order
import KernelLint.Proofs.Session.Twins
import KernelLint.Proofs.Session.Announcements
import KernelLint.Proofs.Resolve.Frame
import KernelLint.Proofs.Resolve.Scoping
import KernelLint.Proofs.Resolve.Targets
import KernelLint.Proofs.Java.Reading
import KernelLint.Proofs.Resolve.Idempotent
import KernelLint.Proofs.Resolve.Agreement
import KernelLint.Proofs.CallGraph.OpenCalls
import KernelLint.Proofs.Rule.HelperNames
import KernelLint.Proofs.Config.RoundTrip
import KernelLint.Proofs.LocalMemory
import KernelLint.Proofs.Rule.Flaws
import KernelLint.Proofs.Resolve.Overloads
import KernelLint.Proofs.Resolve.Imports
import KernelLint.Proofs.Java.ArraySizes
import KernelLint.Proofs.Resolve.StaticImports
import KernelLint.Proofs.Java.Descent
import KernelLint.Proofs.Java.Traps
import KernelLint.Proofs.Resolve.LocalClasses
import KernelLint.Proofs.Program.Header
import KernelLint.Proofs.Program.Rename
import KernelLint.Proofs.Types.Written
import KernelLint.Proofs.Rule.InferredTypes
import KernelLint.Proofs.Text.EditDistance
import KernelLint.Proofs.Program.Collectors
import KernelLint.Proofs.Resolve.Termination
import KernelLint.Proofs.Resolve.Index
