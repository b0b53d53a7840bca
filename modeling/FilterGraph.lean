import FilterGraph.Main
import FilterGraph.Proofs.Rows
import FilterGraph.Proofs.Reach
import FilterGraph.Proofs.Traversal
import FilterGraph.Proofs.Sorting
import FilterGraph.Proofs.Outlets
import FilterGraph.Proofs.Naming
import FilterGraph.Proofs.Compilation
import FilterGraph.Proofs.Outcome
import FilterGraph.Proofs.Links
import FilterGraph.Proofs.PadOrder
import FilterGraph.Proofs.Construction
import FilterGraph.Proofs.Denotation
import FilterGraph.Proofs.Loop
import FilterGraph.Proofs.Recursion
import FilterGraph.Proofs.Inverse
import FilterGraph.Proofs.Numerals
import FilterGraph.Proofs.CanonicalText
import FilterGraph.Proofs.Payloads
import FilterGraph.Proofs.EqualNodes
import FilterGraph.Proofs.Images
import FilterGraph.Proofs.Representatives
import FilterGraph.Proofs.ValidDocument
import FilterGraph.Proofs.Building
import FilterGraph.Proofs.Directories
import FilterGraph.Proofs.Stages
import FilterGraph.Proofs.Protocol
import FilterGraph.Proofs.Faults
import FilterGraph.Proofs.Deeds
import FilterGraph.Proofs.Reporting
import FilterGraph.Proofs.VersionCache
import FilterGraph.Proofs.CompileCommand
import FilterGraph.Proofs.Renaming
import FilterGraph.Proofs.RenamedGraph
import FilterGraph.Proofs.UniqueText
import FilterGraph.Proofs.NodeTree
import FilterGraph.Proofs.TreeChange
import FilterGraph.Proofs.SameEntries
import FilterGraph.Proofs.SingleUse
import FilterGraph.Proofs.LinkSpelling
import FilterGraph.Proofs.FilterCycles
import FilterGraph.Proofs.ShellWords
import FilterGraph.Proofs.Streaming
import FilterGraph.Proofs.ReferenceText
import FilterGraph.Proofs.FilterText
import FilterGraph.Proofs.MoreTerminals
import FilterGraph.Proofs.AddressText
import FilterGraph.Proofs.MapArguments
import FilterGraph.Proofs.NameRequests
