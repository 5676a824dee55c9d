import DocRefs.Config
import DocRefs.Config.Load
import DocRefs.Config.Parallel
import DocRefs.Digest.Content
import DocRefs.Digest.Engine
import DocRefs.Digest.Sha256
import DocRefs.Error
import DocRefs.Extract.Buildable
import DocRefs.Extract.Decoded
import DocRefs.Extract.Extensions
import DocRefs.Extract.Gather
import DocRefs.Extract.Map
import DocRefs.Extract.Object
import DocRefs.Extract.Partial
import DocRefs.Extract.Sequence
import DocRefs.Fragment
import DocRefs.Graph
import DocRefs.Index.Basic
import DocRefs.Index.Build
import DocRefs.Index.Reference
import DocRefs.Inspect
import DocRefs.Location.Pointer
import DocRefs.Naming
import DocRefs.Node.OfValue
import DocRefs.OrderedMap.Indexed
import DocRefs.Proofs.Config.Nearest
import DocRefs.Proofs.Digest.Fields
import DocRefs.Proofs.Digest.Framing
import DocRefs.Proofs.Digest.Guard
import DocRefs.Proofs.Digest.Ledger
import DocRefs.Proofs.Digest.Lending
import DocRefs.Proofs.Digest.Session
import DocRefs.Proofs.Digest.Structural
import DocRefs.Proofs.Extract.Chosen
import DocRefs.Proofs.Extract.Converted
import DocRefs.Proofs.Extract.Direct
import DocRefs.Proofs.Extract.Gathered
import DocRefs.Proofs.Extract.Numbers
import DocRefs.Proofs.Extract.Policy
import DocRefs.Proofs.Extract.Readers
import DocRefs.Proofs.Extract.Reported
import DocRefs.Proofs.Extract.Sides
import DocRefs.Proofs.Extract.Spelling
import DocRefs.Proofs.Extract.Transparent
import DocRefs.Proofs.Fragment.Reread
import DocRefs.Proofs.Fragment.Written
import DocRefs.Proofs.Graph.Cycle
import DocRefs.Proofs.Graph.Leaf
import DocRefs.Proofs.Index.Consistent
import DocRefs.Proofs.Index.Earlier
import DocRefs.Proofs.Index.Finding
import DocRefs.Proofs.Index.Keyed
import DocRefs.Proofs.Index.Place
import DocRefs.Proofs.Index.Rearranged
import DocRefs.Proofs.Index.Tables
import DocRefs.Proofs.Location.Ancestor
import DocRefs.Proofs.Location.Detour
import DocRefs.Proofs.Location.Settled
import DocRefs.Proofs.Node.Complete
import DocRefs.Proofs.Node.CoreSchema
import DocRefs.Proofs.Node.Described
import DocRefs.Proofs.Node.Equivalent
import DocRefs.Proofs.Node.Expanded
import DocRefs.Proofs.Node.Identity
import DocRefs.Proofs.Node.Made
import DocRefs.Proofs.Node.Merged
import DocRefs.Proofs.Node.Rearranged
import DocRefs.Proofs.OrderedMap.History
import DocRefs.Proofs.Resolve.Category
import DocRefs.Proofs.Resolve.Chain
import DocRefs.Proofs.Resolve.Circle
import DocRefs.Proofs.Resolve.Coherent
import DocRefs.Proofs.Resolve.Loop
import DocRefs.Proofs.Resolve.Named
import DocRefs.Proofs.Resolve.Order
import DocRefs.Proofs.Resolve.Outcome
import DocRefs.Proofs.Resolve.Rearranged
import DocRefs.Proofs.Text.Prefix
import DocRefs.Proofs.Translate.Delivery
import DocRefs.Proofs.Translate.Ordered
import DocRefs.Proofs.Translate.Progress
import DocRefs.Proofs.Translate.Schedule
import DocRefs.Registry
import DocRefs.Resolve
import DocRefs.Table
import DocRefs.Toml.Document
import DocRefs.Translate
import DocRefs.Translate.Crew
import DocRefs.Work
