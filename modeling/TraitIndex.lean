import TraitIndex.Main
import TraitIndex.Proofs.CommandLine.AttachFirst
import TraitIndex.Proofs.Fragment.FirstFault
import TraitIndex.Proofs.Index.Export
import TraitIndex.Proofs.Index.Rendered
import TraitIndex.Proofs.Index.Repeated
import TraitIndex.Proofs.Json.Descriptor
import TraitIndex.Proofs.Loading.Arrival
import TraitIndex.Proofs.Loading.Workers
import TraitIndex.Proofs.Logging.Directory
import TraitIndex.Proofs.Logging.Panic
import TraitIndex.Proofs.Logging.Startup
import TraitIndex.Proofs.Names
import TraitIndex.Proofs.Registry.Attachment
import TraitIndex.Proofs.Registry.Chronicle
import TraitIndex.Proofs.Registry.Counters
import TraitIndex.Proofs.Registry.Diagnosis
import TraitIndex.Proofs.Registry.Race
import TraitIndex.Proofs.Registry.Refused
import TraitIndex.Proofs.Registry.Shared
import TraitIndex.Proofs.Registry.Sharing
import TraitIndex.Proofs.Registry.Snapshots
import TraitIndex.Proofs.Rescoped
import TraitIndex.Proofs.Script.Discovery
import TraitIndex.Proofs.Script.Listing
import TraitIndex.Proofs.Script.Literal
import TraitIndex.Proofs.Script.RoundTrip
import TraitIndex.Proofs.Script.Scoping
