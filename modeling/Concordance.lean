import Concordance.CommandLine.Run
import Concordance.Main
import Concordance.Shell.Run
import Concordance.Proofs.Config.Merging
import Concordance.Proofs.Json.Range
import Concordance.Proofs.Dump.Acceptance
import Concordance.Proofs.Dump.Fidelity
import Concordance.Proofs.Dump.RoundTrip
import Concordance.Proofs.Index.Draining
import Concordance.Proofs.Index.Renumbering
import Concordance.Proofs.Tree.Editing
import Concordance.Proofs.Config.Decoding
import Concordance.Proofs.Config.Effective
import Concordance.Proofs.FileSystem.Resolving
import Concordance.Proofs.Config.Directories
import Concordance.Proofs.Config.Discovery
import Concordance.Proofs.Config.Revisits
import Concordance.Proofs.FileSystem.Writing
import Concordance.Proofs.Build.ProjectFiles
import Concordance.Proofs.Build.Account
import Concordance.Proofs.Config.Printing
import Concordance.Proofs.Fetch.Concurrency
import Concordance.Proofs.Index.Reindexing
import Concordance.Proofs.Index.Addresses
import Concordance.Proofs.Fetch.Removal
import Concordance.Proofs.EntryPoints.Selecting
import Concordance.Proofs.EntryPoints.Relocation
import Concordance.Proofs.Config.Grouping
import Concordance.Proofs.Config.Unnoticed
import Concordance.Proofs.Index.Reordering
import Concordance.Proofs.Config.Overriding
import Concordance.Proofs.Markup.OnePass
import Concordance.Proofs.Build.Freshness
