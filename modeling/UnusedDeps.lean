import UnusedDeps.Main
import UnusedDeps.Proofs.Cargo.Flags
import UnusedDeps.Proofs.Drawing
import UnusedDeps.Proofs.Extern
import UnusedDeps.Proofs.Failures.First
import UnusedDeps.Proofs.Failures.Inconsistent
import UnusedDeps.Proofs.Failures.Offline
import UnusedDeps.Proofs.Graph.Arrays
import UnusedDeps.Proofs.Graph.SharedKey
import UnusedDeps.Proofs.Ignore.OtherKeys
import UnusedDeps.Proofs.Invocation.Applied
import UnusedDeps.Proofs.Invocation.Canonical
import UnusedDeps.Proofs.Invocation.Lines
import UnusedDeps.Proofs.Invocation.Workers
import UnusedDeps.Proofs.Names.Coverage
import UnusedDeps.Proofs.NonLibrary
import UnusedDeps.Proofs.Options.Jobs
import UnusedDeps.Proofs.Package.Directory
import UnusedDeps.Proofs.Report.Recovered
import UnusedDeps.Proofs.Report.Tree
import UnusedDeps.Proofs.Spool.Attribution
import UnusedDeps.Proofs.Spool.CrateName
import UnusedDeps.Proofs.Spool.Encoding
import UnusedDeps.Proofs.Spool.Transparent
import UnusedDeps.Proofs.Usage.Grammar
