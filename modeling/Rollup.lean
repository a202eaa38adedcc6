/-
Totals of a tree of remote files, kept up to date by refreshing what a batch
of mutations touched.
-/

import Rollup.Main
import Rollup.Proofs.RefreshPoints
import Rollup.Proofs.Covering
import Rollup.Proofs.BrokenWalks
import Rollup.Proofs.Dispatching
import Rollup.Proofs.Completions
import Rollup.Proofs.Deduplication
import Rollup.Proofs.Statistics
import Rollup.Proofs.Exactness
import Rollup.Proofs.Staleness
import Rollup.Proofs.RawFrames
import Rollup.Proofs.SnapshotFormat
import Rollup.Proofs.Catalogue
import Rollup.Proofs.Ingestion
import Rollup.Proofs.StoredFiles
import Rollup.Proofs.Batches
import Rollup.Proofs.History
import Rollup.Proofs.Schedules
import Rollup.Proofs.SummaryText
import Rollup.Proofs.Modes
import Rollup.Proofs.Atomicity
import Rollup.Proofs.SelfDelimiting
import Rollup.Proofs.Obstacles
import Rollup.Proofs.PartialRefresh
import Rollup.Proofs.Grouping
import Rollup.Proofs.Creation
import Rollup.Proofs.Linkage
import Rollup.Proofs.Retries
import Rollup.Proofs.Navigation
import Rollup.Proofs.Omissions
import Rollup.Proofs.Attempts
import Rollup.Proofs.Plausibility
import Rollup.Proofs.Sizes
