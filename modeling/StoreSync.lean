import StoreSync.Expression.Table
import StoreSync.Files.Folder
import StoreSync.Main
import StoreSync.Pool.Sleeper
import StoreSync.Store.Trial
import StoreSync.Proofs.Operations
import StoreSync.Proofs.Casing
import StoreSync.Proofs.Planning
import StoreSync.Proofs.Update
import StoreSync.Proofs.Fates
import StoreSync.Proofs.Runs
import StoreSync.Proofs.Reports
import StoreSync.Proofs.Accounting
import StoreSync.Proofs.Halting
import StoreSync.Proofs.Suppression
import StoreSync.Proofs.Strides
import StoreSync.Proofs.Interleaving
import StoreSync.Proofs.Schedules
import StoreSync.Proofs.Rehearsal
import StoreSync.Proofs.FixedPoints
import StoreSync.Proofs.Settling
import StoreSync.Proofs.Counterparts
import StoreSync.Proofs.Convergence
import StoreSync.Proofs.Calendar
import StoreSync.Proofs.Watermark
import StoreSync.Proofs.Cleaning
import StoreSync.Proofs.Orphans
import StoreSync.Proofs.Written
import StoreSync.Proofs.Folders
import StoreSync.Proofs.Records
import StoreSync.Proofs.Confinement
import StoreSync.Proofs.Sessions
import StoreSync.Proofs.Cycles
import StoreSync.Proofs.Pools
import StoreSync.Proofs.Errands
import StoreSync.Proofs.Identifiers
import StoreSync.Proofs.Listings
import StoreSync.Proofs.Hierarchy
import StoreSync.Proofs.Forms
import StoreSync.Proofs.Misconfigurations
import StoreSync.Proofs.Creations
import StoreSync.Proofs.WellFormed
import StoreSync.Proofs.Newcomers
import StoreSync.Proofs.Likeness
import StoreSync.Proofs.Base64
import StoreSync.Proofs.Consulting
import StoreSync.Proofs.Rereading
import StoreSync.Proofs.Foldings
import StoreSync.Proofs.Turns
import StoreSync.Proofs.Mentions
import StoreSync.Proofs.ChangedSince
import StoreSync.Proofs.Settings
import StoreSync.Proofs.Loading
import StoreSync.Proofs.Words
import StoreSync.Proofs.Selections
import StoreSync.Proofs.Attributes
import StoreSync.Proofs.ValueSets
