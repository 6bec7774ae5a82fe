import Dissect.Server
import Dissect.Fault.Make
import Dissect.Tool.HostLibrary
import Dissect.Fault.Tagged
import Dissect.Sorting.Gallop
import Dissect.Sorting.Merge
import Dissect.Proofs.FreshCopies
import Dissect.Proofs.StartedPrograms
import Dissect.Proofs.Captures
import Dissect.Proofs.LenientReading
import Dissect.Proofs.ProgramRuns
import Dissect.Proofs.ModuleRuns
import Dissect.Proofs.OutcomeKinds
import Dissect.Proofs.InvocationEndings
import Dissect.Proofs.FileLifetimes
import Dissect.Proofs.Diagnoses
import Dissect.Proofs.Summaries
import Dissect.Proofs.DamagedStores
import Dissect.Proofs.OpenedStores
import Dissect.Proofs.ReadRecords
import Dissect.Proofs.Retention
import Dissect.Proofs.StoreRuns
import Dissect.Proofs.EncodedClasses
import Dissect.Proofs.ForetoldRuns
import Dissect.Proofs.SilentRecords
import Dissect.Proofs.SparedStores
import Dissect.Proofs.CaughtFailures
import Dissect.Proofs.NestedCaptures
import Dissect.Proofs.EntryOrigins
import Dissect.Proofs.PermittedFiles
import Dissect.Proofs.Lookups
import Dissect.Proofs.AccountedCalls
import Dissect.Proofs.FailureReports
import Dissect.Proofs.SettingsSearch
import Dissect.Proofs.ScrubbedEnvironments
import Dissect.Proofs.AuditRecords
import Dissect.Proofs.DiagnosticTexts
import Dissect.Proofs.PaddedSettings
