import Patchbay.CommandLine
import Patchbay.Host.Rack
import Patchbay.Intern
import Patchbay.Main
import Patchbay.Proofs.Listening
import Patchbay.Proofs.Operations
import Patchbay.Proofs.Performing
import Patchbay.Proofs.Completion
import Patchbay.Proofs.Chronicle
import Patchbay.Proofs.Handles
import Patchbay.Patch.Naming
import Patchbay.Proofs.Failing
import Patchbay.Proofs.Draining
import Patchbay.Proofs.Courses
import Patchbay.Proofs.Queueing
import Patchbay.Proofs.Records
import Patchbay.Proofs.Connections
import Patchbay.Proofs.LoopReports
import Patchbay.Proofs.Undoing
import Patchbay.Proofs.Addresses
import Patchbay.Proofs.Isolation
import Patchbay.Proofs.Interning
import Patchbay.Proofs.ReadSessions
import Patchbay.Proofs.BoxTexts
import Patchbay.Proofs.Selection
import Patchbay.Proofs.Bindings
import Patchbay.Proofs.Solo
import Patchbay.Proofs.Contents
import Patchbay.Proofs.Lines
import Patchbay.Proofs.Nesting
import Patchbay.Proofs.Echoes
import Patchbay.Proofs.Classification
import Patchbay.Proofs.Lifecycle
import Patchbay.Proofs.Ranges
import Patchbay.Proofs.Faultless
import Patchbay.Proofs.NumberTexts
import Patchbay.Proofs.Placeholders
import Patchbay.Proofs.SettingsFiles
import Patchbay.Proofs.Extents
