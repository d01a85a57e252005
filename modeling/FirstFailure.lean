import FirstFailure.Command.Run
import FirstFailure.Diagnostic.Validation
import FirstFailure.Main
import FirstFailure.Proofs.Package.Chunks
import FirstFailure.Proofs.Package.Offsets
import FirstFailure.Proofs.Response.Framing
import FirstFailure.Proofs.Response.RoundTrip
import FirstFailure.Proofs.Target.Audit
import FirstFailure.Proofs.Target.Markup
import FirstFailure.Proofs.Schedule
import FirstFailure.Proofs.Command.Session
import FirstFailure.Proofs.Command.Validate
import FirstFailure.Proofs.Response.Contents
import FirstFailure.Proofs.Report.Attachments
import FirstFailure.Proofs.Report.Independence
import FirstFailure.Proofs.Target.Lookup
import FirstFailure.Proofs.Report.Validity
import FirstFailure.Proofs.Target.Numbering
import FirstFailure.Proofs.Json.Reading
import FirstFailure.Proofs.Json.RoundTrip
import FirstFailure.Proofs.Report.Payloads
import FirstFailure.Proofs.Command.Convert
import FirstFailure.Proofs.Disk.Paths
import FirstFailure.Proofs.Disk.Changes
import FirstFailure.Proofs.Disk.Received
import FirstFailure.Proofs.Report.AttachmentFiles
import FirstFailure.Proofs.Command.Outputs
import FirstFailure.Proofs.Command.Batch
import FirstFailure.Proofs.Package.FirstAppearance
import FirstFailure.Proofs.Report.Displacement
import FirstFailure.Proofs.Report.Contributions
import FirstFailure.Proofs.Target.HexPath
import FirstFailure.Proofs.Json.Parts
import FirstFailure.Proofs.Target.Described
import FirstFailure.Proofs.Report.Verdict
import FirstFailure.Proofs.Target.Spelling
import FirstFailure.Proofs.Report.Keys
import FirstFailure.Proofs.Report.Blocks
import FirstFailure.Proofs.Diagnostic.Faults
import FirstFailure.Proofs.Target.Defects
import FirstFailure.Proofs.Target.Locations
import FirstFailure.Proofs.Report.KeptAttachments
import FirstFailure.Proofs.Report.Severities
