import RecordArchive.Archive.Packer
import RecordArchive.Archive.Unpacker
import RecordArchive.Archive.Walk
import RecordArchive.CommandLine.Run
import RecordArchive.Main
import RecordArchive.Proofs.Archive.Calls
import RecordArchive.Proofs.Record.Codec
import RecordArchive.Proofs.Stream.Delivery
import RecordArchive.Stream.Faults
import RecordArchive.Stream.Sequential
import RecordArchive.Proofs.Archive.RecordReader
import RecordArchive.Proofs.Archive.Schedule
import RecordArchive.Proofs.Stream.Collection
import RecordArchive.Proofs.Archive.Unpacker
import RecordArchive.Proofs.Archive.Extraction
import RecordArchive.Proofs.Archive.RecordWriter
import RecordArchive.Proofs.Archive.Recording
import RecordArchive.Proofs.Archive.Packer
import RecordArchive.Proofs.Archive.RoundTrip
import RecordArchive.Proofs.Archive.Sealing
import RecordArchive.Proofs.Archive.Accounting
import RecordArchive.Proofs.Archive.Place
import RecordArchive.Proofs.Archive.Provenance
import RecordArchive.Proofs.Archive.PublicCalls
import RecordArchive.Proofs.Archive.Representation
import RecordArchive.Proofs.Archive.Truncation
import RecordArchive.Proofs.Archive.CutArchive
import RecordArchive.Proofs.Archive.Completion
import RecordArchive.Proofs.Archive.Progress
import RecordArchive.Proofs.Archive.Pieces
import RecordArchive.Proofs.Archive.Producer
import RecordArchive.Proofs.Archive.CopiedEntry
import RecordArchive.Proofs.Record.BitFlip
import RecordArchive.Proofs.Archive.AlteredPayload
import RecordArchive.Proofs.Archive.Stranded
import RecordArchive.Proofs.Archive.Pace
import RecordArchive.Proofs.Stream.Log
import RecordArchive.Proofs.Archive.Marking
import RecordArchive.Proofs.Archive.OpenEntry
import RecordArchive.Proofs.CommandLine.Confinement
import RecordArchive.Proofs.Archive.Walk
import RecordArchive.Proofs.FileTree.Plan
import RecordArchive.Proofs.CommandLine.Packing
import RecordArchive.Proofs.CommandLine.Unpacking
import RecordArchive.Proofs.CommandLine.RoundTrip
import RecordArchive.Proofs.Record.Layout
import RecordArchive.Proofs.Archive.FrontRecord
import RecordArchive.Proofs.Archive.CutRecords
import RecordArchive.Proofs.Archive.Occurrences
import RecordArchive.Proofs.Archive.OpenedArchive
import RecordArchive.Proofs.Archive.SkippedRecord
import RecordArchive.Proofs.Archive.Frames
import RecordArchive.Proofs.Archive.SkippedEntry
import RecordArchive.Proofs.Entry.Layout
import RecordArchive.Proofs.Path.Raw
import RecordArchive.Proofs.Archive.ResumedCopy
import RecordArchive.Proofs.Cursor
