import Sar.Archive.Audit
import Sar.Archive.LogicalFiles
import Sar.Archive.RepairWritten
import Sar.Archive.StreamConcatenation
import Sar.Archive.StreamErrors
import Sar.Archive.Verify
import Sar.Delta.Interoperability
import Sar.Fragmentation.Reassembly
import Sar.Stream.SessionAtomicity
import Sar.Stream.Transcript
import Sar.Transport.Accounting
import Sar.Transport.ControlDecoding
import Sar.Transport.Sequencing
import Sar.Transport.Sequential
import Sar.Transport.Tables
