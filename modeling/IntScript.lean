import IntScript.Instruction.Encode
import IntScript.Machine.Operation
import IntScript.Main
import IntScript.Proofs.ScopedCalls
import IntScript.Proofs.Compaction
import IntScript.Proofs.Failure
import IntScript.Proofs.Address
import IntScript.Proofs.Shadowing
import IntScript.Proofs.Encoding
import IntScript.Proofs.Labels
import IntScript.Proofs.Move
import IntScript.Proofs.Journal
import IntScript.Proofs.DecodeFault
import IntScript.Proofs.Halting
import IntScript.Proofs.Listing
import IntScript.Proofs.HostSimulation
import IntScript.Proofs.RunCommand
import IntScript.Proofs.Appending
import IntScript.Proofs.Reading
import IntScript.Proofs.Relabeling
import IntScript.Proofs.SpelledText
import IntScript.Proofs.Resolution
import IntScript.Proofs.Slots
import IntScript.Proofs.NestedScopes
import IntScript.Proofs.Forms
import IntScript.Proofs.Operands
import IntScript.Proofs.UniqueReading
import IntScript.Proofs.Grammar
import IntScript.Proofs.Rendering
import IntScript.Proofs.Concatenation
import IntScript.Proofs.ForwardScan
import IntScript.Proofs.RunLength
import IntScript.Proofs.ElementAccess
import IntScript.Proofs.LineReaders
import IntScript.Proofs.ReadBack
import IntScript.Proofs.InPlace
