import GraphWire.Cli
import GraphWire.Main
import GraphWire.Proofs.Maps
import GraphWire.Proofs.Import
import GraphWire.Proofs.Split
import GraphWire.Proofs.Stream
import GraphWire.Proofs.Decimals
import GraphWire.Proofs.Values
import GraphWire.Proofs.Integers
import GraphWire.Proofs.Numerals
import GraphWire.Proofs.Tokens
import GraphWire.Proofs.Statements
import GraphWire.Proofs.Canonical
import GraphWire.Proofs.Grammar
import GraphWire.Proofs.Formatting
import GraphWire.Proofs.Faults
import GraphWire.Proofs.Copies
import GraphWire.Proofs.Extraction
import GraphWire.Proofs.Frames
import GraphWire.Proofs.Encoding
import GraphWire.Proofs.Fidelity
import GraphWire.Proofs.Relocation
import GraphWire.Proofs.Assignability
import GraphWire.Proofs.Validity
import GraphWire.Proofs.Scalars
import GraphWire.Proofs.Addresses
import GraphWire.Proofs.Assembly
import GraphWire.Proofs.Sessions
import GraphWire.Proofs.Messages
import GraphWire.Proofs.Commands
import GraphWire.Proofs.Dust
import GraphWire.Proofs.Arrival
import GraphWire.Proofs.Setup
import GraphWire.Proofs.Growth
import GraphWire.Proofs.Sending
import GraphWire.Proofs.Reading
import GraphWire.Proofs.Requests
import GraphWire.Proofs.Brief
import GraphWire.Proofs.Updates
import GraphWire.Proofs.Courses
import GraphWire.Proofs.Numbering
import GraphWire.Proofs.Verdicts
import GraphWire.Proofs.Runs
import GraphWire.Proofs.Registration
import GraphWire.Proofs.Ancestry
import GraphWire.Proofs.Filled
import GraphWire.Proofs.Ending
import GraphWire.Proofs.Oversized
import GraphWire.Proofs.Readback
import GraphWire.Proofs.Containers
import GraphWire.Proofs.Traversal
import GraphWire.Proofs.Setters
import GraphWire.Proofs.Mappings
import GraphWire.Proofs.Gathering
import GraphWire.Proofs.Creation
import GraphWire.Proofs.Places
