import Parsing.Main
import Parsing.Session
import Parsing.Proofs.Machine.Invariant
import Parsing.Proofs.Machine.Simulation
import Parsing.Proofs.Bytes.Decoding
import Parsing.Proofs.Bytes.Reading
import Parsing.Proofs.Cursor.Decoding
import Parsing.Proofs.Cursor.Placing
import Parsing.Proofs.Cursor.Serving
import Parsing.Proofs.Cursor.Faults
import Parsing.Proofs.Cursor.Agreement
import Parsing.Proofs.Run.Source
import Parsing.Proofs.Run.Sessions
import Parsing.Proofs.Run.Indexed
import Parsing.Proofs.Machine.Outcome
import Parsing.Proofs.Machine.Evaluation
import Parsing.Proofs.Machine.Handover
import Parsing.Proofs.Cursor.Marks
import Parsing.Proofs.Parser.Matching
import Parsing.Proofs.Parser.Combinators
import Parsing.Proofs.Parser.Deciding
import Parsing.Proofs.Json.Syntax
import Parsing.Proofs.Json.Numbers
import Parsing.Proofs.Json.Strings
import Parsing.Proofs.Json.Members
import Parsing.Proofs.Json.Lists
import Parsing.Proofs.Json.Values
import Parsing.Proofs.Json.Document
import Parsing.Proofs.Json.Printing
import Parsing.Proofs.Binary64.Rounding
import Parsing.Proofs.Binary64.Decimals
import Parsing.Proofs.Binary64.Whole
import Parsing.Proofs.Json.Floats
import Parsing.Proofs.Json.Rereading
import Parsing.Proofs.Json.Reprinting
import Parsing.Proofs.Machine.Meaning
import Parsing.Proofs.Parser.Equivalence
import Parsing.Proofs.Cursor.Forward
import Parsing.Proofs.Parser.Repetition
import Parsing.Proofs.Parser.Applications
import Parsing.Proofs.Parser.Standard
import Parsing.Proofs.Parser.Positions
import Parsing.Proofs.Cursor.Reached
import Parsing.Proofs.Cursor.Coherence
import Parsing.Proofs.Run.Bounds
import Parsing.Proofs.Machine.Halting
import Parsing.Proofs.Run.Termination
import Parsing.Proofs.Json.Standard
import Parsing.Proofs.Json.Trailing
import Parsing.Proofs.Json.Termination
import Parsing.Proofs.Machine.Displacing
import Parsing.Proofs.Cursor.Watching
import Parsing.Proofs.Run.Locality
import Parsing.Proofs.Parser.Alternatives
import Parsing.Proofs.Parser.Delimiting
import Parsing.Proofs.Run.Backtracking
import Parsing.Proofs.Run.Reports
import Parsing.Proofs.Cursor.Failing
import Parsing.Proofs.Run.Transcripts
import Parsing.Proofs.Run.Locations
import Parsing.Proofs.Run.Exhausting
import Parsing.Proofs.Text.Utf16
import Parsing.Proofs.Json.Escapes
import Parsing.Proofs.Run.Primitives
import Parsing.Proofs.Run.Representation
