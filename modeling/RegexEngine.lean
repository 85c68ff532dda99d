import RegexEngine.Machine.Usage
import RegexEngine.Main
import RegexEngine.Program.Layout
import RegexEngine.Proofs.Branches.Bookkeeping
import RegexEngine.Proofs.Branches.Safety
import RegexEngine.Proofs.Captures.Depth
import RegexEngine.Proofs.Code.Ceilings
import RegexEngine.Proofs.Code.Emptiness
import RegexEngine.Proofs.Code.Relocation
import RegexEngine.Proofs.CommandLine.Arguments
import RegexEngine.Proofs.CommandLine.Modes
import RegexEngine.Proofs.CommandLine.Portions
import RegexEngine.Proofs.Faults.Finality
import RegexEngine.Proofs.Grammar.Composition
import RegexEngine.Proofs.Grammar.WellFormed
import RegexEngine.Proofs.Guards.Superfluous
import RegexEngine.Proofs.LetterCase.Shorthands
import RegexEngine.Proofs.LetterCase.Singletons
import RegexEngine.Proofs.LetterCase.Wider
import RegexEngine.Proofs.Limits.Larger
import RegexEngine.Proofs.Literals.Searches
import RegexEngine.Proofs.Loops.Nested
import RegexEngine.Proofs.Printing.RoundTrip
import RegexEngine.Proofs.Search.Coherence
import RegexEngine.Proofs.Search.Preference
import RegexEngine.Proofs.Search.Rebuilding
import RegexEngine.Proofs.Search.Scan
import RegexEngine.Proofs.Search.Templates
import RegexEngine.Proofs.Suffixes.Searches
