import Placeholders.Binary64.Bits
import Placeholders.Engine.Slot
import Placeholders.Main
import Placeholders.Supplier
import Placeholders.Proofs.Registration
import Placeholders.Proofs.NearestDouble
import Placeholders.Proofs.NumberRoundTrip
import Placeholders.Proofs.Casting
import Placeholders.Proofs.Grammar
import Placeholders.Proofs.PatternText
import Placeholders.Proofs.SheetEngine
import Placeholders.Proofs.Rendering
import Placeholders.Proofs.Checking
import Placeholders.Proofs.CastPrefix
import Placeholders.Proofs.Literals
import Placeholders.Proofs.Extension
import Placeholders.Proofs.SheetVariables
import Placeholders.Proofs.Independence
import Placeholders.Proofs.Calls
import Placeholders.Proofs.ConditionLists
import Placeholders.Proofs.Labels
import Placeholders.Proofs.PatternFaults
import Placeholders.Proofs.Concatenation
import Placeholders.Proofs.CanonicalNumerals
import Placeholders.Proofs.NumeralReading
import Placeholders.Proofs.EditDistance
import Placeholders.Proofs.Suggestions
import Placeholders.Proofs.NormalForm
import Placeholders.Proofs.SheetBuilding
import Placeholders.Proofs.ValueLiterals
import Placeholders.Proofs.Comparisons
import Placeholders.Proofs.Spans
import Placeholders.Proofs.RoundedOrder
