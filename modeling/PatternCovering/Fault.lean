import PatternCovering.Pattern
import PatternCovering.Reference
import PatternCovering.Status

/-!
# Faults

Every way in which an operation can refuse its input or fail, as one type of causes. A cause carries
what its message needs; the wording stands in `Fault.message` and nowhere else, and `Fault.kind`
sorts the causes by what went wrong in general.
-/

namespace PatternCovering

/-- What went wrong, in general. -/
inductive FaultKind where
  | badValue
  | badType
  | missingKey
  | badIndex
  | missingPart
  | overflow
  | outOfMemory
  | failedRun
  | unavailable
  | unsolved (status : Status)
  deriving Repr, DecidableEq

/-- A reason why an operation fails. -/
inductive Fault where
  /-- Data of a form on which the operation is not defined. -/
  | wrongType
  /-- A record without an entry that is needed. -/
  | missingKey
  /-- A position outside a list. -/
  | indexOutOfRange
  /-- An operation that the data at hand does not offer. -/
  | missingPart
  | integerOfNaN
  | integerOfInfinity
  | integerOfText (text : String)
  | realOfText (text : String)
  | integerTooLarge
  | quotientTooLarge
  /-- A text of more digits than an integer may be written with. -/
  | tooManyDigits (digits : Nat)
  /-- An integer of more digits than may be written. -/
  | integerTooLong
  /-- A number of copies that no list can have. -/
  | sizeTooLarge
  /-- Copies of a text that no text can hold. -/
  | textTooLong
  /-- A list or a text for which there is no room. -/
  | outOfMemory
  /-- A text where a number is to be written in a numeric format. -/
  | formatOfText (code : Char)
  | widthNotWhole (given : Datum)
  | demandNotWhole (given : Datum)
  | widthNotPositive (given : Datum)
  | demandNegative (given : Datum)
  | lengthsDiffer (widths demands : Nat)
  | namesLengthDiffers
  | countInvalid (item : Nat) (given : Datum)
  | itemOutOfRange (item numItems : Datum)
  | notPair (position length : Nat)
  /-- Fewer values than there are places for. -/
  | tooFewValues (expected given : Nat)
  /-- More values than there are places for. -/
  | tooManyValues (expected : Nat)
  | dualsNotForPattern (duals items : Nat)
  | idTaken (id : Datum)
  | windowNaN
  | windowEmpty (lower upper : Datum)
  | windowNotPair (given : Datum)
  | nodeNameTaken (name : Datum)
  | sourceTaken
  | sinkTaken
  | nodeOutOfBounds (role : String) (node : Datum)
  | consumptionLength (given expected : Nat)
  | itemNegative (item : Datum)
  | unknownNode (name : String)
  | endpointsMissing
  | noSource
  | noSink
  | itemNotPriced (item numItems : Datum)
  | numItemsNegative (numItems : Datum)
  | dualsNotForOracle (duals : Nat) (expected : Datum)
  /-- A search that has not ended within the number of steps it was allowed. -/
  | searchUnfinished
  | knapsackWidth (item : Nat) (given : Datum)
  | knapsackCapacity (given : Datum)
  | problemExists (name : Datum)
  | problemMissing
  | boundsCrossed (name lower upper : Datum)
  | termsMissing (name : Datum)
  | sidesCrossed (name lower upper : Datum)
  | notVariable (given : Reference)
  | unknownVariable (given : Reference)
  | notConstraint (given : Reference)
  | unknownConstraint (given : Reference)
  | constraintFixed (name : Datum)
  | noSolution (status : Status)
  | unknownSense (given : Datum)
  | coefficientRejected
  | engineUnavailable
  | noItems
  | columnLength (counts items : Nat)
  | columnPresent (pattern : Pattern)
  | columnIdPresent (id : Datum)
  | rowFixed (name : Datum)
  | relaxationFailed (status : Status)
  | restrictionFailed (status : Status)
  | relaxationMissing
  | budgetTooSmall (budget : Datum)
  | toleranceNegative (tolerance : Datum)
  | itemsDiffer (cover : Nat) (oracle : Datum)
  | columnPricedAgain (pattern : Pattern) (reducedCost : String)
  | instanceEntryMissing (name : String)
  | rollWidth (given : Datum)
  | itemTooWide (name : Datum) (width capacity : Nat)
  | unknownMethod (name : Datum)
  | budgetNegative
  | namedToleranceNegative (name value : Datum)
  | malformedLine (path line : String)
  | unknownLevel (name : String)

namespace Fault

/-- The general kind of a cause. -/
def kind : Fault → FaultKind
  | wrongType => .badType
  | missingKey => .missingKey
  | indexOutOfRange => .badIndex
  | missingPart => .missingPart
  | integerOfInfinity | integerTooLarge | quotientTooLarge | sizeTooLarge | textTooLong => .overflow
  | outOfMemory => .outOfMemory
  | coefficientRejected | columnPricedAgain _ _ | searchUnfinished => .failedRun
  | engineUnavailable => .unavailable
  | noSolution status | relaxationFailed status | restrictionFailed status => .unsolved status
  | relaxationMissing => .unsolved .notSolved
  | _ => .badValue

/-- The most characters of a quoted text that a message about a malformed integer shows. -/
def mostQuoted : Nat := 200

/-- The message of a cause. -/
def message : Fault → String
  | wrongType => "wrong type"
  | missingKey => "missing key"
  | indexOutOfRange => "index out of range"
  | missingPart => "missing part"
  | integerOfNaN => "cannot convert float NaN to integer"
  | integerOfInfinity => "cannot convert float infinity to integer"
  | integerOfText text =>
    "invalid literal for int() with base 10: " ++
      String.ofList ((Text.quoted text).toList.take mostQuoted)
  | realOfText text => s!"could not convert string to float: {Text.quoted text}"
  | integerTooLarge => "int too large to convert to float"
  | quotientTooLarge => "integer division result too large for a float"
  | tooManyDigits digits =>
    "Exceeds the limit (4300 digits) for integer string conversion: " ++
      s!"value has {digits} digits; use sys.set_int_max_str_digits() to increase the limit"
  | integerTooLong =>
    "Exceeds the limit (4300 digits) for integer string conversion; " ++
      "use sys.set_int_max_str_digits() to increase the limit"
  | textTooLong => "repeated string is too long"
  | outOfMemory => "out of memory"
  | sizeTooLarge => "cannot fit 'int' into an index-sized integer"
  | formatOfText code => s!"Unknown format code '{code}' for object of type 'str'"
  | widthNotWhole given => s!"Item width must be an integer, got {given.shown}"
  | demandNotWhole given => s!"Item demand must be an integer, got {given.shown}"
  | widthNotPositive given => s!"Item width must be positive, got {given.plain}"
  | demandNegative given => s!"Item demand must be non-negative, got {given.plain}"
  | lengthsDiffer widths demands =>
    s!"widths and demands must have same length ({widths} != {demands})"
  | namesLengthDiffers => "names must have same length as widths"
  | countInvalid item given =>
    s!"Pattern count for item {item} must be a non-negative integer, got {given.shown}"
  | itemOutOfRange item numItems => s!"Item index {item.plain} out of range [0, {numItems.plain})"
  | notPair position length =>
    s!"dictionary update sequence element #{position} has length {length}; 2 is required"
  | tooFewValues expected given =>
    s!"not enough values to unpack (expected {expected}, got {given})"
  | tooManyValues expected => s!"too many values to unpack (expected {expected})"
  | dualsNotForPattern duals items =>
    s!"Dual vector has {duals} entries, pattern has {items} items"
  | idTaken id => s!"Column id {id.plain} already in pool"
  | windowNaN => "Resource window bounds must not be NaN"
  | windowEmpty lower upper => s!"Empty resource window [{lower.plain}, {upper.plain}]"
  | windowNotPair given => s!"Resource window must be a (min, max) pair, got {given.shown}"
  | nodeNameTaken name => s!"Node with name '{name.plain}' already exists"
  | sourceTaken => "Source node already exists"
  | sinkTaken => "Sink node already exists"
  | nodeOutOfBounds role node => s!"{role} node index {node.plain} out of bounds"
  | consumptionLength given expected =>
    s!"Arc consumption has {given} entries, network has {expected} resources"
  | itemNegative item => s!"Item index must be non-negative, got {item.plain}"
  | unknownNode name => s!"Unknown node '{name}'"
  | endpointsMissing => "Network data must name a source and a sink"
  | noSource => "Network has no source node"
  | noSink => "Network has no sink node"
  | itemNotPriced item numItems =>
    s!"Arc covers item {item.plain}, but only {numItems.plain} items are priced"
  | numItemsNegative numItems => s!"num_items must be non-negative, got {numItems.plain}"
  | dualsNotForOracle duals expected =>
    s!"Dual vector has {duals} entries, expected {expected.plain}"
  | searchUnfinished => "the search has not ended"
  | knapsackWidth item given =>
    s!"Width of item {item} must be a positive integer, got {given.shown}"
  | knapsackCapacity given => s!"Capacity must be a non-negative integer, got {given.shown}"
  | problemExists name => s!"Problem '{name.plain}' already created"
  | problemMissing => "create_problem() must be called first"
  | boundsCrossed name lower upper =>
    s!"Variable '{name.plain}': lower bound {lower.plain} > upper bound {upper.plain}"
  | termsMissing name => s!"Constraint '{name.plain}' has no terms and is not modifiable"
  | sidesCrossed name lower upper =>
    s!"Constraint '{name.plain}': lhs {lower.plain} > rhs {upper.plain}"
  | notVariable given => s!"Expected a VariableHandle, got {given.shown}"
  | unknownVariable given => s!"Unknown variable handle {given.shown}"
  | notConstraint given => s!"Expected a ConstraintHandle, got {given.shown}"
  | unknownConstraint given => s!"Unknown constraint handle {given.shown}"
  | constraintFixed name => s!"Constraint '{name.plain}' is not modifiable"
  | noSolution status => s!"No optimal solution available (status {status.name})"
  | unknownSense given => s!"{given.shown} is not a valid ObjectiveSense"
  | coefficientRejected => "engine rejected the coefficient"
  | engineUnavailable => "HiGHS is not available. Install it with: pip install highspy"
  | noItems => "Covering master needs at least one item"
  | columnLength counts items => s!"Column has {counts} counts, master has {items} items"
  | columnPresent pattern => s!"Column {pattern.shown} is already in the master"
  | columnIdPresent id => s!"Column id {id.plain} already in the master"
  | rowFixed name => s!"Row '{name.plain}' is not modifiable"
  | relaxationFailed status => s!"Master LP not solved to optimality: {status.name}"
  | restrictionFailed status => s!"Master IP not solved to optimality: {status.name}"
  | relaxationMissing => "Master LP has not been solved"
  | budgetTooSmall budget => s!"max_iterations must be at least 1, got {budget.plain}"
  | toleranceNegative tolerance =>
    s!"optimality_tolerance must be non-negative, got {tolerance.plain}"
  | itemsDiffer cover oracle => s!"Master has {cover} items, pricing expects {oracle.plain}"
  | columnPricedAgain pattern reducedCost =>
    s!"Pricing returned column {pattern.shown} already in the master " ++
      s!"(reduced cost {reducedCost}); check the optimality tolerance"
  | instanceEntryMissing name => s!"Cutting stock data is missing '{name}'"
  | rollWidth given => s!"Capacity must be a positive integer, got {given.shown}"
  | itemTooWide name width capacity =>
    s!"Item '{name.plain}' (width {width}) does not fit in a roll of width {capacity}"
  | unknownMethod name =>
    s!"Unknown pricing method '{name.plain}' (expected 'knapsack' or 'spprc')"
  | budgetNegative => "max_iterations must be non-negative"
  | namedToleranceNegative name value =>
    s!"Tolerance '{name.plain}' must be non-negative, got {value.plain}"
  | malformedLine path line => s!"Malformed config line in {path}: {Text.quoted line}"
  | unknownLevel name => s!"Unknown level: {Text.quoted name}"

end Fault

end PatternCovering
