import PatternCovering.Settings
import PatternCovering.Text.Blank

/-!
# Settings files

Settings are written to a text of lines with names and values under headings in square brackets.
Reading takes the lines one by one: blank lines and comments are passed over, a heading opens a
section, and every other line holds a name and a value around its first equals sign. Values under
the heading of the tolerances are real numbers; a value elsewhere is an integer, a real number or a
text, whichever is first to read.
-/

namespace PatternCovering.Settings

/-- The text of a settings file. -/
def render (settings : Settings) : Except Fault String := do
  let tolerances := (← settings.tolerances.entries?).map fun (name, value) =>
    s!"{name.plain} = {value.shown}"
  return String.intercalate "\n"
    (["# colgen configuration", "", "[general]", s!"log_level = \"{settings.logLevel.plain}\"",
        s!"max_iterations = {settings.maxIterations.plain}",
        s!"solver_verbosity = {settings.solverVerbosity.plain}", "", "[tolerances]"] ++
      tolerances) ++ "\n"

/-- A value between quotation marks is a text without them; any other one is an integer, a real
number or a text. -/
def parseValue (raw : List Char) : Datum :=
  if raw.head? = some '"' ∧ raw.getLast? = some '"' then .text (String.ofList raw.tail.dropLast)
  else
    let written := String.ofList raw
    match Decimal.readInteger written with
    | .value n => .int n
    | _ =>
      match Decimal.readReal? written with
      | some x => .float x
      | none => .text written

/-- The value that data writes, which has to be a text. -/
def readValue : Datum → Except Fault Datum
  | .text raw => .ok (parseValue raw.toList)
  | _ => .error .missingPart

/-- What a line without surrounding blanks says. -/
inductive Line where
  | nothing
  | heading (name : String)
  | setting (name : String) (value : Datum)
  | malformed

/-- Reads a line without surrounding blanks. -/
def parseLine (line : List Char) : Line :=
  if line.isEmpty ∨ line.head? = some '#' then .nothing
  else if line.head? = some '[' ∧ line.getLast? = some ']' then
    .heading (String.ofList (Text.strip line.tail.dropLast))
  else
    let name := line.takeWhile (· ≠ '=')
    match line.dropWhile (· ≠ '=') with
    | [] => .malformed
    | _ :: value =>
      .setting (String.ofList (Text.strip name)) (parseValue (Text.strip value))

/-- The entries of a record with one of them set: at its place if its name is known, else at the
end. -/
def withField (name : String) (value : Datum) : List (String × Datum) → List (String × Datum)
  | [] => [(name, value)]
  | (known, old) :: rest =>
    if known = name then (known, value) :: rest else (known, old) :: withField name value rest

/-- The heading under which tolerances stand. -/
def tolerancesHeading : String := "tolerances"

/-- The data with a tolerance set; there must be a record of tolerances. -/
def withTolerance (data : List (String × Datum)) (name : String) (value : Datum) :
    Except Fault (List (String × Datum)) := do
  let number ← value.real
  match data.lookup tolerancesHeading with
  | some (.record entries) =>
    return withField tolerancesHeading (.record (withField name (.float number) entries)) data
  | _ => .error .wrongType

/-- The data that the lines of a file give, under the heading that is open; the path is for
messages. -/
def parseLines (path : String) (heading : Option String) (data : List (String × Datum)) :
    List (List Char) → Except Fault (List (String × Datum))
  | [] => .ok data
  | line :: rest =>
    let stripped := Text.strip line
    match parseLine stripped with
    | .nothing => parseLines path heading data rest
    | .heading name => parseLines path (some name) data rest
    | .malformed => .error (.malformedLine path (String.ofList stripped))
    | .setting name value =>
      if heading = some tolerancesHeading then do
        parseLines path heading (← withTolerance data name value) rest
      else parseLines path heading (withField name value data) rest

/-- The settings of a file with the given text. -/
def parse (environment : Option String) (path text : String) : Except Fault Settings := do
  let data ←
    parseLines path none [(tolerancesHeading, .record [])]
      (Text.lines (Text.unifyReturns text.toList))
  read environment (.record data)

/-- The settings of the first file that is there, the standard ones without any. -/
def load (environment : Option String) : List (String × Option String) → Except Fault Settings
  | [] => .ok (standard environment)
  | (path, some text) :: _ => parse environment path text
  | (_, none) :: rest => load environment rest

end PatternCovering.Settings
