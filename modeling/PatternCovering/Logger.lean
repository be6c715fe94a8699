import PatternCovering.Journal
import PatternCovering.Settings

/-!
# Showing the journal

A logger shows the events of a journal from a level on. It is set up by the name of the level; the
first set-up that is accepted attaches the one handler it needs.
-/

namespace PatternCovering

/-- The ranks of the levels by their names. -/
def levelRanks : List (String × Nat) :=
  [("CRITICAL", 50), ("FATAL", 50), ("ERROR", 40), ("WARN", 30), ("WARNING", 30), ("INFO", 20),
    ("DEBUG", 10), ("NOTSET", 0)]

/-- The rank of the level of a name. -/
def levelRank (name : String) : Except Fault Nat :=
  match levelRanks.lookup name with
  | some rank => .ok rank
  | none => .error (.unknownLevel name)

/-- The least rank of the events that are heard at a level, which is given by its name or its rank.
A rank of zero leaves it to the level above, which is that of warnings, and below zero everything is
heard. -/
def leastHeard (level : Datum) : Except Fault Nat := do
  let rank : Int ←
    match level with
    | .text name => (↑·) <$> levelRank name
    | _ => level.toInt
  return if rank = 0 then Level.warning.rank else rank.toNat

/-- The least rank that is shown, and the handlers attached. -/
structure Logger where
  rank : Nat := 0
  handlers : Nat := 0
  deriving Repr, DecidableEq

namespace Logger

/-- The name of the logger. -/
def name : String := "colgen"

/-- Sets the level by its name in any case, that of the settings if none is given. -/
def setUp (logger : Logger) (settings : Settings) (level : Datum) : Except Fault Logger := do
  let given := if level.truthy then level else settings.logLevel
  match given with
  | .text name =>
    let rank ← levelRank (Text.upper name)
    return { rank, handlers := max logger.handlers 1 }
  | _ => .error .missingPart

end Logger

end PatternCovering
