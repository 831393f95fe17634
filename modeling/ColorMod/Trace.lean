import ColorMod.Decimal.Shortest
import ColorMod.Environment
import ColorMod.Resolution
import ColorMod.Text.Words

/-!
# Debug traces

Lines of a trace belong to topics, and only the topics that were asked for are written.  Topics are
asked for by a list with commas; `all` stands for every topic.  Letter case and blanks around a
topic do not matter.
-/

namespace ColorMod

/-- The topics that were asked for. -/
structure Topics where
  names : List String
  deriving DecidableEq, Repr, Inhabited

namespace Topics

/-- The topics of a list with commas. -/
def parse (text : String) : Topics where
  names :=
    (((Text.split text ',').map fun part => Text.trim part).filter (!·.isEmpty)).map Text.lower

/-- The topics that an environment asks for. -/
def ofEnvironment (env : Environment) : Topics :=
  parse ((env.lookup? "COLOR_MOD_DEBUG_TOPICS").getD "")

/-- The topic without letter case and surrounding blanks. -/
def key (topic : String) : String :=
  Text.trim (Text.lower topic)

/-- Lines of the topic are written. -/
def enabled (topics : Topics) (topic : String) : Bool :=
  topics.names.contains "all" || topics.names.contains (key topic)

/-- The line of a message, if its topic was asked for. -/
def line? (topics : Topics) (message topic : String) (level : String := "DEBUG") :
    Option String :=
  if topics.enabled topic then
    some ("[" ++ key topic ++ "][" ++ Text.upper level ++ "] " ++ message)
  else
    none

end Topics

/-- A number rounded to six places, with the sign of a zero kept. -/
def roundedText (x : Float) : String :=
  match exactValue? x with
  | some q =>
    let size := nearest (Decimal.roundPlaces 6 (if q < 0 then -q else q))
    Decimal.floatText (if x.toBits ≥ 0x8000000000000000 then -size else size)
  | none => Decimal.floatText x

/-- A color as traces show it. -/
def Color.summary (c : Color Float) : String :=
  "Color(" ++ c.space.name ++ ": " ++ ", ".intercalate (c.channels.toList.map roundedText) ++
    " / " ++ roundedText c.alpha ++ ")"

namespace Event

def topic : Event Float → String
  | seed .. => "functions"
  | adjusted .. | skipped .. => "adjusters"
  | replaced .. => "walker"

def message : Event Float → String
  | seed node color => "color-mod seed " ++ node.render ++ " → " ++ color.summary
  | adjusted node color => node.render ++ " → " ++ color.summary
  | skipped node complaint => "skipped " ++ node.render ++ ": " ++ complaint.message
  | replaced node text => node.render ++ " → " ++ text

/-- The lines of a trace. -/
def lines (topics : Topics) (events : List (Event Float)) : List String :=
  events.filterMap fun event => topics.line? event.message event.topic

end Event

end ColorMod
