import TreeLens.Json.Reader
import TreeLens.Session.Failure
import TreeLens.Source.Offsets

/-!
# Configuration

Five settings, each with a default. They are written as an object, where every setting
may be left out but none may be repeated and nothing else may stand, or as an array of
values in the order of the settings, where the last ones may be left out. The poll
interval must not be zero.
-/

namespace TreeLens

/-- The settings of a viewer; times are in milliseconds. -/
structure Config where
  pollInterval : Nat := 100
  debounce : Nat := 50
  theme : String := "tokyo-night"
  textUnit : TextUnit := .scalar
  spanConvention : SpanConvention := .halfOpen
deriving DecidableEq, Repr, Inhabited

namespace Config

/-- The names of the settings, in order. -/
def settings : List String :=
  ["poll_interval", "debounce", "theme", "text_unit", "span_convention"]

/-- A word, or an object with the word as its only key and null as the value. -/
def wordOf? : Json → Option String
  | .str word => some word
  | .obj [(word, .null)] => some word
  | _ => none

def textUnitOf? : String → Option TextUnit
  | "scalar" => some .scalar
  | "utf16" => some .utf16
  | _ => none

def spanConventionOf? : String → Option SpanConvention
  | "half_open" => some .halfOpen
  | "inclusive" => some .inclusive
  | _ => none

def set? (config : Config) (setting : String) (value : Json) : Option Config :=
  match setting with
  | "poll_interval" => value.toNat?.map fun n => { config with pollInterval := n }
  | "debounce" => value.toNat?.map fun n => { config with debounce := n }
  | "theme" => value.toStr?.map fun name => { config with theme := name }
  | "text_unit" =>
    ((wordOf? value).bind textUnitOf?).map fun unit => { config with textUnit := unit }
  | "span_convention" =>
    ((wordOf? value).bind spanConventionOf?).map fun convention =>
      { config with spanConvention := convention }
  | _ => none

def setAll? (config : Config) : List (String × Json) → Option Config
  | [] => some config
  | (setting, value) :: rest => (config.set? setting value).bind fun next => next.setAll? rest

/-- The settings that a value stands for. -/
def ofJson? : Json → Option Config
  | .obj members => if (members.map (·.1)).Nodup then setAll? {} members else none
  | .arr values =>
    if values.length ≤ settings.length then setAll? {} (settings.zip values) else none
  | _ => none

def read (text : String) : Except Failure Config :=
  match (Json.readRaw? text).bind ofJson? with
  | none => .error .malformedData
  | some config => if config.pollInterval = 0 then .error (.state .zeroPollInterval) else .ok config

end Config

end TreeLens
