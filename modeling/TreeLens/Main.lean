import TreeLens.Program.Measure
import TreeLens.Program.Run

/-!
# Command line
-/

namespace TreeLens

def Clock.machine : Clock IO where
  measure compute := do
    let start ← IO.monoMsNow
    let result ← pure (compute ())
    let stop ← IO.monoMsNow
    return (result, stop - start)

/-- A text with blanks on its right up to a width. -/
def padRight (width : Nat) (s : String) : String :=
  s ++ String.ofList (List.replicate (width - s.length) ' ')

/-- A text with blanks on its left up to a width. -/
def padLeft (width : Nat) (s : String) : String :=
  String.ofList (List.replicate (width - s.length) ' ') ++ s

def Measurement.line (m : Measurement) : String :=
  (if m.success then "✓" else "✗") ++ " " ++ padRight 32 m.operation ++ " " ++
    padLeft 6 (Nat.repr m.milliseconds) ++ "ms  " ++ m.details

/-- The bytes of a file, if it can be read. -/
def readFile? (name : String) : IO (Option (List UInt8)) := do
  try
    let bytes ← IO.FS.readBinFile name
    return some bytes.data.toList
  catch _ => return none

end TreeLens

open TreeLens in
/-- Runs the measurements or the replay program. -/
def main (args : List String) : IO UInt32 := do
  if args.head? = some "--bench" then
    for m in ← Measurement.suite Clock.machine do
      IO.println m.line
    return 0
  let contents ← (args.take 3).mapM fun name => do return (name, ← readFile? name)
  let outcome := Program.run args fun name => (contents.lookup name).join
  -- The run is over before anything is written, so its entries all have the time of now.
  let time := Nat.repr (← IO.monoMsNow) ++ "ms"
  for emission in outcome.stdout do
    IO.print (emission.text time "0ms")
  if !outcome.errors.isEmpty then IO.eprintln outcome.errors
  return UInt32.ofNat outcome.code
