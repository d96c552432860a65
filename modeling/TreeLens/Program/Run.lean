import TreeLens.Program.Files
import TreeLens.Session.Host
import TreeLens.Session.Log

/-!
# The replay program

The program takes the names of a source file, a file with the recorded tree of that
source, and perhaps a file with settings, and prints the tree in colour. The log goes to
the same output as the tree.
-/

namespace TreeLens

/-- A part of what is written to the standard output. -/
inductive Emission where
  | printed (text : String)
  | logged (event : LogEvent)
deriving DecidableEq, Repr

namespace Emission

/-- The text that is written, given the texts of the time and of the time a cycle took. -/
def text (time elapsed : String) : Emission → String
  | .printed text => text
  | .logged event => event.line time elapsed

def printed? : Emission → Option String
  | .printed text => some text
  | .logged _ => none

end Emission

/-- What a run leaves behind: its exit code, what it wrote to the standard output, and
the text of its errors. -/
structure Outcome where
  code : Nat
  stdout : List Emission
  errors : String
deriving DecidableEq, Repr

/-- The standard output without the log. -/
def Outcome.output (outcome : Outcome) : String :=
  String.join (outcome.stdout.filterMap Emission.printed?)

namespace Program

def usage : String :=
  "用法: ast_tree_view <源码文件> <AST JSON 文件> [配置文件] | --bench"

def failed (message : String) : Outcome :=
  ⟨1, [], "Error: " ++ message⟩

/-- A controller of recorded trees that prints. -/
abbrev Session : Type :=
  Controller ReplayParser MemoryEditor PrintingHost

/-- What a session printed since its page was empty. -/
def page (session : Session) : List Emission :=
  match session.host with
  | none => []
  | some host => if host.output.isEmpty then [] else [.printed host.output]

/-- Lets the time be `now`: what is written, whether something was rendered, and the
session after that. A view is printed before its cycle is over, and so before the entry
of the log. -/
def tick (session : Session) (now : Nat) : List Emission × Bool × Session :=
  let session := session.attachHost ⟨""⟩
  let (rendered, ticked) := session.tick now
  (page ticked ++ (session.tickEvents now).map .logged, rendered, ticked)

/-- A run over texts and settings that were read. The editor is polled at time zero and
again when the quiet time is over. -/
def replay (config : Config) (source : String) (recorded : Json) : Outcome :=
  let created : Except Failure Session := Controller.new config ⟨recorded⟩ (.ofText source)
  match created with
  | .error failure => failed failure.message
  | .ok session =>
    let (first, _, session) := tick session 0
    let (second, rendered, session) := tick session config.debounce
    let status := session.state.status
    if rendered then ⟨0, first ++ second ++ [.logged (.finished status)], ""⟩
    else { failed status with stdout := first ++ second }

def config (files : String → Option (List UInt8)) : Option String → Except String Config
  | none => .ok {}
  | some name => (readConfig (files name)).mapError fun _ => "读取配置失败: " ++ name

/-- A run with the given arguments over the given files. -/
def run (args : List String) (files : String → Option (List UInt8)) : Outcome :=
  match args with
  | sourceName :: treeName :: rest =>
    let inputs : Except String Outcome := do
      let config ← config files rest.head?
      let source ← (readText (files sourceName)).mapError fun _ => "读取源码失败: " ++ sourceName
      let recorded ← (readData (files treeName)).mapError fun _ => "读取 AST 失败: " ++ treeName
      return replay config source recorded
    match inputs with
    | .ok outcome => outcome
    | .error message => failed message
  | _ => failed usage

end Program

end TreeLens
