import TreeLens.Session.Controller

/-!
# The log of a session

A session logs each cycle that renders, each that fails, and at its end its status. An
entry is one line; what is not known before it is written, the time and how long a cycle
took, is left to whoever writes it. Entries below `info` are never written and have no
place here.
-/

namespace TreeLens

inductive LogLevel where
  | error
  | warning
  | info
deriving DecidableEq, Repr

/-- The level as it stands in a line, on the right of five columns. -/
def LogLevel.text : LogLevel → String
  | .error => "ERROR"
  | .warning => " WARN"
  | .info => " INFO"

/-- What an entry of the log tells. -/
inductive LogEvent where
  /-- A cycle showed a tree with so many nodes. -/
  | rendered (nodes : Nat)
  /-- A cycle at a tick failed. -/
  | failed (failure : Failure)
  /-- A run ended well, with this status. -/
  | finished (status : String)
deriving DecidableEq, Repr

namespace LogEvent

/-- A source that cannot be parsed is a warning, any other failure an error. -/
def level : LogEvent → LogLevel
  | .rendered _ => .info
  | .failed (.parse _) => .warning
  | .failed _ => .error
  | .finished _ => .info

/-- The message, given the text of the time that a cycle took. -/
def message (elapsed : String) : LogEvent → String
  | .rendered nodes => "渲染完成: " ++ Nat.repr nodes ++ " 个节点，耗时 " ++ elapsed
  | .failed (.parse failure) => "解析失败，保留上一次的视图: " ++ failure.message
  | .failed failure => "渲染中止: " ++ failure.message
  | .finished status => status

/-- The part of the program that an entry comes from. -/
def origin : LogEvent → String
  | .finished _ => "ast_tree_view"
  | _ => "ast_tree_view::vm::controller"

/-- The line of an entry, given the text of the time at which it is written. -/
def line (time elapsed : String) (event : LogEvent) : String :=
  time ++ " " ++ event.level.text ++ " " ++ event.origin ++ ": " ++ event.message elapsed ++ "\n"

end LogEvent

namespace Controller

variable {π ε η : Type} [SourceParser π] [EditorSurface ε] [RenderHost η]

/-- The tree of the editor's text, if it has one. -/
def tree? (c : Controller π ε η) : Option Node :=
  let source := EditorSurface.text c.editor
  match (SourceParser.parse c.parser source).1 with
  | .error _ => none
  | .ok raw => (normalize (some source.utf8ByteSize) raw).toOption

/-- What a cycle at a tick logs: its end if it rendered, and a failure. A cycle that
passes over the text logs nothing. -/
def cycleEvents (c : Controller π ε η) : List LogEvent :=
  match c.runCycle.1 with
  | .ok true => c.tree?.toList.map fun tree => .rendered tree.count
  | .ok false => []
  | .error failure => [.failed failure]

/-- What a tick logs. -/
def tickEvents (c : Controller π ε η) (now : Nat) : List LogEvent :=
  match c.tickTimers now with
  | (false, _) => []
  | (true, c) => c.cycleEvents

end Controller

end TreeLens
