import TreeLens.Json.Writer
import TreeLens.Query.Reader
import TreeLens.Session.Failure
import TreeLens.Source.Offsets
import TreeLens.View.Basic

/-!
# Session state

What a session shows: a theme, the source and view of the last tree that was rendered,
the last failure and a status line. Source, offsets and view are only ever replaced
together.
-/

namespace TreeLens

/-- The source of the rendered tree and its offsets. -/
structure Snapshot where
  source : String
  offsets : OffsetTable
deriving DecidableEq, Repr

def statusReady : String := "就绪"

def statusRendered : String := "渲染完成"

def statusCopied : String := "已复制节点"

def statusThemeChanged : String := "主题已切换"

/-- What stands before the message of a failure in the status. -/
def statusErrorMark : String := "错误: "

structure SessionState where
  theme : Theme
  highlight : HighlightStyle
  snapshot : Option Snapshot
  view : Option TreeView
  lastFailure : Option String
  status : String

namespace SessionState

/-- The state of a session with a theme in which nothing happened yet. -/
def ofTheme (theme : Theme) : SessionState where
  theme := theme
  highlight := theme.highlight
  snapshot := none
  view := none
  lastFailure := none
  status := ""

/-- The state with the usual theme. -/
def initial : SessionState :=
  ofTheme .tokyoNight

/-- Replaces source, offsets and view together; there is no failure any more. -/
def commit (s : SessionState) (source : String) (offsets : OffsetTable) (view : TreeView) :
    SessionState :=
  { s with snapshot := some ⟨source, offsets⟩, view := some view, lastFailure := none }

/-- Changes the theme, and the highlight with it. -/
def setTheme (s : SessionState) (theme : Theme) : SessionState :=
  { s with theme, highlight := theme.highlight }

def setStatus (s : SessionState) (status : String) : SessionState :=
  { s with status }

/-- Remembers a failure and shows it. -/
def recordFailure (s : SessionState) (failure : Failure) : SessionState :=
  { s with status := statusErrorMark ++ failure.message, lastFailure := some failure.message }

def source? (s : SessionState) : Option String :=
  s.snapshot.map (·.source)

def tree? (s : SessionState) : Option Node :=
  s.view.map (·.tree)

/-- The first part of the tree's data that a query selects, written on several lines. -/
def extract (s : SessionState) (path : String) : Except Failure String :=
  match s.tree? with
  | none => .error (.state .notRendered)
  | some tree =>
    match Query.read? path with
    | none => .error (.query .malformed)
    | some query =>
      match query.select tree.toJson with
      | [] => .error (.query .noMatch)
      | first :: _ => .ok first.pretty

end SessionState

end TreeLens
