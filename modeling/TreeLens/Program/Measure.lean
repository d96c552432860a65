import TreeLens.Program.Synthetic
import TreeLens.Session.State

/-!
# Measurements

The steps from a source to a shown tree, each run under a clock on synthetic programs.
What a measurement reports besides its time does not depend on the clock.
-/

namespace TreeLens

/-- A measured step: its name, its time, whether it worked, and what it did. -/
structure Measurement where
  operation : String
  milliseconds : Nat
  success : Bool
  details : String
deriving DecidableEq, Repr

/-- A way to run a computation and take its time. -/
structure Clock (m : Type → Type) where
  measure : {α : Type} → (Unit → α) → m (α × Nat)

/-- The clock that stands still. -/
def Clock.still : Clock Id where
  measure compute := (compute (), 0)

namespace Measurement

variable {m : Type → Type} [Monad m]

def offsets (clock : Clock m) (source : String) : m Measurement := do
  let (table, time) ← clock.measure fun _ => OffsetTable.build .scalar source
  return ⟨"偏移表构建", time, table.byteLength == source.utf8ByteSize,
    Nat.repr table.byteLength ++ " 字节 → " ++ Nat.repr table.charLength ++ " 字符"⟩

def normalization (clock : Clock m) (raw : Json) (limit : Nat) : m (Measurement × Option Node) := do
  let (result, time) ← clock.measure fun _ => normalize (some limit) raw
  match result with
  | .ok tree => return (⟨"AST规范化", time, true, "规范化了 " ++ Nat.repr tree.count ++ " 个节点"⟩, some tree)
  | .error error => return (⟨"AST规范化", time, false, "规范化失败: " ++ error.message⟩, none)

def rendering (clock : Clock m) (tree : Node) : m (Measurement × TreeView) := do
  let (view, time) ← clock.measure fun _ => TreeView.render tree
  return (⟨"树视图渲染", time, view.widgets.size != 0,
    Nat.repr view.views.size ++ " 个视图节点，" ++ Nat.repr view.widgets.size ++ " 个部件"⟩, view)

def extraction (clock : Clock m) (state : SessionState) (path : String) : m Measurement := do
  let (result, time) ← clock.measure fun _ => state.extract path
  match result with
  | .ok text => return ⟨"节点提取: " ++ path, time, true, "提取了 " ++ Nat.repr text.utf8ByteSize ++ " 字符"⟩
  | .error failure => return ⟨"节点提取: " ++ path, time, false, "提取失败: " ++ failure.message⟩

/-- All steps on one program; steps after a failed normalization are left out. -/
def program (clock : Clock m) (p : SyntheticProgram) (limit : Nat) (paths : List String) :
    m (List Measurement) := do
  let built ← offsets clock p.source
  let (normalized, tree?) ← normalization clock p.raw limit
  match tree? with
  | none => return [built, normalized]
  | some tree =>
    let (rendered, view) ← rendering clock tree
    let state := SessionState.initial.commit p.source (.build .scalar p.source) view
    let extracted ← paths.mapM (extraction clock state)
    return built :: normalized :: rendered :: extracted

/-- Generates a program and runs all steps on it. -/
def scale (clock : Clock m) (depth width : Nat) : m (List Measurement) := do
  let (p, time) ← clock.measure fun _ => SyntheticProgram.generate depth width
  let rest ← program clock p p.source.utf8ByteSize
    ["$", "$.body[0]", "$.body[0].declarators[0].init"]
  return ⟨"数据生成(" ++ Nat.repr depth ++ "x" ++ Nat.repr width ++ ")", time, true,
    "源码 " ++ Nat.repr p.source.utf8ByteSize ++ " 字节"⟩ :: rest

/-- A small, a middle and a large program. -/
def suite (clock : Clock m) : m (List Measurement) := do
  let small ← scale clock 2 10
  let middle ← scale clock 4 100
  let large ← scale clock 6 1000
  return small ++ middle ++ large

end Measurement

end TreeLens
