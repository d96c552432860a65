import TreeLens.Proofs.Session.Coherence
import TreeLens.Proofs.Tree.Data
import TreeLens.Proofs.View.Regions

/-!
# Copying a subtree

The data of a node can be had in two ways: by the number of its view, and by the text of its
path, which is read as a query. The first always gives it. The second gives the same text if
the path can be read, and else the query is malformed (`SessionState.extract_text`).
-/

namespace TreeLens

/-- Every view has a path text, which is the one of a location, and a node. If keys are
distinct, the query of the location selects the data of the node alone. -/
theorem TreeView.exists_location_of_getElem?_shown {tree : Node} {isOpen : Nat → Bool} {i : Nat}
    {view : View} (found : (shown tree isOpen).views[i]? = some view) :
    ∃ location node, tree.location? view.source = some location ∧
      (shown tree isOpen).jsonPath? i = some (location.text Place.escapeBoth) ∧
      (shown tree isOpen).node? i = some node ∧
      (tree.Everywhere Node.DistinctKeys → location.query.select tree.toJson = [node.toJson]) := by
  obtain ⟨rendered, original, rfl⟩ := exists_rendered_of_getElem?_shown found
  obtain ⟨entry, outlined, -, source, -⟩ := exists_entry_of_getElem?_render original
  have resolved : tree.resolve? entry.1 = some entry.2 :=
    Node.resolve?_of_mem_outline (List.mem_of_getElem? outlined)
  obtain ⟨location, located, reached⟩ := Node.exists_location?_of_resolve? resolved
  have selected (distinct : tree.Everywhere Node.DistinctKeys) :
      location.query.select tree.toJson = [entry.2.toJson] := by
    rw [Json.select_query, reached distinct]
    rfl
  rw [← source] at located
  refine ⟨location, entry.2, located, ?_, node?_shown outlined isOpen, selected⟩
  have path : tree.jsonPath? rendered.source = some (location.text Place.escapeBoth) := by
    rw [Node.jsonPath?, located]
    rfl
  rw [jsonPath?, found]
  exact path

/-- What the text of a location extracts if its query selects one node's data. -/
theorem SessionState.extract_text {s : SessionState} {view : TreeView} {location : Location}
    {data : Json} (shown : s.view = some view)
    (selected : location.query.select view.tree.toJson = [data]) :
    s.extract (location.text Place.escapeBoth) =
      if location.isReadable then .ok data.pretty
      else .error (.query .malformed) := by
  have tree : s.tree? = some view.tree := by
    rw [tree?, shown]
    rfl
  rw [extract, tree, Query.read?_text]
  cases location.isReadable with
  | true => simp only [if_true, selected]
  | false => rfl

namespace Controller

variable {π ε η : Type} [SourceParser π] [EditorSurface ε] [RenderHost η]

omit [SourceParser π] [EditorSurface ε] [RenderHost η] in
theorem copySubtree_of_node? {c : Controller π ε η} {view : TreeView} {i : Nat} {node : Node}
    (shown : c.state.view = some view) (found : view.node? i = some node) :
    (c.copySubtree i).1 = .ok node.toJson.pretty := by
  rw [copySubtree, shown, Option.bind_some, found]

/-- **Two ways to copy.** In every state that a session reaches, if no answer of the parser
repeats a key in an object: every view has a path text and can be copied, and the path text
extracts the same text if all places on the path are readable, and is malformed otherwise. -/
theorem extract_jsonPath_run_new {config : Config} {parser : π} {editor : ε}
    {start : Controller π ε η} (started : new config parser editor = .ok start)
    (commands : List (Command ε η))
    (distinct : ∀ source raw, (source, .ok raw) ∈ start.answersAll commands →
      raw.Everywhere Json.DistinctKeys)
    {shown : TreeView} (rendered : (start.run commands).state.view = some shown) {i : Nat}
    {view : View} (found : shown.views[i]? = some view) :
    ∃ location path text,
      shown.tree.location? view.source = some location ∧
      shown.jsonPath? i = some path ∧
      ((start.run commands).copySubtree i).1 = .ok text ∧
      (start.run commands).state.extract path =
        if location.isReadable then .ok text
        else .error (.query .malformed) := by
  have coherent := coherent_run_of_new started commands
  obtain ⟨snapshot, source⟩ : ∃ snapshot, (start.run commands).state.snapshot = some snapshot := by
    rw [← Option.isSome_iff_exists, coherent.isSome_eq, rendered]
    rfl
  obtain ⟨raw, answered, normal⟩ := coherent.parsed snapshot source shown rendered
  have keys := distinctKeys_of_normalize (distinct _ raw answered) normal
  obtain ⟨isOpen, drawn⟩ := coherent.drawn shown rendered
  rw [drawn] at found
  obtain ⟨location, node, located, path, resolved, selected⟩ :=
    TreeView.exists_location_of_getElem?_shown found
  rw [← drawn] at path resolved
  exact ⟨location, _, node.toJson.pretty, located, path, copySubtree_of_node? rendered resolved,
    SessionState.extract_text rendered (selected keys)⟩

/-- Keys with a quote, a backslash and a character beyond ASCII, a reserved key, and the empty
key. The view is the one of the second item of an array, after a click. -/
theorem extract_jsonPath_run_new_escaped :
    let raw : Json := .obj
      [("it's a\\é", .obj [("$name", .arr [.bool true, .arr []]), ("", .null)]), ("b", .null)]
    let commands : List (Command MemoryEditor RecordingHost) :=
      [.attachHost (.fresh false []), .cycle, .click 3]
    let path := "$['it\\'s a\\\\é']['$name'][1]"
    ∃ start : Controller ReplayParser MemoryEditor RecordingHost,
      new {} ⟨raw⟩ (.ofText "x") = .ok start ∧
      (start.run commands).state.view.bind (·.jsonPath? 4) = some path ∧
      ((start.run commands).copySubtree 4).1 = .ok "[]" ∧
      (start.run commands).state.extract path = .ok "[]" := by
  intro raw commands path
  have merged : raw.Everywhere Json.DistinctKeys := by decide
  obtain ⟨start, started, answers, source, location, pathText, copied⟩ :
      ∃ start : Controller ReplayParser MemoryEditor RecordingHost,
        new {} ⟨raw⟩ (.ofText "x") = .ok start ∧
        start.answersAll commands = [("x", .ok raw)] ∧
        ((start.run commands).state.view.bind fun shown => shown.views[4]?.map (·.source)) =
          some [.field 0, .field 0, .item 1] ∧
        ((start.run commands).state.view.bind fun shown =>
          shown.tree.location? [.field 0, .field 0, .item 1]) =
          some [.key "it's a\\é", .key "$name", .index 1] ∧
        (start.run commands).state.view.bind (·.jsonPath? 4) = some path ∧
        ((start.run commands).copySubtree 4).1 = .ok "[]" :=
    ⟨_, rfl, rfl, by decide +kernel, by decide +kernel, by decide +kernel, by decide +kernel⟩
  have distinct : ∀ source other, (source, .ok other) ∈ start.answersAll commands →
      other.Everywhere Json.DistinctKeys := by
    intro source other member
    rw [answers, List.mem_singleton] at member
    obtain ⟨-, same⟩ := Prod.mk.inj member
    cases same
    exact merged
  obtain ⟨shown, rendered, noted⟩ := Option.bind_eq_some_iff.1 source
  obtain ⟨view, found, here⟩ := Option.map_eq_some_iff.1 noted
  obtain ⟨places, text, copy, located, written, given, extracted⟩ :=
    extract_jsonPath_run_new started commands distinct rendered found
  rw [rendered, Option.bind_some] at location pathText
  rw [here, location] at located
  obtain rfl := Option.some.inj located
  rw [written] at pathText
  obtain rfl := Option.some.inj pathText
  rw [copied] at given
  cases given
  rw [if_pos (by decide +kernel)] at extracted
  refine ⟨start, started, ?_, copied, extracted⟩
  rw [rendered]
  exact written

/-- A plain key that starts with a digit, and a key with a line break in it: both views have a
path text and can be copied, but neither text can be read. -/
theorem extract_jsonPath_run_new_malformed :
    let raw : Json := .obj [("1a", .obj [("x", .null), ("y", .null)]), ("a\nb", .null)]
    let commands : List (Command MemoryEditor RecordingHost) :=
      [.attachHost (.fresh false []), .cycle]
    raw.Everywhere Json.DistinctKeys ∧
    ∃ start : Controller ReplayParser MemoryEditor RecordingHost,
      new {} ⟨raw⟩ (.ofText "x") = .ok start ∧
      (start.run commands).state.view.bind (·.jsonPath? 1) = some "$.1a" ∧
      ((start.run commands).copySubtree 1).1 =
        .ok "\x7b\n  \"x\": null,\n  \"y\": null\n\x7d" ∧
      (start.run commands).state.extract "$.1a" = .error (.query .malformed) ∧
      (start.run commands).state.view.bind (·.jsonPath? 4) = some "$['a\nb']" ∧
      ((start.run commands).copySubtree 4).1 = .ok "null" ∧
      (start.run commands).state.extract "$['a\nb']" = .error (.query .malformed) :=
  ⟨by decide, _, rfl, by decide +kernel, by decide +kernel, by decide +kernel, by decide +kernel,
    by decide +kernel, by decide +kernel⟩

end Controller

end TreeLens
