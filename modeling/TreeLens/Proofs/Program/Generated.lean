import TreeLens.Program.Synthetic
import TreeLens.Proofs.Source.Offsets
import TreeLens.Proofs.Tree.Layers
import TreeLens.Proofs.View.Parts

/-!
# Synthetic programs in normal form

The raw tree of a synthetic program has a normal form at every size. Its declarations start where
the declarations before them end (`declarations_eq`), so their spans tile the source
(`tile_declarationSpans`), and the source is cut at the name of a variable into what stands before
the name, the name, and what stands after it (`text?_nameSpan`). The normal form is written down as
`programTree`: the wrappers of a declaration come off one by one, those of a sum level by level
(`visit_expression`), and the items follow (`visit_program`).
-/

namespace TreeLens

/-! ## Spans -/

/-- A span holds another one. -/
def Span.Contains (outer inner : Span) : Prop :=
  outer.start ≤ inner.start ∧ inner.stop ≤ outer.stop

/-- Spans in a row cover what is between two bytes: none is empty, and each starts where the one
before it stops. -/
def Span.Tile (start stop : Nat) : List Span → Prop
  | [] => start = stop
  | span :: rest => span.start = start ∧ start < span.stop ∧ Span.Tile span.stop stop rest

theorem Span.Within.of_contains {limit : Option Nat} {outer inner : Span}
    (fits : outer.Within limit) (holds : outer.Contains inner)
    (ordered : inner.start ≤ inner.stop) : inner.Within limit :=
  ⟨ordered, fun size known => Nat.le_trans holds.2 (fits.2 size known)⟩

namespace Synthetic

/-! ## Places in the source -/

/-- Where a declaration starts. -/
def offset (depth i : Nat) : Nat :=
  (sourceText depth i).utf8ByteSize

theorem sourceText_succ (depth i : Nat) :
    sourceText depth (i + 1) = sourceText depth i ++ declarationText depth i := by
  rw [sourceText, List.range_succ, List.map_append, String.join_append]
  simp [sourceText]

theorem offset_succ (depth i : Nat) :
    offset depth (i + 1) = offset depth i + (declarationText depth i).utf8ByteSize := by
  rw [offset, sourceText_succ, String.utf8ByteSize_append]
  rfl

theorem offset_mono {depth i j : Nat} (le : i ≤ j) : offset depth i ≤ offset depth j := by
  induction le with
  | refl => exact Nat.le_refl _
  | step _ ih =>
      rw [offset_succ]
      omega

theorem utf8ByteSize_declarationText (depth i : Nat) :
    (declarationText depth i).utf8ByteSize =
      9 + (variableName i).utf8ByteSize + (expressionText depth).utf8ByteSize := by
  have sizes : "let ".utf8ByteSize = 4 ∧ " = ".utf8ByteSize = 3 ∧ ";\n".utf8ByteSize = 2 := by
    decide
  simp only [declarationText, String.utf8ByteSize_append, sizes]
  omega

/-- The source up to a declaration, the declaration, and the rest. -/
theorem exists_sourceText_eq (depth : Nat) {i width : Nat} (inside : i < width) :
    ∃ back, sourceText depth width = sourceText depth i ++ declarationText depth i ++ back := by
  induction inside with
  | refl => exact ⟨"", by rw [sourceText_succ, String.append_empty]⟩
  | step _ ih =>
      obtain ⟨back, cut⟩ := ih
      exact ⟨back ++ declarationText depth _, by rw [sourceText_succ, cut, String.append_assoc]⟩

def declarationSpan (depth i : Nat) : Span :=
  ⟨offset depth i, offset depth (i + 1)⟩

/-- A declaration without `let` and the end of its line. -/
def declaratorSpan (depth i : Nat) : Span :=
  ⟨offset depth i + 4, offset depth (i + 1) - 2⟩

def nameSpan (depth i : Nat) : Span :=
  ⟨offset depth i + 4, offset depth i + 4 + (variableName i).utf8ByteSize⟩

theorem contains_declaratorSpan (depth i : Nat) :
    (declarationSpan depth i).Contains (declaratorSpan depth i) := by
  constructor <;> simp only [declarationSpan, declaratorSpan] <;> omega

theorem contains_nameSpan (depth i : Nat) :
    (declaratorSpan depth i).Contains (nameSpan depth i) := by
  have size := utf8ByteSize_declarationText depth i
  have next := offset_succ depth i
  constructor <;> simp only [nameSpan, declaratorSpan] <;> omega

/-- The bytes of the name of a variable are its name. -/
theorem text?_nameSpan {depth i width : Nat} (inside : i < width) :
    (nameSpan depth i).text? (sourceText depth width) = some (variableName i) := by
  obtain ⟨back, cut⟩ := exists_sourceText_eq depth inside
  have front : (sourceText depth i ++ "let ").utf8ByteSize = offset depth i + 4 := by
    rw [String.utf8ByteSize_append]
    rfl
  have cutAtName : sourceText depth width = sourceText depth i ++ "let " ++ variableName i ++
      (" = " ++ expressionText depth ++ ";\n" ++ back) := by
    simp only [cut, declarationText, String.append_assoc]
  have span : nameSpan depth i = ⟨(sourceText depth i ++ "let ").utf8ByteSize,
      (sourceText depth i ++ "let " ++ variableName i).utf8ByteSize⟩ := by
    rw [String.utf8ByteSize_append (s := sourceText depth i ++ "let "), front]
    rfl
  rw [span, cutAtName]
  exact Span.text?_append _ _ _

/-- Declarations in a row cover what is between the start of the first and the end of the last. -/
theorem tile_declarationSpans (depth i count : Nat) :
    Span.Tile (offset depth i) (offset depth (i + count))
      ((List.range' i count).map (declarationSpan depth)) := by
  induction count generalizing i with
  | zero => rfl
  | succ count ih =>
      rw [List.range'_succ, List.map_cons]
      refine ⟨rfl, ?_, ?_⟩
      · have size := utf8ByteSize_declarationText depth i
        have next := offset_succ depth i
        simp only [declarationSpan]
        omega
      · have rest := ih (i + 1)
        rw [Nat.add_right_comm] at rest
        exact rest

/-! ## Normal forms -/

def expressionTree : Nat → Node
  | 0 => .leaf (.ofText "1")
  | depth + 1 =>
    .object (some "BinaryExpression")
      [("operator", .leaf (.ofText "+")), ("left", expressionTree depth),
      ("right", .object (some "NumberLiteral")
        [("value", .leaf (.ofText "1")), ("raw", .leaf (.ofText "1"))] none)] none

def identifierTree (depth i : Nat) : Node :=
  .object (some "Identifier") [("name", .leaf (.ofText (variableName i)))]
    (some (nameSpan depth i))

def declaratorTree (depth i : Nat) : Node :=
  .object (some "VariableDeclarator")
    [("id", identifierTree depth i), ("init", expressionTree depth)]
    (some (declaratorSpan depth i))

def declarationTree (depth i : Nat) : Node :=
  .object (some "VariableDeclaration")
    [("kind", .leaf (.ofText "let")), ("declarators", .array [declaratorTree depth i])]
    (some (declarationSpan depth i))

def programTree (depth width : Nat) : Node :=
  .object (some "Module") [("body", .array ((List.range width).map (declarationTree depth)))]
    (some ⟨0, offset depth width⟩)

theorem count_expressionTree (depth : Nat) : (expressionTree depth).count = 5 * depth + 1 := by
  induction depth with
  | zero => rfl
  | succ depth ih =>
      simp only [expressionTree, Node.count, Node.countFields, ih]
      omega

theorem count_declarationTree (depth i : Nat) :
    (declarationTree depth i).count = 5 * depth + 7 := by
  simp only [declarationTree, declaratorTree, identifierTree, Node.count, Node.countFields,
    Node.countItems, count_expressionTree]
  omega

theorem count_programTree (depth width : Nat) :
    (programTree depth width).count = 2 + width * (5 * depth + 7) := by
  have items (numbers : List Nat) : Node.countItems (numbers.map (declarationTree depth)) =
      numbers.length * (5 * depth + 7) := by
    induction numbers with
    | nil => simp [Node.countItems]
    | cons i rest ih =>
        rw [List.map_cons, Node.countItems, count_declarationTree, ih, List.length_cons,
          Nat.add_mul, Nat.one_mul, Nat.add_comm]
  simp only [programTree, Node.count, Node.countFields, items, List.length_range]
  omega

end Synthetic

/-! ## Taking wrappers off -/

namespace Normal

open Synthetic (spanned wrapped)

variable {limit : Option Nat} {node : Node}

theorem toNat?_ofNat (n : Nat) : (Json.ofNat n).toNat? = some n := by
  simp [Json.ofNat, Json.toNat?, Number.toNat?]

theorem ofMembers?_spanned (start stop : Nat) (data : Json) :
    SpanWrapper.ofMembers? [("start", .ofNat start), ("end", .ofNat stop), ("data", data)] =
      some ⟨start, stop, data⟩ := by
  simp [SpanWrapper.ofMembers?, List.lookup_cons, toNat?_ofNat]

theorem visit_spanned {start stop : Nat} {data : Json}
    (fits : Span.Within limit ⟨start, stop⟩) (present : data.isAbsent = false)
    (inner : ∀ location, visit limit location data = .ok node) (location : Location) :
    visit limit location (spanned start stop data) = .ok (node.withSpan ⟨start, stop⟩) := by
  have checked : checkSpan limit location start stop = .ok ⟨start, stop⟩ :=
    checkSpan_of_within fits location
  rw [spanned, visit_wrapper (ofMembers?_spanned start stop data) present, checked]
  simp only [inner, Except.bind, Except.map]

theorem visit_wrapped {name : String} {members : List (String × Json)}
    {fields : List (String × Node)} (plain : SpanWrapper.ofMembers? members = none)
    (unnamed : ∀ key value, members = [(key, value)] → value.isObject = false)
    (inner : ∀ location, visitFields limit location members = .ok fields) (location : Location) :
    visit limit location (wrapped name members) =
      .ok (.object (some (pascalCase name)) fields none) := by
  have object : Json.isObject (.obj members) = true := rfl
  rw [wrapped, visit_name object, visit_fields plain unnamed, inner]
  rfl

theorem visitFields_cons_ok {key : String} {value : Json} {rest : List (String × Json)}
    {fields : List (String × Node)} (plain : SpanWrapper.ofKeyed? key value = none)
    (own : ∀ location, visit limit location value = .ok node)
    (others : ∀ location, visitFields limit location rest = .ok fields) (location : Location) :
    visitFields limit location ((key, value) :: rest) = .ok ((key, node) :: fields) := by
  rw [visitFields_cons, visitField_of_not_keyed plain, own, others]
  rfl

theorem visitItems_map {α : Type} {raw : α → Json} {tree : α → Node} {items : List α}
    (each : ∀ a ∈ items, ∀ location, visit limit location (raw a) = .ok (tree a))
    (location : Location) (i : Nat) :
    visitItems limit location i (items.map raw) = .ok (items.map tree) := by
  induction items generalizing i with
  | nil => rfl
  | cons a rest ih =>
      rw [List.forall_mem_cons] at each
      rw [List.map_cons, visitItems, each.1, ih each.2]
      rfl

end Normal

namespace Synthetic

open TreeLens.Normal

variable {limit : Option Nat}

theorem visit_expression (depth : Nat) (location : Location) :
    visit limit location (expression depth) = .ok (expressionTree depth) := by
  induction depth generalizing location with
  | zero => rfl
  | succ depth ih =>
      have literal : ∀ location, visit limit location
          (wrapped "number_literal" [("value", .str "1"), ("raw", .str "1")]) =
          .ok (.object (some "NumberLiteral")
            [("value", .leaf (.ofText "1")), ("raw", .leaf (.ofText "1"))] none) :=
        visit_wrapped rfl (by simp)
          (visitFields_cons_ok rfl (fun _ => rfl) (visitFields_cons_ok rfl (fun _ => rfl)
            fun _ => rfl))
      -- The left side is a text or a wrapper of one member, so it repeats no key.
      have left : SpanWrapper.ofKeyed? "left" (expression depth) = none := by
        cases depth <;> rfl
      exact visit_wrapped rfl (by simp)
        (visitFields_cons_ok rfl (fun _ => rfl) (visitFields_cons_ok left ih
          (visitFields_cons_ok rfl literal fun _ => rfl))) location

/-- The raw trees of declarations, each at the place where its source starts. -/
theorem declarations_eq (depth i count : Nat) :
    declarations depth (offset depth i) i count =
      (List.range' i count).map fun k => declaration depth (offset depth k) k := by
  induction count generalizing i with
  | zero => rfl
  | succ count ih =>
      rw [declarations, ← offset_succ, ih, List.range'_succ, List.map_cons]

/-- The raw tree of the name of a variable. -/
def identifier (depth i : Nat) : Json :=
  spanned (nameSpan depth i).start (nameSpan depth i).stop
    (wrapped "identifier" [("name", .str (variableName i))])

/-- The raw tree of a name with its initial value. -/
def declarator (depth i : Nat) : Json :=
  spanned (declaratorSpan depth i).start (declaratorSpan depth i).stop
    (wrapped "variable_declarator" [("id", identifier depth i), ("init", expression depth)])

theorem declaration_eq (depth i : Nat) :
    declaration depth (offset depth i) i =
      spanned (declarationSpan depth i).start (declarationSpan depth i).stop
        (wrapped "variable_declaration"
          [("kind", .str "let"), ("declarators", .arr [declarator depth i])]) := by
  have sizes : "let ".utf8ByteSize = 4 ∧ ";\n".utf8ByteSize = 2 := by decide
  simp only [declaration, declarator, identifier, declarationSpan, declaratorSpan, nameSpan,
    offset_succ, sizes]

theorem visit_identifier {depth i : Nat} (fits : (nameSpan depth i).Within limit)
    (location : Location) :
    visit limit location (identifier depth i) = .ok (identifierTree depth i) :=
  visit_spanned fits rfl (visit_wrapped rfl (by simp [Json.isObject])
    (visitFields_cons_ok rfl (fun _ => rfl) fun _ => rfl)) location

theorem visit_declarator {depth i : Nat} (fits : (declaratorSpan depth i).Within limit)
    (nameFits : (nameSpan depth i).Within limit) (location : Location) :
    visit limit location (declarator depth i) = .ok (declaratorTree depth i) := by
  -- The data under `id` has no member of that key.
  have unrepeated : SpanWrapper.ofKeyed? "id" (identifier depth i) = none := by
    simp [SpanWrapper.ofKeyed?, identifier, spanned, ofMembers?_spanned, wrapped, Json.get?,
      List.lookup_cons]
  have init : SpanWrapper.ofKeyed? "init" (expression depth) = none := by
    cases depth <;> rfl
  exact visit_spanned fits rfl (visit_wrapped rfl (by simp)
    (visitFields_cons_ok unrepeated (visit_identifier nameFits)
      (visitFields_cons_ok init (visit_expression depth) fun _ => rfl))) location

theorem visit_declaration {depth i : Nat} (fits : (declarationSpan depth i).Within limit)
    (location : Location) :
    visit limit location (declaration depth (offset depth i) i) =
      .ok (declarationTree depth i) := by
  have size := utf8ByteSize_declarationText depth i
  have next := offset_succ depth i
  have declaratorFits : (declaratorSpan depth i).Within limit :=
    fits.of_contains (contains_declaratorSpan depth i) (by simp only [declaratorSpan]; omega)
  have nameFits : (nameSpan depth i).Within limit :=
    declaratorFits.of_contains (contains_nameSpan depth i) (by simp only [nameSpan]; omega)
  have declarators (location : Location) : visit limit location (.arr [declarator depth i]) =
      .ok (.array [declaratorTree depth i]) := by
    rw [visit, visitItems, visit_declarator declaratorFits nameFits]
    rfl
  rw [declaration_eq]
  exact visit_spanned fits rfl (visit_wrapped rfl (by simp)
    (visitFields_cons_ok rfl (fun _ => rfl) (visitFields_cons_ok rfl declarators fun _ => rfl)))
    location

theorem visit_program (depth width : Nat) (location : Location) :
    visit (some (offset depth width)) location (SyntheticProgram.generate depth width).raw =
      .ok (programTree depth width) := by
  have fits : Span.Within (some (offset depth width)) ⟨0, offset depth width⟩ :=
    ⟨Nat.zero_le _, by simp⟩
  have each : ∀ i ∈ List.range width, ∀ location,
      visit (some (offset depth width)) location (declaration depth (offset depth i) i) =
        .ok (declarationTree depth i) := by
    intro i member
    refine visit_declaration ⟨offset_mono (Nat.le_succ i), ?_⟩
    rintro _ ⟨⟩
    exact offset_mono (List.mem_range.1 member)
  have body (location : Location) : visit (some (offset depth width)) location
      (.arr (declarations depth 0 0 width)) =
      .ok (.array ((List.range width).map (declarationTree depth))) := by
    have raws : declarations depth 0 0 width =
        (List.range width).map fun i => declaration depth (offset depth i) i := by
      rw [List.range_eq_range']
      exact declarations_eq depth 0 width
    rw [raws, visit, visitItems_map each]
    rfl
  exact visit_spanned fits rfl (visit_wrapped rfl (by simp [Json.isObject])
    (visitFields_cons_ok rfl body fun _ => rfl)) location

/-- **Synthetic programs.** At every depth and width the raw tree has a normal form within its
source: a module that spans the source, with one declaration for each unit of width. The spans of
the declarations tile the source; each declaration holds its declarator and this one its
identifier, whose bytes are the name of the variable. The number of nodes, which is that of views,
is `2 + width * (5 * depth + 7)`. -/
theorem normalize_generate (depth width : Nat) :
    let p := SyntheticProgram.generate depth width
    ∃ tree items spans,
      normalize (some p.source.utf8ByteSize) p.raw = .ok tree ∧
      tree.name? = some "Module" ∧ tree.span? = some ⟨0, p.source.utf8ByteSize⟩ ∧
      tree.field? "body" = some (.array items) ∧ items.length = width ∧
      items.map Node.span? = spans.map some ∧ Span.Tile 0 p.source.utf8ByteSize spans ∧
      (∀ i item, items[i]? = some item →
        item.name? = some "VariableDeclaration" ∧
        ∃ span declarator around identifier own,
          item.span? = some span ∧ item.field? "declarators" = some (.array [declarator]) ∧
          declarator.name? = some "VariableDeclarator" ∧ declarator.span? = some around ∧
          declarator.field? "id" = some identifier ∧
          identifier.name? = some "Identifier" ∧ identifier.span? = some own ∧
          own.text? p.source = some ("变量_" ++ Nat.repr i) ∧
          around.Contains own ∧ span.Contains around) ∧
      tree.count = 2 + width * (5 * depth + 7) ∧
      (TreeView.render tree).views.size = 2 + width * (5 * depth + 7) := by
  intro p
  have tiles := tile_declarationSpans depth 0 width
  rw [Nat.zero_add, ← List.range_eq_range'] at tiles
  have views := TreeView.size_views_render (programTree depth width)
  rw [count_programTree] at views
  refine ⟨programTree depth width, (List.range width).map (declarationTree depth),
    (List.range width).map (declarationSpan depth), visit_program depth width [], rfl, rfl, rfl,
    by simp, ?_, tiles, ?_, count_programTree depth width, views⟩
  · rw [List.map_map, List.map_map]
    rfl
  · intro i item found
    rw [List.getElem?_map, Option.map_eq_some_iff] at found
    obtain ⟨k, place, rfl⟩ := found
    obtain ⟨inside, rfl⟩ : i < width ∧ i = k := by
      simpa [List.getElem?_eq_some_iff] using place
    exact ⟨rfl, declarationSpan depth i, declaratorTree depth i, declaratorSpan depth i,
      identifierTree depth i, nameSpan depth i, rfl, rfl, rfl, rfl, rfl, rfl, rfl,
      text?_nameSpan inside, contains_nameSpan depth i, contains_declaratorSpan depth i⟩

end Synthetic

end TreeLens
