import Mathlib.Data.List.Lex
import TreeLens.Tree.Path

/-!
# Outlines

The outline of a tree lists every node once, in pre-order: it has as many entries as the
tree has nodes (`length_outline`), each entry is what its path leads to
(`resolve?_of_mem_outline`), and a path comes before its continuations and before the paths
that part from it to a later child (`pairwise_outline`), so no path occurs twice
(`nodup_outline`). Counting the nodes before a path, child by child, gives its number in the
outline (`getElem?_outline_rank`), so no path to a node is missing.
-/

namespace TreeLens

/-! ## Pre-order -/

/-- Of two steps from one node, the first leads to an earlier child. -/
def Step.Earlier : Step → Step → Prop
  | .field i, .field j => i < j
  | .item i, .item j => i < j
  | _, _ => False

/-- A path comes before another one in pre-order: it is a proper beginning of the other, or
it goes on to an earlier child where the two part. -/
def Path.Before : Path → Path → Prop :=
  List.Lex Step.Earlier

namespace Path.Before

theorem irrefl (p : Path) : ¬ Path.Before p p := by
  refine List.lex_irrefl ?_ p
  rintro (i | i) earlier <;> exact Nat.lt_irrefl i earlier

theorem append_cons (p : Path) (step : Step) (q : Path) : Path.Before p (p ++ step :: q) := by
  have after : List.Lex Step.Earlier (p ++ []) (p ++ step :: q) := .append_left _ .nil p
  rwa [List.append_nil] at after

theorem of_earlier (p : Path) {one other : Step} (earlier : one.Earlier other) (q r : Path) :
    Path.Before (p ++ one :: q) (p ++ other :: r) :=
  List.Lex.append_left _ (.rel earlier) p

end Path.Before

namespace Node

/-! ## Length -/

mutual

theorem length_outline (here : Path) : ∀ n : Node, (n.outline here).length = n.count
  | .leaf _ => rfl
  | .array items => by
      simp only [outline, count, List.length_cons, length_outlineItems here 0 items]
      omega
  | .object _ fields _ => by
      simp only [outline, count, List.length_cons, length_outlineFields here 0 fields]
      omega

theorem length_outlineItems (here : Path) (i : Nat) :
    ∀ items : List Node, (outlineItems here i items).length = countItems items
  | [] => rfl
  | item :: rest => by
      simp only [outlineItems, countItems, List.length_append, length_outline _ item,
        length_outlineItems here (i + 1) rest]

theorem length_outlineFields (here : Path) (i : Nat) :
    ∀ fields : List (String × Node), (outlineFields here i fields).length = countFields fields
  | [] => rfl
  | (_, value) :: rest => by
      simp only [outlineFields, countFields, List.length_append, length_outline _ value,
        length_outlineFields here (i + 1) rest]

end

/-! ## Entries -/

mutual

theorem exists_suffix_of_mem_outline {p : Path} {m : Node} (here : Path) :
    ∀ n : Node, (p, m) ∈ n.outline here → ∃ q, p = here ++ q ∧ n.resolve? q = some m
  | .leaf value, member => by
      simp only [outline, List.mem_singleton, Prod.mk.injEq] at member
      exact ⟨[], by simp [member.1], by simp [resolve?, member.2]⟩
  | .array items, member => by
      simp only [outline, List.mem_cons, Prod.mk.injEq] at member
      rcases member with ⟨rfl, rfl⟩ | member
      · exact ⟨[], by simp, rfl⟩
      · obtain ⟨k, q, item, found, rfl, resolved⟩ :=
          exists_suffix_of_mem_outlineItems here 0 items member
        exact ⟨.item k :: q, by simp, by simp [resolve?, child?, found, resolved]⟩
  | .object name fields span, member => by
      simp only [outline, List.mem_cons, Prod.mk.injEq] at member
      rcases member with ⟨rfl, rfl⟩ | member
      · exact ⟨[], by simp, rfl⟩
      · obtain ⟨k, q, field, found, rfl, resolved⟩ :=
          exists_suffix_of_mem_outlineFields here 0 fields member
        exact ⟨.field k :: q, by simp, by simp [resolve?, child?, found, resolved]⟩

theorem exists_suffix_of_mem_outlineItems {p : Path} {m : Node} (here : Path) (i : Nat) :
    ∀ items : List Node, (p, m) ∈ outlineItems here i items →
      ∃ k q item, items[k]? = some item ∧ p = here ++ .item (i + k) :: q ∧
        item.resolve? q = some m
  | [], member => by simp [outlineItems] at member
  | item :: rest, member => by
      simp only [outlineItems, List.mem_append] at member
      rcases member with member | member
      · obtain ⟨q, rfl, resolved⟩ := exists_suffix_of_mem_outline (here ++ [.item i]) item member
        exact ⟨0, q, item, rfl, by simp, resolved⟩
      · obtain ⟨k, q, other, found, rfl, resolved⟩ :=
          exists_suffix_of_mem_outlineItems here (i + 1) rest member
        exact ⟨k + 1, q, other, by simpa using found, by simp [Nat.add_right_comm, Nat.add_assoc],
          resolved⟩

theorem exists_suffix_of_mem_outlineFields {p : Path} {m : Node} (here : Path) (i : Nat) :
    ∀ fields : List (String × Node), (p, m) ∈ outlineFields here i fields →
      ∃ k q field, fields[k]? = some field ∧ p = here ++ .field (i + k) :: q ∧
        field.2.resolve? q = some m
  | [], member => by simp [outlineFields] at member
  | (key, value) :: rest, member => by
      simp only [outlineFields, List.mem_append] at member
      rcases member with member | member
      · obtain ⟨q, rfl, resolved⟩ :=
          exists_suffix_of_mem_outline (here ++ [.field i]) value member
        exact ⟨0, q, (key, value), rfl, by simp, resolved⟩
      · obtain ⟨k, q, other, found, rfl, resolved⟩ :=
          exists_suffix_of_mem_outlineFields here (i + 1) rest member
        exact ⟨k + 1, q, other, by simpa using found, by simp [Nat.add_right_comm, Nat.add_assoc],
          resolved⟩

end

/-- The path of an entry of a whole tree's outline leads to the entry's node. -/
theorem resolve?_of_mem_outline {n m : Node} {p : Path} (member : (p, m) ∈ n.outline []) :
    n.resolve? p = some m := by
  obtain ⟨q, rfl, resolved⟩ := exists_suffix_of_mem_outline [] n member
  exact resolved

/-! ## Paths are met in pre-order -/

mutual

theorem pairwise_outline (here : Path) :
    ∀ n : Node, (n.outline here).Pairwise fun a b => Path.Before a.1 b.1
  | .leaf _ => List.pairwise_singleton _ _
  | .array items => by
      refine List.pairwise_cons.2 ⟨?_, pairwise_outlineItems here 0 items⟩
      intro entry member
      obtain ⟨k, q, item, -, longer, -⟩ := exists_suffix_of_mem_outlineItems here 0 items member
      rw [longer]
      exact .append_cons here _ q
  | .object _ fields _ => by
      refine List.pairwise_cons.2 ⟨?_, pairwise_outlineFields here 0 fields⟩
      intro entry member
      obtain ⟨k, q, field, -, longer, -⟩ := exists_suffix_of_mem_outlineFields here 0 fields member
      rw [longer]
      exact .append_cons here _ q

theorem pairwise_outlineItems (here : Path) (i : Nat) :
    ∀ items : List Node, (outlineItems here i items).Pairwise fun a b => Path.Before a.1 b.1
  | [] => .nil
  | item :: rest => by
      refine List.pairwise_append.2
        ⟨pairwise_outline _ item, pairwise_outlineItems here (i + 1) rest, ?_⟩
      -- Entries of this item continue `here` by step `i`, later ones by a later step.
      intro entry inItem later inRest
      obtain ⟨q, own, -⟩ := exists_suffix_of_mem_outline _ item inItem
      obtain ⟨k, r, other, -, after, -⟩ :=
        exists_suffix_of_mem_outlineItems here (i + 1) rest inRest
      have earlier : (Step.item i).Earlier (.item (i + 1 + k)) := show i < i + 1 + k by omega
      rw [own, after, List.append_assoc]
      exact .of_earlier here earlier q r

theorem pairwise_outlineFields (here : Path) (i : Nat) :
    ∀ fields : List (String × Node),
      (outlineFields here i fields).Pairwise fun a b => Path.Before a.1 b.1
  | [] => .nil
  | (_, value) :: rest => by
      refine List.pairwise_append.2
        ⟨pairwise_outline _ value, pairwise_outlineFields here (i + 1) rest, ?_⟩
      intro entry inField later inRest
      obtain ⟨q, own, -⟩ := exists_suffix_of_mem_outline _ value inField
      obtain ⟨k, r, other, -, after, -⟩ :=
        exists_suffix_of_mem_outlineFields here (i + 1) rest inRest
      have earlier : (Step.field i).Earlier (.field (i + 1 + k)) := show i < i + 1 + k by omega
      rw [own, after, List.append_assoc]
      exact .of_earlier here earlier q r

end

theorem nodup_outline (here : Path) (n : Node) : ((n.outline here).map (·.1)).Nodup := by
  refine List.pairwise_map.2 ((pairwise_outline here n).imp ?_)
  intro a b before same
  rw [same] at before
  exact Path.Before.irrefl b.1 before

/-! ## Ranks -/

/-- How many nodes stand before a child in the outline of its parent. -/
def childRank : Node → Step → Nat
  | .array items, .item i => 1 + countItems (items.take i)
  | .object _ fields _, .field i => 1 + countFields (fields.take i)
  | _, _ => 0

/-- How many nodes stand before the node at a path in the outline of a tree. -/
def rank (n : Node) : Path → Nat
  | [] => 0
  | step :: rest => n.childRank step + (n.child? step).elim 0 fun child => child.rank rest

theorem rank_append {n m : Node} {path : Path} (resolved : n.resolve? path = some m)
    (rest : Path) : n.rank (path ++ rest) = n.rank path + m.rank rest := by
  induction path generalizing n with
  | nil =>
      cases resolved
      exact (Nat.zero_add _).symm
  | cons step others ih =>
      obtain ⟨child, found, resolved⟩ := Option.bind_eq_some_iff.1 resolved
      rw [List.cons_append, rank, rank, found, Option.elim_some, Option.elim_some, ih resolved,
        Nat.add_assoc]

theorem outlineItems_append (here : Path) (i : Nat) (items others : List Node) :
    outlineItems here i (items ++ others) =
      outlineItems here i items ++ outlineItems here (i + items.length) others := by
  induction items generalizing i with
  | nil => rfl
  | cons item rest ih =>
      rw [List.cons_append, outlineItems, outlineItems, ih, List.append_assoc, List.length_cons,
        Nat.add_right_comm, Nat.add_assoc]

theorem outlineFields_append (here : Path) (i : Nat) (fields others : List (String × Node)) :
    outlineFields here i (fields ++ others) =
      outlineFields here i fields ++ outlineFields here (i + fields.length) others := by
  induction fields generalizing i with
  | nil => rfl
  | cons field rest ih =>
      rw [List.cons_append, outlineFields, outlineFields, ih, List.append_assoc, List.length_cons,
        Nat.add_right_comm, Nat.add_assoc]

theorem eq_take_append_of_getElem? {α : Type} {l : List α} {i : Nat} {a : α}
    (found : l[i]? = some a) : l = l.take i ++ a :: l.drop (i + 1) := by
  obtain ⟨inside, rfl⟩ := List.getElem?_eq_some_iff.1 found
  rw [← List.drop_eq_getElem_cons inside, List.take_append_drop]

/-- The outline of a child is a part of that of its parent. -/
theorem exists_outline_eq_of_child? {n child : Node} {step : Step}
    (found : n.child? step = some child) (here : Path) :
    ∃ front back, n.outline here = front ++ (child.outline (here ++ [step]) ++ back) ∧
      front.length = n.childRank step := by
  cases n with
  | leaf value => cases step <;> cases found
  | array items =>
      cases step with
      | field i => cases found
      | item i =>
          have split := eq_take_append_of_getElem? (show items[i]? = some child from found)
          have length : (items.take i).length = i :=
            List.length_take_of_le (Nat.le_of_lt (List.getElem?_eq_some_iff.1 found).1)
          refine ⟨(here, .array items) :: outlineItems here 0 (items.take i),
            outlineItems here (i + 1) (items.drop (i + 1)), ?_, ?_⟩
          · have items_eq := congrArg (outlineItems here 0) split
            rw [outlineItems_append, length, Nat.zero_add, outlineItems] at items_eq
            rw [outline, items_eq, List.cons_append]
          · rw [List.length_cons, length_outlineItems, childRank, Nat.add_comm]
  | object name fields span =>
      cases step with
      | item i => cases found
      | field i =>
          obtain ⟨⟨key, value⟩, placed, rfl⟩ := Option.map_eq_some_iff.1 found
          have split := eq_take_append_of_getElem? placed
          have length : (fields.take i).length = i :=
            List.length_take_of_le (Nat.le_of_lt (List.getElem?_eq_some_iff.1 placed).1)
          refine ⟨(here, .object name fields span) :: outlineFields here 0 (fields.take i),
            outlineFields here (i + 1) (fields.drop (i + 1)), ?_, ?_⟩
          · have fields_eq := congrArg (outlineFields here 0) split
            rw [outlineFields_append, length, Nat.zero_add, outlineFields] at fields_eq
            rw [outline, fields_eq, List.cons_append]
          · rw [List.length_cons, length_outlineFields, childRank, Nat.add_comm]

/-- The entry of a path to a node has the path's rank as its number. -/
theorem getElem?_outline_rank {n m : Node} {path : Path} (resolved : n.resolve? path = some m)
    (here : Path) : (n.outline here)[n.rank path]? = some (here ++ path, m) := by
  induction path generalizing n here with
  | nil =>
      cases resolved
      cases m <;> simp [rank, outline]
  | cons step rest ih =>
      obtain ⟨child, found, resolved⟩ := Option.bind_eq_some_iff.1 resolved
      obtain ⟨front, back, whole, length⟩ := exists_outline_eq_of_child? found here
      have inner := ih resolved (here ++ [step])
      have inside := (List.getElem?_eq_some_iff.1 inner).1
      rw [rank, found, Option.elim_some, whole, ← length,
        List.getElem?_append_right (Nat.le_add_right ..), Nat.add_sub_cancel_left,
        List.getElem?_append_left inside, inner, List.append_assoc, List.singleton_append]

/-- The outline holds exactly the paths to nodes, each with its node. -/
theorem mem_outline_iff {n m : Node} {path : Path} :
    (path, m) ∈ n.outline [] ↔ n.resolve? path = some m :=
  ⟨resolve?_of_mem_outline, fun resolved =>
    List.mem_of_getElem? (getElem?_outline_rank resolved [])⟩

/-- The number of an entry is the rank of its path. -/
theorem rank_of_getElem?_outline {n : Node} {i : Nat} {entry : Path × Node}
    (found : (n.outline [])[i]? = some entry) : n.rank entry.1 = i := by
  have resolved := resolve?_of_mem_outline (List.mem_of_getElem? found)
  have ranked := getElem?_outline_rank resolved []
  have inside : n.rank entry.1 < ((n.outline []).map (·.1)).length := by
    rw [List.length_map]
    exact (List.getElem?_eq_some_iff.1 ranked).1
  refine (List.getElem?_inj inside (nodup_outline [] n)).1 ?_
  rw [List.getElem?_map, List.getElem?_map, ranked, found]
  rfl

/-- Different paths to nodes have different ranks. -/
theorem eq_of_rank_eq {n m other : Node} {path path' : Path} (resolved : n.resolve? path = some m)
    (resolved' : n.resolve? path' = some other) (same : n.rank path = n.rank path') :
    path = path' := by
  have one := getElem?_outline_rank resolved []
  have two := getElem?_outline_rank resolved' []
  rw [same, two] at one
  exact (Prod.mk.inj (Option.some.inj one)).1.symm

end Node

end TreeLens
