import ApiDescription.Data.Tree
import ApiDescription.Yaml.Token

/-!
# Nodes of YAML

The tree of a file with its anchors and aliases. `Node.toData` puts in place of every alias what its
anchor stands before. How deep collections may nest and how often aliases may be followed is limited,
so that the result is finite even when an anchor stands before a collection that holds its own alias.
-/

set_option autoImplicit false

namespace ApiDescription.Yaml

/-- A node of a file. An anchor is known by its number, which a later one may have again. -/
inductive Node where
  | scalar (anchor : Option Nat) (text : String) (style : TextStyle) (tag : Option String)
  | list (anchor : Option Nat) (tag : Option String) (items : List Node)
  | table (anchor : Option Nat) (tag : Option String) (entries : List (Node × Node))
  | alias (anchor : Nat)
  deriving Repr, Inhabited

namespace Node

/-- The node that stands where nothing is written. -/
def empty : Node := .scalar none "" .plain none

mutual

/-- The nodes behind an anchor, in the order in which they begin. -/
def anchored (node : Node) : List (Nat × Node) :=
  match node with
  | .scalar (some a) _ _ _ => [(a, node)]
  | .scalar none _ _ _ => []
  | .list anchor _ items => (anchor.map fun a => (a, node)).toList ++ anchoredItems items
  | .table anchor _ entries => (anchor.map fun a => (a, node)).toList ++ anchoredEntries entries
  | .alias _ => []

/-- The nodes behind an anchor among items. -/
def anchoredItems : List Node → List (Nat × Node)
  | [] => []
  | x :: xs => x.anchored ++ anchoredItems xs

/-- The nodes behind an anchor among entries. -/
def anchoredEntries : List (Node × Node) → List (Nat × Node)
  | [] => []
  | (k, v) :: es => k.anchored ++ v.anchored ++ anchoredEntries es

end

mutual

/-- How many beginnings and ends of nodes there are, where a scalar or an alias counts once. -/
def size : Node → Nat
  | .scalar _ _ _ _ => 1
  | .list _ _ items => sizeItems items + 2
  | .table _ _ entries => sizeEntries entries + 2
  | .alias _ => 1

/-- The size of items. -/
def sizeItems : List Node → Nat
  | [] => 0
  | x :: xs => x.size + sizeItems xs

/-- The size of entries. -/
def sizeEntries : List (Node × Node) → Nat
  | [] => 0
  | (k, v) :: es => k.size + v.size + sizeEntries es

end

/-! ## Aliases -/

/-- How deep collections may nest. -/
def nestingLimit : Nat := 128

/-- How many aliases may be followed for each unit of size. -/
def aliasLimit : Nat := 100

/-- The tag is one of the file's own. -/
def isTagged (tag : Option String) : Bool := (Scalar.localTag? tag).isSome

/-- The node that the given one stands for, and how many more aliases may be followed. The last anchor
with a number is the one that counts. -/
def follow? (anchors : List (Nat × Node)) (node : Node) : StateM Nat (Option Node) := do
  match node with
  | .alias a =>
    match ← get with
    | 0 => pure none
    | n + 1 =>
      set n
      pure (anchors.reverse.lookup a)
  | node => pure (some node)

/-- The text of a node as a key. -/
def keyText? (anchors : List (Nat × Node)) (node : Node) : StateM Nat (Option String) := do
  match ← follow? anchors node with
  | some (.scalar _ text _ _) => pure (some text)
  | _ => pure none

/-- The data of a node, with collections at most so deep. -/
def expand (anchors : List (Nat × Node)) : Nat → Node → StateM Nat Data
  | 0, node => do
    match ← follow? anchors node with
    | some (.scalar _ text style tag) => pure (.scalar (.written text style tag))
    | _ => pure .unreadable
  | depth + 1, node => do
    match ← follow? anchors node with
    | some (.scalar _ text style tag) => pure (.scalar (.written text style tag))
    | some (.list _ tag items) =>
      pure (.list false (isTagged tag) (← items.mapM (expand anchors depth)))
    | some (.table _ tag entries) =>
      pure (.table (isTagged tag) (← entries.mapM fun (k, v) => do
        let key ← keyText? anchors k
        let value ← expand anchors depth v
        pure (key, value)))
    | _ => pure .unreadable

/-- The data of a whole file. -/
def toData (node : Node) : Data :=
  (expand node.anchored nestingLimit node (aliasLimit * node.size)).1

end Node

end ApiDescription.Yaml
