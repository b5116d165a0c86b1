import TickTree.World

/-!
# Labelled nodes

Nodes that carry a tag can be found and changed from outside their tree.  Of several nodes with one
label the latest is meant.

Main results:

- Definitions `World.find?` and `World.replace`: the latest node of a label, and a change of it.
-/

namespace TickTree

namespace Node

mutual

/-- All tagged nodes of a tree, with their tags. -/
def labelled : Node → List (Tag × Node)
  | leaf _ => []
  | composite _ children => labelledOfChildren children
  | decorator _ child => labelledOfChild child
  | reference _ => []
  | embedded none root => labelled root
  | embedded (some tag) root => (tag, root) :: labelled root

/-- All tagged nodes below the children of a composite. -/
def labelledOfChildren : List Node → List (Tag × Node)
  | [] => []
  | child :: rest => labelled child ++ labelledOfChildren rest

/-- All tagged nodes below the child of a decorator. -/
def labelledOfChild : Option Node → List (Tag × Node)
  | none => []
  | some child => labelled child

end

mutual

/-- Puts a node in the place of the one with a tag. -/
def replace (tag : Tag) (new : Node) : Node → Node
  | leaf part => leaf part
  | composite part children => composite part (replaceChildren tag new children)
  | decorator part child => decorator part (replaceChild tag new child)
  | reference part => reference part
  | embedded none root => embedded none (replace tag new root)
  | embedded (some other) root =>
    if other = tag then embedded (some tag) new else embedded (some other) (replace tag new root)

/-- Puts a node in the place of the one with a tag, below the children of a composite. -/
def replaceChildren (tag : Tag) (new : Node) : List Node → List Node
  | [] => []
  | child :: rest => replace tag new child :: replaceChildren tag new rest

/-- Puts a node in the place of the one with a tag, below the child of a decorator. -/
def replaceChild (tag : Tag) (new : Node) : Option Node → Option Node
  | none => none
  | some child => some (replace tag new child)

end

end Node

namespace World

/-- All tagged nodes of a world. -/
def labelled (w : World) : List (Tag × Node) :=
  let shared := w.trees.entries.toList.filterMap fun tree => tree.map Tree.root
  (w.loose ++ shared).flatMap Node.labelled

/-- The later of two tagged nodes. -/
def later (a b : Tag × Node) : Tag × Node := if a.1.serial < b.1.serial then b else a

/-- The latest node of a label. -/
def find? (label : String) (w : World) : Option (Tag × Node) :=
  match w.labelled.filter fun entry => entry.1.label = label with
  | [] => none
  | first :: rest => some (rest.foldl later first)

/-- Puts a node in the place of the one with a tag, wherever that is. -/
def replace (tag : Tag) (new : Node) (w : World) : World :=
  { w with
    trees := { w.trees with
      entries := w.trees.entries.map fun tree =>
        tree.map fun tree => { tree with root := Node.replace tag new tree.root } }
    trees_blank := w.trees_blank
    loose := w.loose.map (Node.replace tag new) }

/-- The labels of a world, each once. -/
def labels (w : World) : List String := (w.labelled.map fun entry => entry.1.label).eraseDups

end World

end TickTree
