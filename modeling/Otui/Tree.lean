/-!
# Labelled trees

A widget tree is a tree whose nodes carry a label and an ordered list of children. Everything that
walks a tree does so depth first, a node before its children, so the one view of a tree that the
rest of the library uses is `Tree.nodes`: all subtrees in that order.
-/

namespace Otui

/-- An ordered tree with a label on every node. -/
inductive Tree (β : Type) where
  /-- A node: its label, and its children in order. -/
  | node (label : β) (children : List (Tree β))

namespace Tree

variable {β γ : Type}

instance [Inhabited β] : Inhabited (Tree β) := ⟨.node default []⟩

/-- The label of the topmost node. -/
def label : Tree β → β
  | .node b _ => b

/-- The children of the topmost node, in order. -/
def children : Tree β → List (Tree β)
  | .node _ cs => cs

/-- The same tree with another label on top. -/
def withLabel (b : β) : Tree β → Tree β
  | .node _ cs => .node b cs

/-- The topmost node alone. -/
def pruned : Tree β → Tree β
  | .node b _ => .node b []

/-! ### Walking a tree -/

mutual

/-- All subtrees, depth first, a tree before its children's. -/
def nodes : Tree β → List (Tree β)
  | .node b cs => .node b cs :: forestNodes cs

/-- All subtrees of a list of trees, depth first. -/
def forestNodes : List (Tree β) → List (Tree β)
  | [] => []
  | t :: ts => nodes t ++ forestNodes ts

end

/-- All labels, depth first. -/
def labels (t : Tree β) : List β := t.nodes.map label

mutual

/-- Changes every label, keeping the shape. -/
def map (f : β → γ) : Tree β → Tree γ
  | .node b cs => .node (f b) (forestMap f cs)

/-- Changes every label of a list of trees, keeping their shapes. -/
def forestMap (f : β → γ) : List (Tree β) → List (Tree γ)
  | [] => []
  | t :: ts => map f t :: forestMap f ts

end

mutual

/-- Threads a state through the labels depth first, changing each on the way. -/
def mapState {σ : Type} (f : β → σ → γ × σ) : Tree β → σ → Tree γ × σ
  | .node b cs, s =>
    let (c, s) := f b s
    let (ds, s) := forestMapState f cs s
    (.node c ds, s)

/-- Threads a state through the labels of a list of trees, depth first. -/
def forestMapState {σ : Type} (f : β → σ → γ × σ) : List (Tree β) → σ → List (Tree γ) × σ
  | [], s => ([], s)
  | t :: ts, s =>
    let (u, s) := mapState f t s
    let (us, s) := forestMapState f ts s
    (u :: us, s)

end

/-! ### Changing the first node of a kind -/

mutual

/-- Rewrites the first subtree, depth first, that satisfies `p`; `none` when there is none. -/
def updateFirst? (p : Tree β → Bool) (f : Tree β → Tree β) : Tree β → Option (Tree β)
  | .node b cs =>
    if p (.node b cs) then some (f (.node b cs))
    else (forestUpdateFirst? p f cs).map (.node b)

/-- Rewrites the first subtree of a list of trees that satisfies `p`. -/
def forestUpdateFirst? (p : Tree β → Bool) (f : Tree β → Tree β) :
    List (Tree β) → Option (List (Tree β))
  | [] => none
  | t :: ts =>
    match updateFirst? p f t with
    | some u => some (u :: ts)
    | none => (forestUpdateFirst? p f ts).map (t :: ·)

end

/-! ### The view -/

@[simp] theorem label_node (b : β) (cs : List (Tree β)) : (Tree.node b cs).label = b := rfl

@[simp] theorem children_node (b : β) (cs : List (Tree β)) : (Tree.node b cs).children = cs := rfl

@[simp] theorem node_label_children (t : Tree β) : Tree.node t.label t.children = t := by
  cases t; rfl

theorem nodes_eq (t : Tree β) : t.nodes = t :: forestNodes t.children := by
  cases t; simp [nodes]

theorem forestNodes_append (ts us : List (Tree β)) :
    forestNodes (ts ++ us) = forestNodes ts ++ forestNodes us := by
  induction ts with
  | nil => rfl
  | cons t ts ih => simp [forestNodes, ih]

theorem forestMap_eq_map (f : β → γ) (ts : List (Tree β)) : forestMap f ts = ts.map (map f) := by
  induction ts with
  | nil => rfl
  | cons t ts ih => simp [forestMap, ih]

end Tree

end Otui
