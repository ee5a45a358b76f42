import RuledMarkup.Proofs.Node.PreOrder

/-!
# Other styles for the same nodes

What styles a node has decides nothing but its looks.  A function on lists of styles carries each
node over to one of the same shape and with the same texts.

## Main definitions

* `Node.mapStyles`, `Forest.mapStyles` : a tree and a forest with other styles.

## Main results

* `Node.mapStyles_mapStyles`, `Node.mapStyles_id` : composition and identity.
* `Node.mapStyles_addChildren` : children that are added get their styles on their own.
* `Forest.preOrder_mapStyles` : the nodes of a forest, each with its other styles.
-/

namespace RuledMarkup

variable {R T U V : Type}

/-- The provider with other styles. -/
def StyleProvider.mapStyles (f : List T → List U) (provider : StyleProvider R T) :
    StyleProvider R U where
  styles ctx := f (provider.styles ctx)
  warnings := provider.warnings

/-- The kind with other styles. -/
def Kind.mapStyles (f : List T → List U) : Kind R T → Kind R U
  | .parent => .parent
  | .text content => .text content
  | .style styles => .style (f styles)
  | .styledText content provider => .styledText content (provider.mapStyles f)
  | .code language body styles => .code language body (styles.mapStyles f)
  | .inlineCode background => .inlineCode (background.mapStyles f)
  | .definition => .definition
  | .function => .function
  | .field => .field
  | .tag opening closing name attributes =>
    .tag opening closing (name.mapStyles f) (attributes.mapStyles f)
  | .listItem bullet => .listItem (bullet.mapStyles f)
  | .mention key resolve => .mention key resolve

theorem Kind.mapStyles_mapStyles (f : List T → List U) (g : List U → List V) (kind : Kind R T) :
    (kind.mapStyles f).mapStyles g = kind.mapStyles (g ∘ f) := by
  cases kind <;> rfl

@[simp] theorem Kind.mapStyles_id (kind : Kind R T) : kind.mapStyles id = kind := by
  cases kind <;> rfl

mutual

/-- The tree with other styles. -/
def Node.mapStyles (f : List T → List U) : Node R T → Node R U
  | .mk kind children => .mk (kind.mapStyles f) (Forest.mapStyles f children)

/-- The forest with other styles. -/
def Forest.mapStyles (f : List T → List U) : List (Node R T) → List (Node R U)
  | [] => []
  | node :: forest => node.mapStyles f :: Forest.mapStyles f forest

end

theorem Forest.mapStyles_eq_map (f : List T → List U) (forest : List (Node R T)) :
    mapStyles f forest = forest.map (Node.mapStyles f) := by
  induction forest with
  | nil => rfl
  | cons node forest ih => rw [mapStyles, ih, List.map_cons]

mutual

theorem Node.mapStyles_mapStyles (f : List T → List U) (g : List U → List V) (node : Node R T) :
    (node.mapStyles f).mapStyles g = node.mapStyles (g ∘ f) := by
  obtain ⟨kind, children⟩ := node
  rw [Node.mapStyles, Node.mapStyles, Node.mapStyles, kind.mapStyles_mapStyles,
    Forest.mapStyles_mapStyles f g children]

theorem Forest.mapStyles_mapStyles (f : List T → List U) (g : List U → List V)
    (forest : List (Node R T)) :
    Forest.mapStyles g (Forest.mapStyles f forest) = Forest.mapStyles (g ∘ f) forest := by
  cases forest with
  | nil => rfl
  | cons node forest =>
    rw [Forest.mapStyles, Forest.mapStyles, Forest.mapStyles, Node.mapStyles_mapStyles f g node,
      Forest.mapStyles_mapStyles f g forest]

end

mutual

@[simp] theorem Node.mapStyles_id (node : Node R T) : node.mapStyles id = node := by
  obtain ⟨kind, children⟩ := node
  rw [Node.mapStyles, kind.mapStyles_id, Forest.mapStyles_id children]

@[simp] theorem Forest.mapStyles_id (forest : List (Node R T)) :
    Forest.mapStyles id forest = forest := by
  cases forest with
  | nil => rfl
  | cons node forest => rw [Forest.mapStyles, Node.mapStyles_id node, Forest.mapStyles_id forest]

end

namespace Node

@[simp] theorem kind_mapStyles (f : List T → List U) (node : Node R T) :
    (node.mapStyles f).kind = node.kind.mapStyles f := by
  obtain ⟨kind, children⟩ := node
  rw [mapStyles, kind_mk, kind_mk]

@[simp] theorem children_mapStyles (f : List T → List U) (node : Node R T) :
    (node.mapStyles f).children = Forest.mapStyles f node.children := by
  obtain ⟨kind, children⟩ := node
  rw [mapStyles, children_mk, children_mk]

theorem mapStyles_addChildren (f : List T → List U) (node : Node R T) (more : List (Node R T)) :
    (node.addChildren more).mapStyles f =
      (node.mapStyles f).addChildren (Forest.mapStyles f more) := by
  rw [addChildren, addChildren, mapStyles, kind_mapStyles, children_mapStyles,
    Forest.mapStyles_eq_map, Forest.mapStyles_eq_map, Forest.mapStyles_eq_map, List.map_append]

end Node

/-- The nodes of a forest, each with its other styles. -/
theorem Forest.preOrder_mapStyles (f : List T → List U) (forest : List (Node R T)) :
    preOrder (mapStyles f forest) = (preOrder forest).map (Node.mapStyles f) := by
  induction forest using (measure size).wf.induction with
  | _ forest ih =>
    cases forest with
    | nil => simp [mapStyles]
    | cons node forest =>
      have hchildren : size node.children < size (node :: forest) := by
        rw [size_cons, node.size_eq]
        omega
      have hforest : size forest < size (node :: forest) := by
        have := node.size_pos
        rw [size_cons]
        omega
      rw [mapStyles, preOrder_cons, preOrder_cons, Node.children_mapStyles, ih _ hchildren,
        ih _ hforest, List.map_cons, List.map_append]

end RuledMarkup
