import QueryTree.Template.Grammar
import QueryTree.Template.Render

/-!
# Spaces that no rendering shows

The space before the first part of a template is never seen, and the space before the first part of
a group gives way to the one before the group.  A part that renders to nothing takes its space with
it, so this is true of the first part in the grammar and not only of the first one that is rendered.

* `Node.settle` and `settle` take these idle spaces away, in groups at any depth.
* `keysOf_settleFrom` and `firstKey?_settleFrom` : the references stay, in their order.
* **`render_settle`** : without its idle spaces a template is rendered by the same program.
-/

namespace QueryTree.Template

/-- The part, with the space before it only if `keep` is set. -/
def Node.spacedIf (keep : Bool) : Node → Node
  | .word text spaced => .word text (spaced && keep)
  | .required key spaced => .required key (spaced && keep)
  | .inline key spaced => .inline key (spaced && keep)
  | .series key separator needed spaced => .series key separator needed (spaced && keep)
  | .group children guard spaced => .group children guard (spaced && keep)

mutual

/-- The part without the idle spaces inside it. -/
def Node.settle : Node → Node
  | .word text spaced => .word text spaced
  | .required key spaced => .required key spaced
  | .inline key spaced => .inline key spaced
  | .series key separator needed spaced => .series key separator needed spaced
  | .group children guard spaced => .group (settleFrom false children) guard spaced
termination_by structural node => node

/-- The parts without the idle spaces inside them; `keep` tells whether the space before the first
one counts. -/
def settleFrom (keep : Bool) : List Node → List Node
  | [] => []
  | node :: rest => node.settle.spacedIf keep :: settleFrom true rest
termination_by structural nodes => nodes

end

/-- The parts of a template or of a group without their idle spaces. -/
abbrev settle (nodes : List Node) : List Node :=
  settleFrom false nodes

/-! ## Parts -/

namespace Node

@[simp] theorem spacedIf_true (node : Node) : node.spacedIf true = node := by
  cases node <;> simp [spacedIf]

/-- A space is kept if it is kept twice. -/
@[simp] theorem spacedIf_spacedIf (keep keep' : Bool) (node : Node) :
    (node.spacedIf keep).spacedIf keep' = node.spacedIf (keep && keep') := by
  cases node <;> simp [spacedIf, Bool.and_assoc]

/-- The space before a part has nothing to do with those inside it. -/
@[simp] theorem settle_spacedIf (keep : Bool) (node : Node) :
    (node.spacedIf keep).settle = node.settle.spacedIf keep := by
  cases node <;> simp [spacedIf, settle]

@[simp] theorem keys_spacedIf (keep : Bool) (node : Node) :
    (node.spacedIf keep).keys = node.keys := by
  cases node <;> simp [spacedIf, keys]

end Node

theorem isEmpty_settleFrom (keep : Bool) (nodes : List Node) :
    (settleFrom keep nodes).isEmpty = nodes.isEmpty := by
  cases nodes with
  | nil => rfl
  | cons node rest => rw [settleFrom]; rfl

/-- One more part at the end keeps its space if it is not the first one. -/
theorem settleFrom_concat (keep : Bool) (nodes : List Node) (node : Node) :
    settleFrom keep (nodes ++ [node]) =
      settleFrom keep nodes ++ [node.settle.spacedIf (keep || !nodes.isEmpty)] := by
  induction nodes generalizing keep with
  | nil => simp [settleFrom]
  | cons first rest ih => simp [settleFrom, ih]

mutual

/-- Nothing is left to be taken away. -/
theorem Node.settle_settle : ∀ node : Node, node.settle.settle = node.settle
  | .word _ _ => rfl
  | .required _ _ => rfl
  | .inline _ _ => rfl
  | .series _ _ _ _ => rfl
  | .group children guard spaced => by
    rw [Node.settle, Node.settle, settleFrom_settleFrom]

/-- The same of several parts. -/
theorem settleFrom_settleFrom (keep : Bool) : ∀ nodes : List Node,
    settleFrom keep (settleFrom keep nodes) = settleFrom keep nodes
  | [] => rfl
  | node :: rest => by
    rw [settleFrom, settleFrom, Node.settle_spacedIf, Node.settle_settle, Node.spacedIf_spacedIf,
      Bool.and_self, settleFrom_settleFrom]

end

/-! ## References -/

mutual

theorem Node.keys_settle : ∀ node : Node, node.settle.keys = node.keys
  | .word _ _ => rfl
  | .required _ _ => rfl
  | .inline _ _ => rfl
  | .series _ _ _ _ => rfl
  | .group children guard spaced => by
    rw [Node.settle, Node.keys, Node.keys, keysOf_settleFrom]

/-- The references of several parts stay, in their order. -/
theorem keysOf_settleFrom (keep : Bool) : ∀ nodes : List Node,
    keysOf (settleFrom keep nodes) = keysOf nodes
  | [] => rfl
  | node :: rest => by
    rw [settleFrom, keysOf, keysOf, Node.keys_spacedIf, Node.keys_settle, keysOf_settleFrom]

end

/-- So a group keeps the guard that it takes from its first reference. -/
theorem firstKey?_settleFrom (keep : Bool) (nodes : List Node) :
    firstKey? (settleFrom keep nodes) = firstKey? nodes := by
  induction nodes generalizing keep with
  | nil => rfl
  | cons node rest ih =>
    cases node with
    | word text spaced => simpa [settleFrom, Node.settle, Node.spacedIf, firstKey?] using ih true
    | required key spaced | inline key spaced | series key separator needed spaced
      | group children guard spaced =>
      simp [settleFrom, Node.settle, Node.spacedIf, firstKey?]

/-! ## Rendering -/

/-- Only the last change of the first space counts. -/
theorem respace_respace (spaced spaced' : Bool) (fragments : List Fragment) :
    respace spaced (respace spaced' fragments) = respace spaced fragments := by
  cases fragments <;> rfl

/-- Only the first of the fragments that are there loses its own space. -/
theorem respace_append (spaced spaced' : Bool) (first others : List Fragment) :
    respace spaced (respace spaced' first ++ others) = respace spaced (first ++ others) := by
  cases first <;> rfl

/-- A text is one fragment or none, and its space is the first. -/
theorem respace_ofText (spaced spaced' : Bool) (text : String) :
    respace spaced (Fragment.ofText text spaced') = Fragment.ofText text spaced := by
  unfold Fragment.ofText
  split <;> rfl

/-- The space before the first fragment is not written. -/
theorem joinFragments_respace (spaced : Bool) (fragments : List Fragment) :
    joinFragments (respace spaced fragments) = joinFragments fragments := by
  cases fragments <;> rfl

section Render

variable (ctx : Context) (name : String) (body : Fields) (column : Option String)

/-- The space before a part is the space before the first of its fragments. -/
theorem respace_renderNode_spacedIf (spaced keep : Bool) (node : Node) :
    respace spaced <$> renderNode ctx name body column (node.spacedIf keep) =
      respace spaced <$> renderNode ctx name body column node := by
  cases node with
  | word text spaced' => rfl
  | required key spaced' =>
    simp only [Node.spacedIf, renderNode]
    split
    · rfl
    · simp only [map_bind, map_pure, respace_ofText]
  | inline key spaced' =>
    simp only [Node.spacedIf, renderNode]
    split
    · rfl
    · simp only [map_bind, map_pure, respace_ofText]
  | series key separator needed spaced' =>
    simp only [Node.spacedIf, renderNode]
    split
    · simp only [map_bind, map_pure, respace_ofText]
    · rfl
  | group children guard spaced' =>
    simp only [Node.spacedIf, renderNode]
    split
    · simp only [map_bind, map_pure, respace_respace]
    · rfl

/-- So is the space before the first of several parts, even if that one renders to nothing. -/
theorem respace_renderNodes_cons (spaced keep : Bool) (node : Node) (rest : List Node) :
    respace spaced <$> renderNodes ctx name body column (node.spacedIf keep :: rest) =
      respace spaced <$> renderNodes ctx name body column (node :: rest) := by
  -- put the space of the first part aside, then exchange that part
  have haside : ∀ node : Node,
      respace spaced <$> renderNodes ctx name body column (node :: rest) = do
        let first ← respace spaced <$> renderNode ctx name body column node
        let others ← renderNodes ctx name body column rest
        return respace spaced (first ++ others) := by
    intro node
    simp only [renderNodes, map_bind, map_pure, bind_map_left, respace_append]
  rw [haside, haside, respace_renderNode_spacedIf]

mutual

/-- A part renders in the same way, since a group gives its first fragment its own space. -/
theorem renderNode_settle : ∀ node : Node,
    renderNode ctx name body column node.settle = renderNode ctx name body column node
  | .word _ _ => rfl
  | .required _ _ => rfl
  | .inline _ _ => rfl
  | .series _ _ _ _ => rfl
  | .group children guard spaced => by
    have hinner := respace_renderNodes_settle spaced children
    rw [Node.settle, renderNode, renderNode, keysOf_settleFrom]
    split
    · rwa [map_eq_pure_bind, map_eq_pure_bind] at hinner
    · rfl

theorem renderNodes_settleFrom : ∀ nodes : List Node,
    renderNodes ctx name body column (settleFrom true nodes) =
      renderNodes ctx name body column nodes
  | [] => rfl
  | node :: rest => by
    rw [settleFrom, Node.spacedIf_true, renderNodes, renderNodes, renderNode_settle,
      renderNodes_settleFrom]

/-- Several parts render in the same way up to the space before the first fragment. -/
theorem respace_renderNodes_settle (spaced : Bool) : ∀ nodes : List Node,
    respace spaced <$> renderNodes ctx name body column (settle nodes) =
      respace spaced <$> renderNodes ctx name body column nodes
  | [] => rfl
  | node :: rest => by
    rw [settle, settleFrom, respace_renderNodes_cons, renderNodes, renderNodes, renderNode_settle,
      renderNodes_settleFrom]

end

end Render

/-- **Without its idle spaces a template is rendered by the same program.** -/
theorem render_settle (t : Template) (ctx : Context) (body : Fields) (column : Option String) :
    ({ t with nodes := settle t.nodes } : Template).render ctx body column =
      t.render ctx body column := by
  have hjoin : ∀ nodes : List Node,
      (do let fragments ← renderNodes ctx t.name body column nodes
          return joinFragments fragments) =
        joinFragments <$> respace false <$> renderNodes ctx t.name body column nodes := by
    intro nodes
    simp only [map_eq_pure_bind, bind_assoc, pure_bind, joinFragments_respace]
  rw [render, render, hjoin, hjoin, respace_renderNodes_settle]

end QueryTree.Template
