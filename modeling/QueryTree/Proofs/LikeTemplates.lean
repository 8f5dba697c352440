import QueryTree.Proofs.LikeOperators
import QueryTree.Template.Render

/-!
# Templates at operands that are alike

A template renders the references that are given.  Which ones are given does not depend on scalars
that are bound, if the guards of its groups are not such scalars; then it keeps in step at operands
that are alike.

* `Likeness.Fragments` is likeness for fragments, and `Fragments.join` puts them together.
* `Template.areSteady` says of the parts of a template that what switches them on does not vary.
* **`template_like`** : the operator of such a template keeps in step.
-/

namespace QueryTree

open Rendering (InStep)
open Likeness (Renders RendersAll)

/-! ## Fragments -/

namespace Likeness

/-- Fragments that are alike, one by one, with the same spaces. -/
inductive Fragments (L : Likeness) : Prop → Nat → List Fragment → List Fragment → Prop where
  | nil : Fragments L False 0 [] []
  | cons {e f : Prop} {k l : Nat} {t t' : String} {fs fs' : List Fragment} (first : L.rel e k t t')
      (spaced : Bool) (rest : Fragments L f l fs fs') :
      Fragments L (e ∨ f) (k + l) (⟨t, spaced⟩ :: fs) (⟨t', spaced⟩ :: fs')

namespace Fragments

variable {L : Likeness} {e f : Prop} {k l : Nat} {t t' : String} {fs fs' gs gs' : List Fragment}

theorem congr (h : L.Fragments e k fs fs') (he : e ↔ f) (hk : k = l) : L.Fragments f l fs fs' := by
  rwa [← propext he, ← hk]

/-- Fragments that are alike can be put together. -/
theorem append (h : L.Fragments e k fs fs') (h' : L.Fragments f l gs gs') :
    L.Fragments (e ∨ f) (k + l) (fs ++ gs) (fs' ++ gs') := by
  induction h with
  | nil => exact h'.congr (by simp) (by simp)
  | cons first spaced _ ih =>
    exact (Fragments.cons first spaced ih).congr or_assoc.symm (Nat.add_assoc ..).symm

/-- A text that is left out if it is empty. -/
theorem ofText (h : L.rel e k t t') (spaced : Bool) :
    L.Fragments e k (Fragment.ofText t spaced) (Fragment.ofText t' spaced) := by
  unfold Fragment.ofText
  rw [← L.isEmpty_eq h]
  split
  · rename_i hempty
    obtain ⟨hexposed, rfl⟩ := L.of_isEmpty h hempty
    exact Fragments.nil.congr (iff_of_false id hexposed) rfl
  · exact (Fragments.cons h spaced .nil).congr (by simp) (by simp)

theorem respace (h : L.Fragments e k fs fs') (spaced : Bool) :
    L.Fragments e k (respace spaced fs) (QueryTree.respace spaced fs') := by
  cases h with
  | nil => exact .nil
  | cons first _ rest => exact .cons first spaced rest

theorem tail (h : L.Fragments e k fs fs') : L.rel e k (fragmentTail fs) (fragmentTail fs') := by
  induction h with
  | nil => exact L.refl ""
  | cons first spaced _ ih =>
    unfold fragmentTail
    refine L.append ?_ ih
    split
    · exact L.before " " first
    · exact first

/-- Their texts are alike as a whole. -/
theorem join (h : L.Fragments e k fs fs') : L.rel e k (joinFragments fs) (joinFragments fs') := by
  cases h with
  | nil => exact L.refl ""
  | cons first _ rest => exact L.append first rest.tail

end Fragments

end Likeness

/-! ## References -/

namespace Template

mutual

/-- What switches a part on does not vary, and what it lists are definitions. -/
def Node.isSteady : Node → Bool
  | .word _ _ => true
  | .required _ _ => true
  | .inline _ _ => true
  | .series key _ _ _ => key == "$define"
  | .group children guard _ =>
    (guard :: keysOf children).all (fun key => !(Position.ofOperator key).isBound) &&
      areSteady children
termination_by structural node => node

/-- What switches the parts on does not vary. -/
def areSteady : List Node → Bool
  | [] => true
  | node :: rest => node.isSteady && areSteady rest
termination_by structural nodes => nodes

end

variable {L : Likeness} {vary : Value → Value → Prop} {ctx ctx' : Context} {body body' : Fields}

/-- A group that is switched off has none of its references, so none of them is exposed. -/
theorem checkAbsent_like (hbody : EntriesAlike vary .clauses body body') {guard : String}
    {keys : List String} (hkeys : ∀ key ∈ keys, (Position.ofOperator key).isBound = false) :
    InStep (L.pairing vary)
      (fun k _ _ => k = 0 ∧ ∀ key ∈ keys, key ≠ guard → (body.valueOf key).isPresent = false) 0
      (checkAbsent body guard keys) (checkAbsent body' guard keys) := by
  induction keys with
  | nil => exact .pure ⟨rfl, by simp⟩
  | cons key rest ih =>
    have hpresent := (hbody.valueOf key).isPresent_eq (hkeys key List.mem_cons_self)
    rw [checkAbsent, checkAbsent, ← hpresent]
    split
    · exact .refuse
    · rename_i habsent
      refine (ih fun key hkey => hkeys key (List.mem_cons_of_mem _ hkey)).mono
        fun _ _ _ ⟨hzero, hrest⟩ => ⟨hzero, List.forall_mem_cons.2 ⟨fun hguard => ?_, hrest⟩⟩
      simpa [hguard] using habsent

/-- The definitions of a table, one by one. -/
theorem seriesItems_like {v v' : Value} (hv : Alike vary .definitions v v') :
    List.Forall₂ (Alike vary .definitions) (seriesItems v) (seriesItems v') := by
  cases v with
  | object fields =>
    obtain ⟨fields', rfl, hfields⟩ := hv.object_inv
    simp only [seriesItems, List.forall₂_map_left_iff, List.forall₂_map_right_iff]
    refine hfields.forall₂.imp ?_
    rintro ⟨key, v⟩ ⟨key', v'⟩ ⟨rfl : key = key', hentry⟩
    exact .object (by decide) (.cons hentry .nil)
  | list items =>
    obtain ⟨items', rfl, hitems⟩ := hv.list_inv
    exact hitems.forall₂
  | null | bool flag | int number | float number | str text =>
    obtain rfl := hv.eq_of_scalar rfl rfl
    exact .cons (.same _ _) .nil

/-- A list is exposed through one of its items, and an object through one of its entries. -/
theorem exposed_seriesItems_iff (v : Value) :
    (∃ item ∈ seriesItems v, Exposed .definitions item) ↔ Exposed .definitions v := by
  cases v with
  | object fields =>
    rw [Exposed.entries_iff (by decide) rfl]
    simp only [mem_seriesItems_object, exists_exists_and_eq_and]
    refine exists_congr fun entry => and_congr_right fun _ => ?_
    rw [Exposed.entries_iff (by decide) rfl]
    simp
  | list items =>
    rw [Exposed.list_iff]
    rfl
  | null | bool flag | int number | float number | str text => simp [seriesItems]

/-- A reference at a value that is not `null`. -/
theorem reference_like (h : ctx.Like L ctx') (hbody : EntriesAlike vary .clauses body body')
    (key : String) (spaced : Bool) (column : Option String) :
    InStep (L.pairing vary)
      (L.Fragments (Combinator.Enters ctx.combinator ctx'.combinator ∧
        Exposed (.ofOperator key) (body.valueOf key))) 0
      (do
        let text ← ctx.invoke key (body.valueOf key) body column
        return Fragment.ofText text spaced)
      (do
        let text ← ctx'.invoke key (body'.valueOf key) body' column
        return Fragment.ofText text spaced) :=
  (h.invoke (hbody.valueOf key) hbody column).map fun _ _ _ ht => .ofText ht spaced

mutual

/-- A part of a template keeps in step, if it does not look at what may vary. -/
theorem renderNode_like (h : ctx.Like L ctx') (hbody : EntriesAlike vary .clauses body body')
    (name : String) (column : Option String) : (node : Node) → node.isSteady = true →
      InStep (L.pairing vary)
        (L.Fragments (∃ key ∈ node.keys, Combinator.Enters ctx.combinator ctx'.combinator ∧
          Exposed (.ofOperator key) (body.valueOf key))) 0
        (renderNode ctx name body column node) (renderNode ctx' name body' column node)
  | .word text spaced, _ => by
    rw [renderNode, renderNode]
    exact .pure
      ((Likeness.Fragments.cons (L.refl text) spaced .nil).congr (by simp [Node.keys]) rfl)
  | .required key spaced, _ => by
    rw [renderNode, renderNode, ← (hbody.valueOf key).isNull_eq]
    simp only [Node.keys, List.mem_singleton, exists_eq_left]
    split
    · exact .refuse
    · exact reference_like h hbody key spaced column
  | .inline key spaced, _ => by
    rw [renderNode, renderNode, ← (hbody.valueOf key).isNull_eq]
    simp only [Node.keys, List.mem_singleton, exists_eq_left]
    split
    · rename_i hnull
      exact .pure (Likeness.Fragments.nil.congr
        (iff_of_false id fun hexposed => Exposed.not_null hnull hexposed.2) rfl)
    · exact reference_like h hbody key spaced column
  | .series key separator required spaced, hsteady => by
    rw [Node.isSteady, beq_iff_eq] at hsteady
    subst hsteady
    have hvalue : Alike vary .definitions (body.valueOf "$define") (body'.valueOf "$define") :=
      hbody.valueOf "$define"
    rw [renderNode, renderNode, ← hvalue.isPresent_eq rfl]
    simp only [Node.keys, List.mem_singleton, exists_eq_left]
    split
    · have hparts := RendersAll.each ((seriesItems_like hvalue).imp fun item item' hitem =>
        h.invoke (p := .clauses) (show Alike vary (.ofOperator "$define") item item' from hitem)
          hbody column)
      refine hparts.map fun _ _ _ ht => .congr (.ofText (ht.dropEmpty.intercalate _) spaced) ?_ rfl
      rw [← Likeness.and_exists_mem]
      exact and_congr_right fun _ => exposed_seriesItems_iff _
    · rename_i habsent
      split
      · exact .refuse
      · exact .pure (Likeness.Fragments.nil.congr (iff_of_false id fun hexposed =>
          Exposed.not_absent (by simpa using habsent) hexposed.2) rfl)
  | .group children guard spaced, hsteady => by
    rw [Node.isSteady, Bool.and_eq_true, List.all_cons, Bool.and_eq_true] at hsteady
    obtain ⟨⟨hguard, hkeys⟩, hchildren⟩ := hsteady
    rw [Bool.not_eq_true'] at hguard
    rw [renderNode, renderNode, ← (hbody.valueOf guard).isPresent_eq hguard]
    split
    · exact (renderNodes_like h hbody name column children hchildren).map
        fun _ _ _ ht => ht.respace spaced
    · rename_i habsent
      refine (checkAbsent_like hbody (by simpa using hkeys)).map
        fun k _ _ ⟨hzero, hrest⟩ => hzero ▸ Likeness.Fragments.nil.congr (iff_of_false id ?_) rfl
      rintro ⟨key, hkey, -, hexposed⟩
      by_cases hsame : key = guard
      · exact Exposed.not_absent (by simpa [hsame] using habsent) hexposed
      · exact Exposed.not_absent (hrest key hkey hsame) hexposed
termination_by structural node => node

/-- The fragments of steady parts are alike. -/
theorem renderNodes_like (h : ctx.Like L ctx') (hbody : EntriesAlike vary .clauses body body')
    (name : String) (column : Option String) : (nodes : List Node) → areSteady nodes = true →
      InStep (L.pairing vary)
        (L.Fragments (∃ key ∈ keysOf nodes, Combinator.Enters ctx.combinator ctx'.combinator ∧
          Exposed (.ofOperator key) (body.valueOf key))) 0
        (renderNodes ctx name body column nodes) (renderNodes ctx' name body' column nodes)
  | [], _ => by
    rw [renderNodes, renderNodes]
    exact .pure (Likeness.Fragments.nil.congr (by simp [keysOf]) rfl)
  | node :: rest, hsteady => by
    rw [areSteady, Bool.and_eq_true] at hsteady
    rw [renderNodes, renderNodes]
    refine (renderNode_like h hbody name column node hsteady.1).map₂
      (renderNodes_like h hbody name column rest hsteady.2)
      fun _ _ _ _ _ _ hfirst hothers => (hfirst.append hothers).congr ?_ rfl
    simp only [keysOf, List.mem_append, or_and_right, exists_or]
termination_by structural nodes => nodes

end

/-! ## The operator of a template -/

/-- Both operands have the same keys, and all of them are references. -/
theorem checkKeys_like (t : Template) (dialect dialect' : String) (keys : List String) :
    InStep (L.pairing vary) (fun k _ _ => k = 0 ∧ ∀ key ∈ keys, key ∈ t.keys) 0
      (t.checkKeys dialect keys) (t.checkKeys dialect' keys) := by
  induction keys with
  | nil => exact .pure ⟨rfl, by simp⟩
  | cons key rest ih =>
    rw [checkKeys, checkKeys]
    split
    · exact .refuse
    · split
      · exact .refuse
      · rename_i hkey
        exact ih.mono fun _ _ _ ⟨hzero, hrest⟩ =>
          ⟨hzero, List.forall_mem_cons.2 ⟨by simpa using hkey, hrest⟩⟩

end Template

section Defaults

variable {vary : Value → Value → Prop} {p : Position} {fields fields' : Fields}

theorem EntriesAlike.set (h : EntriesAlike vary p fields fields') (key : String) (v : Value) :
    EntriesAlike vary p (fields.set key v) (fields'.set key v) := by
  induction fields generalizing fields' with
  | nil =>
    cases h
    exact .cons (.same _ v) .nil
  | cons entry rest ih =>
    cases h with
    | cons first rest =>
      rw [Fields.set, Fields.set]
      split
      · exact .cons (.same _ v) rest
      · exact .cons first (ih rest)

/-- Bodies that are alike take the same defaults. -/
theorem EntriesAlike.withDefaults (h : EntriesAlike vary p fields fields') (defaults : Fields) :
    EntriesAlike vary p (fields.withDefaults defaults) (fields'.withDefaults defaults) := by
  induction defaults generalizing fields fields' with
  | nil => exact h
  | cons entry rest ih =>
    obtain ⟨key, v⟩ := entry
    rw [Fields.withDefaults_cons, Fields.withDefaults_cons, ← (h.valueOf key).isNull_eq]
    refine ih ?_
    split
    · exact h.set key v
    · exact h

/-- Defaults that are scalars hold no expressions. -/
theorem Exposed.withDefaults_iff {defaults : Fields}
    (hdefaults : ∀ entry ∈ defaults, entry.2.isScalar = true) (fields : Fields) (key : String) :
    Exposed p ((fields.withDefaults defaults).valueOf key) ↔ Exposed p (fields.valueOf key) := by
  induction defaults generalizing fields with
  | nil => rw [Fields.withDefaults_nil]
  | cons entry rest ih =>
    obtain ⟨k, v⟩ := entry
    have hscalar : v.isScalar = true := hdefaults (k, v) List.mem_cons_self
    rw [Fields.withDefaults_cons, ih fun entry hentry => hdefaults entry (.tail _ hentry)]
    split
    · rename_i hnull
      by_cases hkey : key = k
      · subst hkey
        rw [Fields.valueOf_eq, Fields.get?_set_self]
        exact iff_of_false (not_scalar hscalar) (not_null hnull)
      · rw [Fields.valueOf_eq, Fields.get?_set_of_ne hkey, ← Fields.valueOf_eq]
    · rfl

end Defaults

/-- The operator of a template whose parts are steady. -/
theorem template_like {L : Likeness} {vary : Value → Value → Prop} {t : Template}
    (hsteady : Template.areSteady t.nodes = true) {defaults : Fields}
    (hdefaults : ∀ entry ∈ defaults, entry.2.isScalar = true) :
    (t.handler defaults).Like L vary .clauses := by
  rintro ctx ctx' ⟨name, operand, node, column, combinator⟩
    ⟨name', operand', node', column', combinator'⟩ h hoperand - hcolumn
  dsimp only at hoperand hcolumn ⊢
  subst hcolumn
  cases operand with
  | object fields =>
    obtain ⟨fields', rfl, hfields⟩ := hoperand.object_inv
    have hrender := Template.renderNodes_like h (hfields.withDefaults defaults) t.name column
      t.nodes hsteady
    unfold Template.handler
    dsimp only
    rw [← hfields.keys_eq]
    refine (Template.checkKeys_like t _ _ _).andThen fun k _ _ ⟨hzero, hkeys⟩ => ?_
    subst hzero
    refine hrender.map fun _ _ _ ht => L.congr ht.join ?_ rfl
    rw [← Likeness.and_exists_mem, Exposed.lookup_iff (by decide) rfl]
    refine and_congr_right fun _ => ⟨?_, ?_⟩
    · rintro ⟨key, -, hexposed⟩
      exact ⟨key, rfl, (Exposed.withDefaults_iff hdefaults fields key).1 hexposed⟩
    · rintro ⟨key, -, hexposed⟩
      exact ⟨key, hkeys key hexposed.mem_keys,
        (Exposed.withDefaults_iff hdefaults fields key).2 hexposed⟩
  | list items =>
    obtain ⟨items', rfl, -⟩ := hoperand.list_inv
    exact .refuse
  | null | bool flag | int number | float number | str text =>
    obtain rfl := hoperand.eq_of_scalar rfl rfl
    exact .refuse

end QueryTree
