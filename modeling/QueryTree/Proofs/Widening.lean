import QueryTree.Proofs.Covering

/-!
# Templates with further parts

A dialect can replace a template by one with further optional parts.  As long as nothing is said of
what is new, the two templates render the same: a part that is not given leaves no trace, whichever
parts stand around it.

* `Template.restrict` leaves out the optional parts all of whose references are new.
* **`renderNodes_restrict`** : where no new reference is given, leaving these parts out changes
  nothing.
* **`Template.coveredBy_of_restrict`** : a template is covered by each template that it is a
  restriction of.
-/

namespace QueryTree

namespace Template

/-! ## Leaving parts out -/

mutual

/-- A part, unless it is optional and all of its references are dropped. -/
def restrictNode (keep : String → Bool) : Node → List Node
  | .word text spaced => [.word text spaced]
  | .required key spaced => [.required key spaced]
  | .inline key spaced => if keep key then [.inline key spaced] else []
  | .series key separator required spaced =>
    if required || keep key then [.series key separator required spaced] else []
  | .group children guard spaced =>
    if keep guard || (keysOf children).any keep then [.group (restrict keep children) guard spaced]
    else []
termination_by structural node => node

/-- Parts without those that are optional and all of whose references are dropped. -/
def restrict (keep : String → Bool) : List Node → List Node
  | [] => []
  | node :: rest => restrictNode keep node ++ restrict keep rest
termination_by structural nodes => nodes

end

theorem keysOf_append (before after : List Node) :
    keysOf (before ++ after) = keysOf before ++ keysOf after := by
  induction before with
  | nil => rw [List.nil_append, keysOf, List.nil_append]
  | cons node rest ih => rw [List.cons_append, keysOf, keysOf, ih, List.append_assoc]

theorem keysOf_singleton (node : Node) : keysOf [node] = node.keys := by
  rw [keysOf, keysOf, List.append_nil]

mutual

theorem keysOf_restrictNode_filter (keep : String → Bool) : (node : Node) →
    (keysOf (restrictNode keep node)).filter keep = node.keys.filter keep
  | .word text spaced => by rw [restrictNode, keysOf_singleton]
  | .required key spaced => by rw [restrictNode, keysOf_singleton]
  | .inline key spaced => by
    rw [restrictNode]
    split
    · rw [keysOf_singleton]
    · rename_i hkeep
      simp [Node.keys, keysOf, hkeep]
  | .series key separator required spaced => by
    rw [restrictNode]
    split
    · rw [keysOf_singleton]
    · rename_i hkeep
      simp only [Bool.or_eq_true, not_or] at hkeep
      simp [Node.keys, keysOf, hkeep.2]
  | .group children guard spaced => by
    rw [restrictNode]
    split
    · rw [keysOf_singleton, Node.keys, Node.keys, keysOf_restrict_filter keep children]
    · rename_i hkeep
      simp only [Bool.or_eq_true, not_or, List.any_eq_true, not_exists, not_and] at hkeep
      simp [Node.keys, keysOf, List.filter_eq_nil_iff.2 hkeep.2]
termination_by structural node => node

/-- The references that are kept stay, in their order. -/
theorem keysOf_restrict_filter (keep : String → Bool) : (nodes : List Node) →
    (keysOf (restrict keep nodes)).filter keep = (keysOf nodes).filter keep
  | [] => by rw [restrict]
  | node :: rest => by
    rw [restrict, keysOf_append, keysOf, List.filter_append, List.filter_append,
      keysOf_restrictNode_filter keep node, keysOf_restrict_filter keep rest]
termination_by structural nodes => nodes

end

/-! ## Rendering without them -/

section Rendering

variable {ctx other : Context} {name : String} {body : Fields} {column : Option String}
  {keep : String → Bool}

theorem renderNodes_append (before after : List Node) :
    renderNodes ctx name body column (before ++ after) = do
      let first ← renderNodes ctx name body column before
      let others ← renderNodes ctx name body column after
      return first ++ others := by
  induction before with
  | nil => simp [renderNodes]
  | cons node rest ih =>
    simp only [List.cons_append, renderNodes, ih, bind_assoc, pure_bind, List.append_assoc]

theorem renderNodes_singleton (node : Node) :
    renderNodes ctx name body column [node] = renderNode ctx name body column node := by
  simp [renderNodes]

/-- References that are not given pass the check of a group that is switched off. -/
theorem checkAbsent_filter (hnull : ∀ key, keep key = false → body.valueOf key = .null)
    (guard : String) (keys : List String) :
    checkAbsent body guard (keys.filter keep) = checkAbsent body guard keys := by
  induction keys with
  | nil => rfl
  | cons key rest ih =>
    cases hkeep : keep key with
    | true => rw [List.filter_cons_of_pos hkeep, checkAbsent, checkAbsent, ih]
    | false =>
      have habsent : (key != guard && (body.valueOf key).isPresent) = false := by
        rw [hnull key hkeep, Value.isPresent, Bool.and_false]
      rw [List.filter_cons_of_neg (by simp [hkeep]), ih, checkAbsent, if_neg (by simp [habsent])]

mutual

theorem renderNode_restrict (hnull : ∀ key, keep key = false → body.valueOf key = .null) :
    (node : Node) → renderNodes ctx name body column (restrictNode keep node) =
      renderNode (ctx.moved other) name body column node
  | .word text spaced => by
    rw [restrictNode, renderNodes_singleton, renderNode, renderNode]
  | .required key spaced => by
    rw [restrictNode, renderNodes_singleton, renderNode, renderNode, Context.moved_invoke]
  | .inline key spaced => by
    rw [restrictNode]
    split
    · rw [renderNodes_singleton, renderNode, renderNode, Context.moved_invoke]
    · rename_i hkeep
      rw [renderNodes, renderNode, hnull key (by simpa using hkeep), Value.isNull, if_pos rfl]
  | .series key separator required spaced => by
    rw [restrictNode]
    split
    · rw [renderNodes_singleton, renderNode, renderNode]
      simp only [Context.moved_invoke]
    · rename_i hkeep
      simp only [Bool.or_eq_true, not_or, Bool.not_eq_true] at hkeep
      rw [renderNodes, renderNode, hnull key hkeep.2, hkeep.1]
      rfl
  | .group children guard spaced => by
    rw [restrictNode]
    split
    · rw [renderNodes_singleton, renderNode, renderNode, renderNodes_restrict hnull children,
        ← checkAbsent_filter hnull, keysOf_restrict_filter, checkAbsent_filter hnull]
    · rename_i hkeep
      simp only [Bool.or_eq_true, not_or, List.any_eq_true, not_exists, not_and,
        Bool.not_eq_true] at hkeep
      have habsent : checkAbsent body guard (keysOf children) = pure () := by
        rw [← checkAbsent_filter hnull, List.filter_eq_nil_iff.2 (by simpa using hkeep.2)]
        rfl
      rw [renderNodes, renderNode, hnull guard hkeep.1, habsent]
      rfl
termination_by structural node => node

/-- Where nothing is said of what is left out, the parts render the same, also in another
dialect. -/
theorem renderNodes_restrict (hnull : ∀ key, keep key = false → body.valueOf key = .null) :
    (nodes : List Node) → renderNodes ctx name body column (restrict keep nodes) =
      renderNodes (ctx.moved other) name body column nodes
  | [] => by rw [restrict, renderNodes, renderNodes]
  | node :: rest => by
    rw [restrict, renderNodes_append, renderNodes, renderNode_restrict hnull node,
      renderNodes_restrict hnull rest]
termination_by structural nodes => nodes

end

end Rendering

/-! ## The operator of a template -/

/-- What passes the check of the keys are references of the template. -/
theorem mem_keys_of_checkKeys {t : Template} {dialect : String} {keys : List String}
    {token : Nat → String} {replies : ReplyRel} {n : Nat} {a : Unit} {vs : List Value}
    (h : (t.checkKeys dialect keys).Yields token replies n a vs) : ∀ key ∈ keys, key ∈ t.keys := by
  induction keys with
  | nil => simp
  | cons key rest ih =>
    rw [checkKeys] at h
    split at h
    · exact h.elim
    · split at h
      · exact h.elim
      · rename_i hkey
        exact List.forall_mem_cons.2 ⟨by simpa using hkey, ih h⟩

/-- A template with further references accepts the same keys. -/
theorem checkKeys_coveredBy {known : String → Prop} {t t' : Template}
    (hkeys : ∀ key ∈ t.keys, key ∈ t'.keys) (dialect dialect' : String) (keys : List String) :
    (t.checkKeys dialect keys).CoveredBy known (t'.checkKeys dialect' keys) := by
  induction keys with
  | nil => exact .refl _
  | cons key rest ih =>
    rw [checkKeys, checkKeys]
    split
    · exact .refuse _ _
    · split
      · exact .refuse _ _
      · rename_i hkey
        have hmem : key ∈ t.keys := by simpa using hkey
        rw [if_neg (by simpa using hkeys key hmem)]
        exact ih

end Template

/-- Defaults only change the keys that they are for. -/
theorem Fields.get?_withDefaults_of_not_mem {key : String} {defaults : Fields}
    (hkey : key ∉ defaults.keys) (fields : Fields) :
    (fields.withDefaults defaults).get? key = fields.get? key := by
  induction defaults generalizing fields with
  | nil => rw [withDefaults_nil]
  | cons entry rest ih =>
    obtain ⟨k, v⟩ := entry
    simp only [keys, List.map_cons, List.mem_cons, not_or] at hkey
    rw [withDefaults_cons, ih hkey.2]
    split
    · exact get?_set_of_ne hkey.1 fields v
    · rfl

/-- A template is covered by each template that it is a restriction of. -/
theorem Template.coveredBy_of_restrict {known : String → Prop} {t t' : Template}
    (hnodes : restrict t.keys.contains t'.nodes = t.nodes) (hname : t'.name = t.name)
    {defaults : Fields} (hdefaults : ∀ key ∈ Fields.keys defaults, key ∈ t.keys) :
    (t.handler defaults).CoveredBy known (t'.handler defaults) := by
  have hkeys : ∀ key ∈ t.keys, key ∈ t'.keys := by
    intro key hkey
    have hmem : key ∈ (keysOf t.nodes).filter t.keys.contains :=
      List.mem_filter.2 ⟨hkey, List.contains_iff_mem.2 hkey⟩
    rw [← hnodes, keysOf_restrict_filter] at hmem
    exact (List.mem_filter.1 hmem).1
  intro ctx other call _
  obtain ⟨operator, operand, node, column, combinator⟩ := call
  cases operand with
  | null | bool flag | int number | float number | str text | list items => exact .refuse _ _
  | object fields =>
    intro token replies n text vs hknown h
    obtain ⟨_, us, ws, hcheck, hrender, rfl⟩ := Rendering.yields_bind.1 h
    have hnull : ∀ key, t.keys.contains key = false →
        (Fields.withDefaults fields defaults).valueOf key = .null := by
      intro key hkey
      have hnot : key ∉ t.keys := by simpa using hkey
      have hget : Fields.get? fields key = none := by
        rw [← Option.not_isSome_iff_eq_none, Fields.get?_isSome_iff]
        exact fun hmem => hnot (mem_keys_of_checkKeys hcheck key hmem)
      rw [Fields.valueOf_eq, Fields.get?_withDefaults_of_not_mem fun hmem =>
        hnot (hdefaults key hmem), hget, Option.getD_none]
    have hcheck' := checkKeys_coveredBy hkeys ctx.dialect (ctx.moved other).dialect _ hknown hcheck
    refine Rendering.yields_bind.2 ⟨(), us, ws, hcheck', ?_, rfl⟩
    rw [render, hname, ← renderNodes_restrict hnull, hnodes]
    exact hrender

end QueryTree
