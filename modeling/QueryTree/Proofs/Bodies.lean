import QueryTree.Proofs.Desugaring
import QueryTree.Proofs.Invocations
import QueryTree.Proofs.Widening

/-!
# What a template reads of its body

A template looks its references up in its body and takes them in the order of its grammar.  Nothing
else of the body counts, neither the order of its keys nor a key that is `null`.  Operators that are
given the whole body look keys up too, and only to see whether they are `null`.

* `Dialect.invocation` : an operator at an operand, after some bound values.
* `watchedKeys` are the keys that an operator looks up next to itself, and
  `Dialect.respond_node_congr` says that it looks for `null` alone.
* `Template.Agree` : what has to agree in two bodies for a template to be rendered alike, and
  **`Template.same_renderNodes`** that it is.
* `Template.Rearranges` : the keys of a body in another order, with or without some that are `null`.
* **`Dialect.rearranges_sameOutcome`** : rearranging a body changes neither text nor values.
-/

namespace QueryTree

open Rendering (Compile)

namespace Fields

/-- A key that was set has its value. -/
theorem valueOf_set_self (fields : Fields) (key : String) (v : Value) :
    (fields.set key v).valueOf key = v := by
  rw [valueOf_eq, get?_set_self, Option.getD_some]

theorem valueOf_set_of_ne {other key : String} (h : other ≠ key) (fields : Fields) (v : Value) :
    (fields.set key v).valueOf other = fields.valueOf other := by
  rw [valueOf_eq, get?_set_of_ne h, valueOf_eq]

/-- What a key has with defaults depends on what it has without them, and on nothing else. -/
theorem valueOf_withDefaults_congr {fields fields' : Fields} {key : String}
    (h : fields.valueOf key = fields'.valueOf key) (defaults : Fields) :
    (fields.withDefaults defaults).valueOf key = (fields'.withDefaults defaults).valueOf key := by
  induction defaults generalizing fields fields' with
  | nil => exact h
  | cons entry rest ih =>
    obtain ⟨other, v⟩ := entry
    rw [withDefaults_cons, withDefaults_cons]
    refine ih ?_
    by_cases hkey : key = other
    · subst hkey
      rw [h]
      split
      · rw [valueOf_set_self, valueOf_set_self]
      · exact h
    · have hsame : ∀ fields : Fields,
          (if (fields.valueOf other).isNull then fields.set other v else fields).valueOf key =
            fields.valueOf key := by
        intro fields
        split
        · exact valueOf_set_of_ne hkey fields v
        · rfl
      rw [hsame, hsame, h]

/-- Where keys do not repeat, their values do not depend on the order. -/
theorem get?_perm {fields fields' : Fields} (h : fields.Perm fields') (hkeys : fields.keys.Nodup)
    (key : String) : fields.get? key = fields'.get? key := by
  induction h with
  | nil => rfl
  | cons entry _ ih =>
    rw [get?_cons, get?_cons, ih (List.nodup_cons.1 hkeys).2]
  | swap first second rest =>
    obtain ⟨k, v⟩ := first
    obtain ⟨k', v'⟩ := second
    have hne : k' ≠ k := by
      rintro rfl
      exact (List.nodup_cons.1 hkeys).1 List.mem_cons_self
    simp only [get?_cons]
    by_cases hkey : key = k
    · rw [if_pos hkey, if_neg fun heq => hne (heq.symm.trans hkey), if_pos hkey]
    · rw [if_neg hkey, if_neg hkey]
  | trans h₁ _ ih₁ ih₂ =>
    exact (ih₁ hkeys).trans (ih₂ ((h₁.map Prod.fst).nodup_iff.1 hkeys))

/-- An entry of `null` is the same as none. -/
theorem valueOf_append_null (fields : Fields) (other key : String) :
    valueOf (fields ++ [(other, .null)]) key = fields.valueOf key := by
  induction fields with
  | nil =>
    rw [List.nil_append, valueOf_eq, get?_cons, get?_nil, valueOf_eq, get?_nil]
    split <;> rfl
  | cons entry rest ih =>
    rw [List.cons_append, valueOf_eq, valueOf_eq, get?_cons, get?_cons]
    split
    · rfl
    · exact ih

end Fields

/-! ## Operators that look at the entries next to them -/

/-- The keys that an operator looks up in the object that holds it. -/
def watchedKeys (operator : String) : List String :=
  if operator = "$from" ∨ operator = "$table" then ["$from", "$table"]
  else if operator = "$offset" then ["$limit"]
  else []

namespace Dialect

variable {d : Dialect}

/-- An operator only asks which of the keys that it watches are `null`. -/
theorem respond_node_congr (hd : d ∈ library) {operator : String} {node node' : Fields}
    (h : ∀ key ∈ watchedKeys operator, (node.valueOf key).isNull = (node'.valueOf key).isNull)
    (operand : Value) (column : Option String) (combinator : Option Combinator) :
    d.respond ⟨operator, operand, node, column, combinator⟩ =
      d.respond ⟨operator, operand, node', column, combinator⟩ := by
  by_cases hreader : operator ∈ nodeReaders
  · rw [respond_eq hd, respond_eq hd]
    simp only [nodeReaders, List.mem_cons, List.not_mem_nil, or_false] at hreader
    rcases hreader with rfl | rfl | rfl
    · have hfind : d.registry.find? "$from" = some Operator.tables := find?_of_ansi hd rfl rfl rfl
      simp only [hfind, Operator.tables, h "$from" (by simp [watchedKeys]),
        h "$table" (by simp [watchedKeys])]
    · have hfind : d.registry.find? "$table" = some Operator.tables := find?_of_ansi hd rfl rfl rfl
      simp only [hfind, Operator.tables, h "$from" (by simp [watchedKeys]),
        h "$table" (by simp [watchedKeys])]
    · have hfind : d.registry.find? "$offset" = some Operator.offset := find?_of_ansi hd rfl rfl rfl
      simp only [hfind, Operator.offset, h "$limit" (by simp [watchedKeys])]
  · exact @respond_node d hd ⟨operator, operand, node', column, combinator⟩ hreader node

end Dialect

/-! ## Parts of a template -/

namespace Template

mutual

/-- The keys that a part looks up: its references and the guards of its groups. -/
def Node.lookups : Node → List String
  | .word _ _ => []
  | .required key _ => [key]
  | .inline key _ => [key]
  | .series key _ _ _ => [key]
  | .group children guard _ => guard :: lookupsOf children
termination_by structural node => node

/-- The keys that a list of parts looks up. -/
def lookupsOf : List Node → List String
  | [] => []
  | node :: rest => node.lookups ++ lookupsOf rest
termination_by structural nodes => nodes

end

mutual

theorem Node.keys_subset_lookups : (node : Node) → node.keys ⊆ node.lookups
  | .word _ _ | .required _ _ | .inline _ _ | .series _ _ _ _ => by simp [Node.keys, Node.lookups]
  | .group children guard _ => by
    rw [Node.keys, Node.lookups]
    exact List.subset_cons_of_subset _ (keysOf_subset_lookupsOf children)
termination_by structural node => node

/-- The references of parts are among the keys that they look up. -/
theorem keysOf_subset_lookupsOf : (nodes : List Node) → keysOf nodes ⊆ lookupsOf nodes
  | [] => by simp [keysOf]
  | node :: rest => by
    rw [keysOf, lookupsOf]
    exact List.append_subset.2
      ⟨List.subset_append_of_subset_left _ (Node.keys_subset_lookups node),
        List.subset_append_of_subset_right _ (keysOf_subset_lookupsOf rest)⟩
termination_by structural nodes => nodes

end

/-- The groups around a reference are switched on. -/
def Reference.isOn (body : Fields) (r : Reference) : Bool :=
  r.guards.all fun guard => (body.valueOf guard).isPresent

/-- Two bodies that render alike where the references stand, each with a column: the same ones of
the keys are present, references that are looked at have the same value, and those that are reached
are answered alike. -/
structure Agree (d : Dialect) (ctx : Context) (column column' : Option String)
    (body body' : Fields) (keys : List String) (references : List Reference) : Prop where
  present : ∀ key ∈ keys, (body.valueOf key).isPresent = (body'.valueOf key).isPresent
  value : ∀ r ∈ references, r.isOn body = true → body.valueOf r.key = body'.valueOf r.key
  call : ∀ r ∈ references, r.isReached body = true → ∀ operand,
    d.Same (ctx.invoke r.key operand body column) (ctx.invoke r.key operand body' column')

namespace Agree

variable {d : Dialect} {ctx : Context} {column column' : Option String} {body body' : Fields}
  {keys keys' : List String} {references references' : List Reference}

/-- Bodies that agree on much agree on less. -/
theorem mono (h : Agree d ctx column column' body body' keys references) (hkeys : keys' ⊆ keys)
    (hreferences : references' ⊆ references) :
    Agree d ctx column column' body body' keys' references' where
  present key hkey := h.present key (hkeys hkey)
  value r hr := h.value r (hreferences hr)
  call r hr := h.call r (hreferences hr)

/-- A reference to one value, rendered as a whole if it is not `null`. -/
theorem same_single {guards : List String} {key : String}
    (h : Agree d ctx column column' body body' keys [⟨key, false, guards⟩])
    (hon : guards.all (fun guard => (body.valueOf guard).isPresent) = true) (spaced : Bool)
    (missing : Rendering (List Fragment)) :
    d.Same
      (if (body.valueOf key).isNull then missing
        else do
          let text ← ctx.invoke key (body.valueOf key) body column
          return Fragment.ofText text spaced)
      (if (body'.valueOf key).isNull then missing
        else do
          let text ← ctx.invoke key (body'.valueOf key) body' column'
          return Fragment.ofText text spaced) := by
  rw [← h.value _ (List.mem_singleton_self _) hon]
  split
  · exact Dialect.Same.refl _
  · rename_i hnull
    refine (h.call ⟨key, false, guards⟩ (List.mem_singleton_self _) ?_ _).bind
      fun text => Dialect.Same.refl _
    simpa [Reference.isReached, hon] using hnull

end Agree

/-- A group that is switched off only asks what is present. -/
theorem checkAbsent_congr {body body' : Fields} (guard : String) {keys : List String}
    (h : ∀ key ∈ keys, (body.valueOf key).isPresent = (body'.valueOf key).isPresent) :
    checkAbsent body guard keys = checkAbsent body' guard keys := by
  induction keys with
  | nil => rfl
  | cons key rest ih =>
    obtain ⟨hkey, hrest⟩ := List.forall_mem_cons.1 h
    rw [checkAbsent, checkAbsent, hkey, ih hrest]

section

variable {d : Dialect} {ctx : Context} {name : String} {column column' : Option String}
  {body body' : Fields}

mutual

/-- A part is rendered in the same way against bodies that agree on what it looks up. -/
theorem same_renderNode {guards : List String}
    (hon : guards.all (fun guard => (body.valueOf guard).isPresent) = true) : (node : Node) →
    Agree d ctx column column' body body' node.lookups (node.references guards) →
    d.Same (renderNode ctx name body column node) (renderNode ctx name body' column' node)
  | .word text spaced => by
    intro _
    rw [renderNode, renderNode]
    exact Dialect.Same.refl _
  | .required key spaced => by
    intro h
    rw [Node.references] at h
    rw [renderNode, renderNode]
    exact h.same_single hon spaced _
  | .inline key spaced => by
    intro h
    rw [Node.references] at h
    rw [renderNode, renderNode]
    exact h.same_single hon spaced _
  | .series key separator required spaced => by
    intro h
    rw [Node.references] at h
    have hvalue := h.value _ (List.mem_singleton_self _) hon
    rw [renderNode, renderNode]
    simp only [← hvalue]
    split
    · rename_i hpresent
      refine Dialect.Same.bind (Dialect.Same.each fun item _ => ?_) fun parts =>
        Dialect.Same.refl _
      refine h.call ⟨key, true, guards⟩ (List.mem_singleton_self _) ?_ item
      simpa [Reference.isReached, hon] using hpresent
    · exact Dialect.Same.refl _
  | .group children guard spaced => by
    intro h
    rw [Node.references, Node.lookups] at h
    have habsent := checkAbsent_congr guard fun key hkey =>
      h.present key (List.mem_cons_of_mem _ (keysOf_subset_lookupsOf children hkey))
    rw [renderNode, renderNode, ← h.present guard List.mem_cons_self, ← habsent]
    split
    · rename_i hguard
      have hinner :
          (guards ++ [guard]).all (fun guard => (body.valueOf guard).isPresent) = true := by
        simp [hguard, List.all_append, hon]
      have hchildren := h.mono (List.subset_cons_self _ _) (List.Subset.refl _)
      exact (same_renderNodes hinner children hchildren).bind fun inner => Dialect.Same.refl _
    · exact Dialect.Same.refl _
termination_by structural node => node

/-- Parts of a template are rendered alike at bodies that agree where their references stand. -/
theorem same_renderNodes {guards : List String}
    (hon : guards.all (fun guard => (body.valueOf guard).isPresent) = true) :
    (nodes : List Node) →
    Agree d ctx column column' body body' (lookupsOf nodes) (referencesOf guards nodes) →
    d.Same (renderNodes ctx name body column nodes) (renderNodes ctx name body' column' nodes)
  | [] => by
    intro _
    rw [renderNodes, renderNodes]
    exact Dialect.Same.refl _
  | node :: rest => by
    intro h
    rw [referencesOf, lookupsOf] at h
    rw [renderNodes, renderNodes]
    have hnode := same_renderNode hon node
      (h.mono (List.subset_append_left _ _) (List.subset_append_left _ _))
    have hrest := same_renderNodes hon rest
      (h.mono (List.subset_append_right _ _) (List.subset_append_right _ _))
    exact hnode.bind fun first => hrest.bind fun others => Dialect.Same.refl _
termination_by structural nodes => nodes

end

/-- A template is rendered alike at bodies that agree where its references stand. -/
theorem same_render {t : Template}
    (h : Agree d ctx column column' body body' (lookupsOf t.nodes) t.references) :
    d.Same (t.render ctx body column) (t.render ctx body' column') := by
  have hon : List.all [] (fun guard => (body.valueOf guard).isPresent) = true := rfl
  exact (same_renderNodes hon t.nodes h).bind fun _ => Dialect.Same.refl _

end

/-! ## Operators with a template -/

/-- Every key of the body is a reference of the template. -/
def Admits (t : Template) (body : Fields) : Prop :=
  ∀ key ∈ body.keys, isOperatorKey key = true ∧ key ∈ t.keys

theorem checkKeys_of_admitted {t : Template} {keys : List String}
    (h : ∀ key ∈ keys, isOperatorKey key = true ∧ key ∈ t.keys) (dialect : String) :
    t.checkKeys dialect keys = pure () := by
  induction keys with
  | nil => rfl
  | cons key rest ih =>
    obtain ⟨hoperator, hkey⟩ := h key List.mem_cons_self
    rw [checkKeys, hoperator, List.contains_iff_mem.2 hkey]
    exact ih fun other hother => h other (List.mem_cons_of_mem _ hother)

/-- A key that does not belong to the template is refused before anything is rendered. -/
theorem checkKeys_of_not_admitted {t : Template} {keys : List String}
    (h : ¬ ∀ key ∈ keys, isOperatorKey key = true ∧ key ∈ t.keys) (dialect : String) :
    ∃ fault, t.checkKeys dialect keys = .refuse fault := by
  induction keys with
  | nil => exact absurd (by simp) h
  | cons key rest ih =>
    rw [checkKeys]
    split
    · exact ⟨_, rfl⟩
    · rename_i hoperator
      split
      · exact ⟨_, rfl⟩
      · rename_i hkey
        refine ih fun hrest => h (List.forall_mem_cons.2 ⟨⟨?_, ?_⟩, hrest⟩)
        · simpa using hoperator
        · simpa using hkey

end Template

/-- The templates of the three dialects, with their defaults. -/
def templatedOperators : List (Template × Fields) :=
  Ansi.templated ++
    [(Mysql.selectTemplate, Ansi.selectDefaults), (Mysql.columnTemplate, []),
      (Postgres.createTableTemplate, []), (Postgres.columnTemplate, []),
      (Postgres.storageTemplate, [])]

/-- The references of a template are written as operators. -/
theorem isOperatorKey_of_mem_templated {entry : Template × Fields}
    (h : entry ∈ templatedOperators) : ∀ key ∈ entry.1.keys, isOperatorKey key = true := by
  revert entry
  decide

namespace Dialect

variable {d : Dialect}

/-- The templates of a dialect and the operators that render them. -/
theorem templated_of_mem (hd : d ∈ library) :
    ∀ entry ∈ d.templates, ∃ defaults, (entry.2, defaults) ∈ templatedOperators ∧
      d.registry.find? entry.1 = some (entry.2.handler defaults) := by
  simp only [library, List.mem_cons, List.not_mem_nil, or_false] at hd
  rcases hd with rfl | rfl | rfl
  · rw [ansi_eq]
    simp only [Ansi.templates, Ansi.templated, List.map_cons, List.map_nil, List.forall_mem_cons]
    refine ⟨⟨Ansi.selectDefaults, ?_, rfl⟩, ⟨[], ?_, rfl⟩, ⟨[], ?_, rfl⟩, ⟨[], ?_, rfl⟩,
      ⟨[], ?_, rfl⟩, ⟨[], ?_, rfl⟩, ⟨[], ?_, rfl⟩, by simp⟩ <;>
    simp [templatedOperators, Ansi.templated]
  · rw [mysql_eq]
    have htemplates : Mysql.templates =
        [("$select", Mysql.selectTemplate), ("$insert", Ansi.insertTemplate),
          ("$update", Ansi.updateTemplate), ("$delete", Ansi.deleteTemplate),
          ("$createTable", Ansi.createTableTemplate), ("$dropTable", Ansi.dropTableTemplate),
          ("$column", Mysql.columnTemplate)] := rfl
    simp only [htemplates, List.forall_mem_cons]
    refine ⟨⟨Ansi.selectDefaults, ?_, rfl⟩, ⟨[], ?_, rfl⟩, ⟨[], ?_, rfl⟩, ⟨[], ?_, rfl⟩,
      ⟨[], ?_, rfl⟩, ⟨[], ?_, rfl⟩, ⟨[], ?_, rfl⟩, by simp⟩ <;>
    simp [templatedOperators, Ansi.templated]
  · rw [postgres_eq]
    have htemplates : Postgres.templates =
        [("$select", Ansi.selectTemplate), ("$insert", Ansi.insertTemplate),
          ("$update", Ansi.updateTemplate), ("$delete", Ansi.deleteTemplate),
          ("$createTable", Postgres.createTableTemplate), ("$dropTable", Ansi.dropTableTemplate),
          ("$column", Postgres.columnTemplate), ("$with", Postgres.storageTemplate)] := rfl
    simp only [htemplates, List.forall_mem_cons]
    refine ⟨⟨Ansi.selectDefaults, ?_, rfl⟩, ⟨[], ?_, rfl⟩, ⟨[], ?_, rfl⟩, ⟨[], ?_, rfl⟩,
      ⟨[], ?_, rfl⟩, ⟨[], ?_, rfl⟩, ⟨[], ?_, rfl⟩, ⟨[], ?_, rfl⟩, by simp⟩ <;>
    simp [templatedOperators, Ansi.templated]

/-- A template of a dialect is rendered by the operator of its name. -/
theorem find?_of_template? (hd : d ∈ library) {operator : String} {t : Template}
    (h : d.template? operator = some t) :
    ∃ defaults, (t, defaults) ∈ templatedOperators ∧
      d.registry.find? operator = some (t.handler defaults) := by
  obtain ⟨before, after, htemplates, -⟩ := List.lookup_eq_some_iff.1 h
  exact templated_of_mem hd (operator, t) (by simp [htemplates])

/-! ## Invocations -/

/-- An operator at an operand, inside the connective `combinator` and after the values of `binder`:
its text, or why it has none, and the values that are bound then. -/
def invocation (d : Dialect) (combinator : Option Combinator) (operator : String) (operand : Value)
    (node : Fields) (column : Option String) (binder : Array Value) :
    Except Fault String × Array Value :=
  (d.runFor operand ((d.context combinator).invoke operator operand node column)).run.run binder

/-- An operator that is called by itself has all the room it needs. -/
theorem invocation_eq (hd : d ∈ library) (combinator : Option Combinator) (operator : String)
    (operand : Value) (node : Fields) (column : Option String) (binder : Array Value) :
    d.invocation combinator operator operand node column binder =
      (d.respond ⟨operator, operand, node, column, combinator⟩).run.run binder := by
  have hbound : (Call.mk operator operand node column combinator).operand.reach ≤
      d.callBound operand := by
    have hreach := operand.reach_le
    change operand.reach ≤ operand.size + d.weight + 1
    omega
  rw [invocation, runFor, Context.invoke, Rendering.run_invoke]
  exact congrArg (fun m => m.run.run binder) (answer_eq_respond hd hbound)

variable {t : Template} {defaults body : Fields} {operator : String}

/-- An operator with a template renders the template, if the keys of its operand are references. -/
theorem respond_of_admits (hd : d ∈ library)
    (hfind : d.registry.find? operator = some (t.handler defaults)) (hadmits : t.Admits body)
    (node : Fields) (column : Option String) (combinator : Option Combinator) :
    d.respond ⟨operator, .object body, node, column, combinator⟩ =
      (t.render (d.context combinator) (body.withDefaults defaults) column).run
        d.placeholder d.respond := by
  rw [respond_eq hd, hfind]
  simp only [Template.handler]
  rw [Template.checkKeys_of_admitted hadmits, pure_bind]

/-- A body that is not admitted is refused. -/
theorem respond_of_not_admits (hd : d ∈ library)
    (hfind : d.registry.find? operator = some (t.handler defaults)) (hadmits : ¬ t.Admits body)
    (node : Fields) (column : Option String) (combinator : Option Combinator) :
    ∃ fault, d.respond ⟨operator, .object body, node, column, combinator⟩ = throw fault := by
  obtain ⟨fault, hfault⟩ := Template.checkKeys_of_not_admitted hadmits d.name
  refine ⟨fault, ?_⟩
  rw [respond_eq hd, hfind]
  simp only [Template.handler]
  change ((t.checkKeys d.name body.keys >>= fun _ => _).run _ _) = _
  rw [hfault]
  rfl

end Dialect

/-- Both runs succeed with the same text and the same values, or both fail. -/
def SameOutcome (r r' : Except Fault String × Array Value) : Prop :=
  ∀ text values, r = (.ok text, values) ↔ r' = (.ok text, values)

/-! ## Rearranged bodies -/

/-- The keys of a body are put into another order, and references that are `null` are added or
removed, any number of times. -/
inductive Template.Rearranges (t : Template) : Fields → Fields → Prop where
  | permute {body body' : Fields} (h : body.Perm body') : t.Rearranges body body'
  | add {body : Fields} {key : String} (reference : key ∈ t.keys) (fresh : key ∉ body.keys) :
      t.Rearranges body (body ++ [(key, .null)])
  | remove {body : Fields} {key : String} (reference : key ∈ t.keys) :
      t.Rearranges (body ++ [(key, .null)]) body
  | trans {body body' body'' : Fields} (first : t.Rearranges body body')
      (second : t.Rearranges body' body'') : t.Rearranges body body''

namespace Template.Rearranges

variable {t : Template} {body body' : Fields}

theorem admits_append_null {key : String} (hkey : key ∈ t.keys)
    (hoperators : ∀ key ∈ t.keys, isOperatorKey key = true) :
    t.Admits (body ++ [(key, .null)]) ↔ t.Admits body := by
  have hkeys : Fields.keys (body ++ [(key, .null)]) = body.keys ++ [key] := by simp [Fields.keys]
  rw [Admits, hkeys, List.forall_mem_append]
  exact and_iff_left (List.forall_mem_singleton.2 ⟨hoperators key hkey, hkey⟩)

/-- No key comes to stand twice, every key keeps its value, and no key comes or goes that the
template does not know. -/
theorem keeps (h : t.Rearranges body body') (hoperators : ∀ key ∈ t.keys, isOperatorKey key = true)
    (hkeys : body.keys.Nodup) :
    body'.keys.Nodup ∧ (∀ key, body.valueOf key = body'.valueOf key) ∧
      (t.Admits body ↔ t.Admits body') := by
  induction h with
  | permute h =>
    have hkeysPerm := h.map Prod.fst
    refine ⟨hkeysPerm.nodup_iff.1 hkeys, fun key => ?_, ?_⟩
    · rw [Fields.valueOf_eq, Fields.valueOf_eq, Fields.get?_perm h hkeys]
    · exact forall_congr' fun key => by rw [Fields.keys, Fields.keys, hkeysPerm.mem_iff]
  | @add body key reference fresh =>
    refine ⟨?_, fun other => (Fields.valueOf_append_null body key other).symm,
      (admits_append_null reference hoperators).symm⟩
    have hdisjoint : ∀ other ∈ body.keys, other ≠ key := fun other hother heq =>
      fresh (heq ▸ hother)
    simpa [Fields.keys, List.nodup_append] using ⟨hkeys, by simpa [Fields.keys] using hdisjoint⟩
  | @remove body key reference =>
    refine ⟨?_, fun other => Fields.valueOf_append_null body key other,
      admits_append_null reference hoperators⟩
    rw [Fields.keys, List.map_append] at hkeys
    exact (List.nodup_append.1 hkeys).1
  | trans _ _ ih₁ ih₂ =>
    obtain ⟨hkeys₁, hvalues₁, hadmits₁⟩ := ih₁ hkeys
    obtain ⟨hkeys₂, hvalues₂, hadmits₂⟩ := ih₂ hkeys₁
    exact ⟨hkeys₂, fun key => (hvalues₁ key).trans (hvalues₂ key), hadmits₁.trans hadmits₂⟩

end Template.Rearranges

namespace Dialect

variable {d : Dialect} {t : Template}

/-- Bodies agree for references if every key that matters has the same value. -/
theorem agree_of_valueOf_eq (hd : d ∈ library) {body body' : Fields} {keys : List String}
    {references : List Template.Reference}
    (hkeys : ∀ key ∈ keys, body.valueOf key = body'.valueOf key)
    (hreferences : ∀ r ∈ references, ∀ key ∈ r.key :: watchedKeys r.key,
      body.valueOf key = body'.valueOf key) (ctx : Context) (column : Option String) :
    Template.Agree d ctx column column body body' keys references where
  present key hkey := congrArg Value.isPresent (hkeys key hkey)
  value r hr _ := hreferences r hr r.key List.mem_cons_self
  call r hr _ operand := by
    rw [Same, Context.invoke, Context.invoke, Rendering.run_invoke, Rendering.run_invoke]
    refine respond_node_congr hd (fun key hkey => ?_) operand column _
    exact congrArg Value.isNull (hreferences r hr key (List.mem_cons_of_mem _ hkey))

/-- An operator with a template has the same outcome at bodies that agree. -/
theorem sameOutcome_of_agree (hd : d ∈ library) {operator : String} {defaults body body' : Fields}
    (hfind : d.registry.find? operator = some (t.handler defaults))
    (hadmits : t.Admits body ↔ t.Admits body') {combinator : Option Combinator}
    {column : Option String}
    (h : Template.Agree d (d.context combinator) column column (body.withDefaults defaults)
      (body'.withDefaults defaults) (Template.lookupsOf t.nodes) t.references)
    (node node' : Fields) (binder : Array Value) :
    SameOutcome (d.invocation combinator operator (.object body) node column binder)
      (d.invocation combinator operator (.object body') node' column binder) := by
  rw [invocation_eq hd, invocation_eq hd]
  intro text values
  by_cases hbody : t.Admits body
  · rw [respond_of_admits hd hfind hbody, respond_of_admits hd hfind (hadmits.1 hbody),
      Template.same_render h]
  · obtain ⟨fault, hfault⟩ := respond_of_not_admits hd hfind hbody node column combinator
    obtain ⟨fault', hfault'⟩ := respond_of_not_admits hd hfind (fun h => hbody (hadmits.2 h))
      node' column combinator
    rw [hfault, hfault']
    constructor <;> intro hok <;> cases hok

/-- **The order of the clauses comes from the grammar.**  Whichever order the keys of a body come
in, and whether or not references that are `null` are written out, an operator with a template
renders the same text and binds the same values in the same order, or it fails. -/
theorem rearranges_sameOutcome (hd : d ∈ library) {operator : String}
    (ht : d.template? operator = some t) {body body' : Fields} (hkeys : body.keys.Nodup)
    (h : t.Rearranges body body') (combinator : Option Combinator) (node node' : Fields)
    (column : Option String) (binder : Array Value) :
    SameOutcome (d.invocation combinator operator (.object body) node column binder)
      (d.invocation combinator operator (.object body') node' column binder) := by
  obtain ⟨defaults, hmem, hfind⟩ := find?_of_template? hd ht
  obtain ⟨-, hvalues, hadmits⟩ := h.keeps (isOperatorKey_of_mem_templated hmem) hkeys
  have hsame : ∀ key,
      (body.withDefaults defaults).valueOf key = (body'.withDefaults defaults).valueOf key :=
    fun key => Fields.valueOf_withDefaults_congr (hvalues key) defaults
  refine sameOutcome_of_agree hd hfind hadmits ?_ node node' binder
  exact agree_of_valueOf_eq hd (fun key _ => hsame key) (fun _ _ key _ => hsame key) _ column

/-- A query with a filter and a limit. -/
def pagedBody : Fields :=
  [("$from", .str "t"), ("$where", .object [("b", .int 2), ("a", .int 1)]), ("$limit", .int 5)]

set_option maxRecDepth 4000 in
theorem invocation_pagedBody :
    mysql.invocation none "$select" (.object pagedBody) [] none #[.int 7] =
      (.ok "SELECT * FROM `t` WHERE `b` = ? AND `a` = ? LIMIT ?",
        #[.int 7, .int 2, .int 1, .int 5]) := by
  rw [mysql_eq]
  rfl

/-- The query from its last key to its first, with its columns written out as `null`. -/
theorem rearranges_sameOutcome_pagedBody :
    mysql ∈ library ∧ mysql.template? "$select" = some Mysql.selectTemplate ∧
      pagedBody.keys.Nodup ∧
      Mysql.selectTemplate.Rearranges pagedBody (pagedBody.reverse ++ [("$columns", .null)]) ∧
      mysql.invocation none "$select" (.object (pagedBody.reverse ++ [("$columns", .null)])) [] none
          #[.int 7] =
        (.ok "SELECT * FROM `t` WHERE `b` = ? AND `a` = ? LIMIT ?",
          #[.int 7, .int 2, .int 1, .int 5]) := by
  have hd : mysql ∈ library := by simp [library]
  have ht : mysql.template? "$select" = some Mysql.selectTemplate := by
    rw [mysql_eq]
    rfl
  have hkeys : pagedBody.keys.Nodup := by decide
  have hbody : Mysql.selectTemplate.Rearranges pagedBody
      (pagedBody.reverse ++ [("$columns", .null)]) :=
    .trans (.permute (List.reverse_perm pagedBody).symm) (.add (by decide) (by decide))
  have hsame := rearranges_sameOutcome hd ht hkeys hbody none [] [] none #[.int 7]
  exact ⟨hd, ht, hkeys, hbody, (hsame _ _).1 invocation_pagedBody⟩

end Dialect

end QueryTree
