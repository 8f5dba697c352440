import QueryTree.Proofs.Bodies
import QueryTree.Proofs.FilledExpressions
import QueryTree.Proofs.TemplateClauses

/-!
# Templates without gaps

A template puts its words around the texts of its references.  Some references may render to
nothing: those that are not given, and the switches, whose words stand in the template.  Whether the
template is filled nevertheless is found out by sweeping over its parts.

* `switches` are the operators that never have a text, and `quietKeys` those that may have none.
* `Sql.Attended` is what is asked of the answers to the calls of a template.
* `Sql.nodesEnd` sweeps over the parts of a template, given some keys that are not `null`.
* **`Sql.leads_renderNodes`** : the text of the parts is swept as `nodesEnd` says.
* **`Sql.template_fills`** : a template that is swept to its end is filled.
-/

namespace QueryTree

/-- The operators whose words stand in the templates; they render to nothing. -/
def switches : List String :=
  Ansi.flags ++ ["$calcFoundRows", "$rollup", "$autoIncrement", "$unlogged"]

/-- The operators that may render to nothing. -/
def quietKeys : List String := "$identity" :: switches

namespace Sql

open Template (Node renderNode renderNodes)

/-- Answers that are empty or filled, and empty only for operators that may render to nothing. -/
structure Attended (S : Scheme) (replies : ReplyRel) : Prop where
  answered : ∀ call n t vs, replies call n t vs → t = "" ∨ Filled S.mark t
  filled : ∀ call n t vs, replies call n t vs → call.operator ∉ quietKeys → Filled S.mark t

/-! ## Fragments -/

section Fragments

variable {mark : Char} {standing : Standing}

/-- A space outside of quotes fills nothing. -/
theorem sweep_space (hstanding : standing ∈ Standing.outside) (cs : List Char) :
    sweep mark standing (' ' :: cs) = sweep mark standing cs := by
  have hspace : sweep mark standing [' '] = some standing :=
    sweep_of_isBlank hstanding (by decide)
  rw [← List.singleton_append, sweep_append, hspace, Option.bind_some]

/-- The space before the first fragment has no effect. -/
theorem sweep_fragmentTail_cons (hstanding : standing ∈ Standing.outside) (f : Fragment)
    (rest : List Fragment) :
    sweep mark standing (fragmentTail (f :: rest)).toList =
      sweep mark standing (f.text ++ fragmentTail rest).toList := by
  rw [fragmentTail]
  split
  · rw [String.append_assoc, String.toList_append]
    exact sweep_space hstanding _
  · rfl

/-- The space before the first fragment makes no difference. -/
theorem sweep_joinFragments (hstanding : standing ∈ Standing.outside) (fs : List Fragment) :
    sweep mark standing (joinFragments fs).toList =
      sweep mark standing (fragmentTail fs).toList := by
  cases fs with
  | nil => rfl
  | cons f rest => rw [sweep_fragmentTail_cons hstanding, joinFragments]

theorem sweep_respace (hstanding : standing ∈ Standing.outside) (spaced : Bool)
    (fs : List Fragment) :
    sweep mark standing (fragmentTail (respace spaced fs)).toList =
      sweep mark standing (fragmentTail fs).toList := by
  cases fs with
  | nil => rfl
  | cons f rest =>
    rw [sweep_fragmentTail_cons hstanding, respace, sweep_fragmentTail_cons hstanding]

theorem sweep_ofText (hstanding : standing ∈ Standing.outside) (text : String) (spaced : Bool) :
    sweep mark standing (fragmentTail (Fragment.ofText text spaced)).toList =
      sweep mark standing text.toList := by
  unfold Fragment.ofText
  split
  · rename_i hempty
    rw [String.isEmpty_iff.1 hempty]
    rfl
  · rw [sweep_fragmentTail_cons hstanding, fragmentTail, String.append_empty]

end Fragments

/-! ## Sweeping over a template -/

/-- Where a word leads, in every dialect. -/
def wordEnd (standing : Standing) (text : String) : Option Standing :=
  Standing.outside.find? fun next =>
    marks.all fun mark => sweep mark standing text.toList == some next

/-- Where a reference leads.  One that may have no text can only come after something. -/
def referenceEnd (sure : Bool) (key : String) (standing : Standing) : Option Standing :=
  if (sure && !quietKeys.contains key) || standing == .filled then some .filled else none

mutual

/-- Where a part leads if none of the keys `given` is `null`. -/
def nodeEnd (given : List String) (standing : Standing) : Node → Option Standing
  | .word text _ => wordEnd standing text
  | .required key _ => referenceEnd true key standing
  | .inline key _ => referenceEnd (given.contains key) key standing
  | .series key separator required _ =>
    if Joins separator then referenceEnd required key standing else none
  | .group children guard _ =>
    if standing = .filled ∧ nodesEnd (guard :: given) .filled children = some .filled then
      some .filled
    else none
termination_by structural node => node

/-- Where a list of parts leads. -/
def nodesEnd (given : List String) (standing : Standing) : List Node → Option Standing
  | [] => some standing
  | node :: rest => (nodeEnd given standing node).bind fun next => nodesEnd given next rest
termination_by structural nodes => nodes

end

variable {S : Scheme} {ctx : Context} {replies : ReplyRel} {body : Fields}
  {standing next : Standing}

/-- Where a word of a template leaves the text. -/
theorem wordEnd_sound {text : String} (h : wordEnd standing text = some next) :
    sweep S.mark standing text.toList = some next := by
  have hall := List.find?_some h
  simp only [List.all_eq_true, beq_iff_eq] at hall
  exact hall S.mark S.isMark.mem_marks

/-- A reference that can end leaves its place filled. -/
theorem eq_filled_of_referenceEnd {sure : Bool} {key : String}
    (h : referenceEnd sure key standing = some next) : next = .filled := by
  unfold referenceEnd at h
  split at h <;> cases h
  rfl

/-- A part never ends inside of quotes. -/
theorem mem_outside_of_nodeEnd {given : List String} {node : Node}
    (h : nodeEnd given standing node = some next) : next ∈ Standing.outside := by
  have hreference : ∀ {sure : Bool} {key : String}, referenceEnd sure key standing = some next →
      next ∈ Standing.outside := fun hend => eq_filled_of_referenceEnd hend ▸ by decide
  cases node with
  | word text spaced =>
    rw [nodeEnd, wordEnd] at h
    exact List.mem_of_find?_eq_some h
  | required key spaced => exact hreference h
  | inline key spaced => exact hreference h
  | series key separator required spaced =>
    rw [nodeEnd] at h
    split at h
    · exact hreference h
    · cases h
  | group children guard spaced =>
    rw [nodeEnd] at h
    split at h <;> cases h
    decide

/-- A text that is empty or filled, and filled if the reference is sure. -/
theorem referenceEnd_sound {sure : Bool} {key : String}
    (h : referenceEnd sure key standing = some next) (hstanding : standing ∈ Standing.outside)
    {text : String} (htext : text = "" ∨ Filled S.mark text)
    (hsure : sure = true → key ∉ quietKeys → Filled S.mark text) :
    sweep S.mark standing text.toList = some next := by
  unfold referenceEnd at h
  split at h
  · rename_i hcond
    cases h
    rcases htext with rfl | htext
    · simp only [Bool.or_eq_true, Bool.and_eq_true, Bool.not_eq_true', List.contains_eq_mem,
        decide_eq_false_iff_not, beq_iff_eq] at hcond
      rcases hcond with ⟨hs, hkey⟩ | rfl
      · exact (hsure hs hkey).sweep_eq hstanding
      · rfl
    · exact htext.sweep_eq hstanding
  · cases h

/-! ## Parts of a template -/

/-- The fragments are swept from one place to another. -/
abbrev Leads (S : Scheme) (replies : ReplyRel) (standing next : Standing) :
    Rendering (List Fragment) → Prop :=
  Ensures S replies fun _ fs _ => sweep S.mark standing (fragmentTail fs).toList = some next

/-- A reference that is looked up. -/
theorem Attended.leads (h : Attended S replies) {sure : Bool} {key : String}
    (hend : referenceEnd sure key standing = some next) (hstanding : standing ∈ Standing.outside)
    (v : Value) (column : Option String) (spaced : Bool) :
    Leads S replies standing next
      (do let text ← ctx.invoke key v body column; return Fragment.ofText text spaced) := by
  intro n fs vs hyields
  obtain ⟨text, us, _, htext, hpure, rfl⟩ := Rendering.yields_bind.1 hyields
  obtain ⟨rfl, -⟩ := Rendering.yields_pure.1 hpure
  have hreply := Rendering.yields_invoke.1 htext
  rw [sweep_ofText hstanding]
  exact referenceEnd_sound hend hstanding (h.answered _ _ _ _ hreply)
    fun _ hkey => h.filled _ _ _ _ hreply hkey

/-- A reference that is not looked up. -/
theorem Leads.absent {key : String} (hend : referenceEnd false key standing = some next)
    (hstanding : standing ∈ Standing.outside) : Leads S replies standing next (pure []) :=
  .pure fun _ => referenceEnd_sound hend hstanding (.inl rfl) (by simp)

/-- The items of a list reference; those without a text leave no separator. -/
theorem Attended.leads_series (h : Attended S replies) {sure : Bool} {key separator : String}
    (hend : referenceEnd sure key standing = some next) (hstanding : standing ∈ Standing.outside)
    (hseparator : Joins separator) {items : List Value} (hitems : items ≠ [])
    (column : Option String) (spaced : Bool) :
    Leads S replies standing next
      (do
        let parts ← Rendering.each (fun item => ctx.invoke key item body column) items
        return Fragment.ofText
          (separator.intercalate (parts.filter fun part => !part.isEmpty)) spaced) := by
  have hitem : ∀ item, Ensures S replies
      (fun _ t _ => (t = "" ∨ Filled S.mark t) ∧ (key ∉ quietKeys → Filled S.mark t))
      (ctx.invoke key item body column) := fun item n t vs hyields =>
    have hreply := Rendering.yields_invoke.1 hyields
    ⟨h.answered _ _ _ _ hreply, h.filled _ _ _ _ hreply⟩
  refine (Ensures.each fun item _ => hitem item).map fun {n parts vs} ⟨hlength, hparts⟩ => ?_
  rw [sweep_ofText hstanding]
  have hkept : ∀ part ∈ parts.filter (fun part => !part.isEmpty), Filled S.mark part := by
    intro part hpart
    obtain ⟨hmem, hnonempty⟩ := List.mem_filter.1 hpart
    refine (hparts part hmem).1.resolve_left ?_
    rintro rfl
    exact absurd hnonempty (by decide)
  refine referenceEnd_sound hend hstanding ?_ fun _ hkey => .join hseparator ?_ hkept
  · cases hempty : parts.filter (fun part => !part.isEmpty) with
    | nil => exact .inl rfl
    | cons first rest =>
      rw [hempty] at hkept
      exact .inr (.join hseparator (List.cons_ne_nil _ _) hkept)
  · -- a sure reference has at least one item, and its text is filled
    obtain ⟨first, rest, rfl⟩ := List.exists_cons_of_ne_nil hitems
    obtain ⟨part, others, rfl⟩ := List.exists_cons_of_length_eq_add_one hlength
    have hpart := ((hparts part List.mem_cons_self).2 hkey).gapless.nonempty
    exact List.ne_nil_of_mem (List.mem_filter.2
      ⟨List.mem_cons_self, by simpa [String.isEmpty_iff] using hpart⟩)

mutual

/-- **A part of a template leads to where its check says.** -/
theorem leads_renderNode (h : Attended S replies) {given : List String}
    (hgiven : ∀ key ∈ given, (body.valueOf key).isNull = false) (name : String)
    (column : Option String) : (node : Node) → (standing next : Standing) →
    nodeEnd given standing node = some next → standing ∈ Standing.outside →
    Leads S replies standing next (renderNode ctx name body column node)
  | .word text spaced => by
    intro standing next hend hstanding
    rw [renderNode]
    refine .pure fun _ => ?_
    rw [sweep_fragmentTail_cons hstanding, fragmentTail, String.append_empty]
    exact wordEnd_sound hend
  | .required key spaced => by
    intro standing next hend hstanding
    rw [renderNode]
    split
    · exact .refuse _
    · exact h.leads hend hstanding _ _ _
  | .inline key spaced => by
    intro standing next hend hstanding
    rw [nodeEnd] at hend
    rw [renderNode]
    split
    · rename_i hnull
      have habsent : given.contains key = false := by
        rw [Bool.eq_false_iff]
        intro hkey
        rw [hgiven key (List.contains_iff_mem.1 hkey)] at hnull
        cases hnull
      rw [habsent] at hend
      exact .absent hend hstanding
    · exact h.leads hend hstanding _ _ _
  | .series key separator required spaced => by
    intro standing next hend hstanding
    rw [nodeEnd] at hend
    split at hend
    · rename_i hseparator
      rw [renderNode]
      split
      · rename_i hpresent
        exact h.leads_series hend hstanding hseparator (seriesItems_ne_nil hpresent) _ _
      · split
        · exact .refuse _
        · rename_i hrequired
          rw [Bool.not_eq_true] at hrequired
          rw [hrequired] at hend
          exact .absent hend hstanding
    · cases hend
  | .group children guard spaced => by
    intro standing next hend hstanding
    rw [nodeEnd] at hend
    split at hend
    · rename_i hfilled
      obtain ⟨rfl, hchildren⟩ := hfilled
      cases hend
      rw [renderNode]
      split
      · rename_i hpresent
        have hguard : ∀ key ∈ guard :: given, (body.valueOf key).isNull = false :=
          List.forall_mem_cons.2 ⟨Value.not_isNull_of_isPresent hpresent, hgiven⟩
        refine (leads_renderNodes h hguard name column children _ _ hchildren hstanding).map
          fun ht => ?_
        rwa [sweep_respace hstanding]
      · intro n fs vs hyields
        obtain ⟨_, _, _, _, hpure, -⟩ := Rendering.yields_bind.1 hyields
        obtain ⟨rfl, -⟩ := Rendering.yields_pure.1 hpure
        rfl
    · cases hend
termination_by structural node => node

/-- The texts of parts are swept as `nodesEnd` says. -/
theorem leads_renderNodes (h : Attended S replies) {given : List String}
    (hgiven : ∀ key ∈ given, (body.valueOf key).isNull = false) (name : String)
    (column : Option String) : (nodes : List Node) → (standing next : Standing) →
    nodesEnd given standing nodes = some next → standing ∈ Standing.outside →
    Leads S replies standing next (renderNodes ctx name body column nodes)
  | [] => by
    intro standing next hend _
    cases hend
    rw [renderNodes]
    exact .pure fun _ => rfl
  | node :: rest => by
    intro standing next hend hstanding
    rw [nodesEnd] at hend
    obtain ⟨middle, hnode, hrest⟩ := Option.bind_eq_some_iff.1 hend
    have hmiddle := mem_outside_of_nodeEnd hnode
    rw [renderNodes]
    refine (leads_renderNode h hgiven name column node _ _ hnode hstanding).map₂
      (leads_renderNodes h hgiven name column rest _ _ hrest hmiddle) fun hfirst hothers => ?_
    rw [Strung.fragmentTail_append, String.toList_append, sweep_append, hfirst, Option.bind_some,
      hothers]
termination_by structural nodes => nodes

end

/-- The operator of a template that is swept to its end is filled. -/
theorem template_fills (h : Attended S replies) {t : Template} {given : List String}
    (hend : nodesEnd given .waiting t.nodes = some .filled) {defaults : Fields} {call : Call}
    (hgiven : ∀ fields, call.operand = .object fields → ∀ key ∈ given,
      ((Fields.withDefaults fields defaults).valueOf key).isNull = false) :
    Fills S replies ((t.handler defaults).render ctx call) := by
  unfold Template.handler
  dsimp only
  split
  · rename_i fields hoperand
    intro n text vs hyields
    obtain ⟨_, us, ws, -, htext, rfl⟩ := Rendering.yields_bind.1 hyields
    obtain ⟨fs, _, _, hfragments, hpure, rfl⟩ := Rendering.yields_bind.1 htext
    obtain ⟨rfl, -⟩ := Rendering.yields_pure.1 hpure
    rw [Filled, sweep_joinFragments (by decide)]
    exact leads_renderNodes h (hgiven fields hoperand) t.name call.column t.nodes _ _ hend
      (by decide) _ _ _ hfragments
  · exact .refuse _

/-- The references without which a template has no text.  Only the storage of a table has any. -/
def neededKeys (operator : String) : List String :=
  if operator = "$with" then ["$oids"] else []

/-- The templates of the library are swept to their ends. -/
theorem nodesEnd_templated : ∀ entry ∈ templatedOperators,
    nodesEnd (neededKeys entry.1.name) .waiting entry.1.nodes = some .filled := by
  decide

end Sql

end QueryTree
