import QueryTree.Template.Grammar
import QueryTree.Template.Render
import QueryTree.Value.Lemmas

/-!
# The calls of a template

A template has its references rendered by other operators.  Which of them it calls, with which
operands and in which order is settled by the template and the object it is rendered against,
whatever the operators reply.

**Calls.**  `Rendering.logged` is a program that also returns the calls it made; without them it is
the program itself (`fst_logged`).  `Rendering.Traces` says something of every result of a program
together with the calls that led to it, and `Traces.exists_logged` carries it to runs.

**References.**  `Template.references` lists the references of a template in the order of the
grammar, each with the guards of the groups around it.  `Reference.isReached` says which of them are
rendered against an object, and `Reference.calls` is what rendering one of them asks for.

**`Template.handler_logged`** : a template that renders has made exactly the calls of the references
that it reached, in their order; every reference that is present was reached, and no key of the
operand is left over.  `Follows.exists_call` : a reference that is present is called for at least
once, also if it is to a list.
-/

namespace QueryTree

open Rendering (Compile)

namespace Rendering

variable {α β : Type}

/-! ## Programs that log their calls -/

/-- The same program, which also returns the calls that it made, in order. -/
def logged : Rendering α → Rendering (α × List Call)
  | .done result => .done (result, [])
  | .refuse fault => .refuse fault
  | .bind value next => .bind value fun token => (next token).logged
  | .call request next => .call request fun text =>
    (next text).logged.andThen fun outcome => .done (outcome.1, request :: outcome.2)
  | .count next => .count fun n => (next n).logged

/-- Logging its calls does not change a program. -/
theorem fst_logged (x : Rendering α) : Prod.fst <$> x.logged = x := by
  rw [map_eq_pure_bind]
  change x.logged.andThen (fun outcome => .done outcome.1) = x
  induction x with
  | done result => rfl
  | refuse fault => rfl
  | bind value next ih => simp only [logged, andThen, ih]
  | call request next ih => simp only [logged, andThen, andThen_assoc, ih]
  | count next ih => simp only [logged, andThen, ih]

/-- A sequence succeeds exactly if both parts do, the second from where the first one ended. -/
theorem bind_eq_ok_iff {m : Compile α} {f : α → Compile β} {s s' : Array Value} {b : β} :
    (m >>= f).run.run s = (.ok b, s') ↔
      ∃ a s₁, m.run.run s = (.ok a, s₁) ∧ (f a).run.run s₁ = (.ok b, s') := by
  rw [ExceptT.run_bind, StateT.run_bind]
  rcases m.run.run s with ⟨fault | a, s₁⟩
  · constructor
    · intro h
      cases h
    · rintro ⟨a, s₂, h, -⟩
      cases h
  · constructor
    · intro h
      exact ⟨a, s₁, rfl, h⟩
    · rintro ⟨a', s₂, h, hf⟩
      cases h
      exact hf

/-- Whatever is replied to its calls, each result of the program and the calls made by then are
related by `Q`. -/
def Traces (Q : α → List Call → Prop) : Rendering α → Prop
  | .done result => Q result []
  | .refuse _ => True
  | .bind _ next => ∀ token, (next token).Traces Q
  | .call request next => ∀ text, (next text).Traces fun a calls => Q a (request :: calls)
  | .count next => ∀ n, (next n).Traces Q

namespace Traces

variable {Q : α → List Call → Prop}

theorem pure {a : α} (h : Q a []) : (Pure.pure a : Rendering α).Traces Q := h

theorem refuse (fault : Fault) : (Rendering.refuse fault).Traces Q := trivial

theorem invoke {Q : String → List Call → Prop} {request : Call} (h : ∀ text, Q text [request]) :
    (Rendering.invoke request).Traces Q := h

theorem mono {Q' : α → List Call → Prop} (hQ : ∀ a calls, Q a calls → Q' a calls)
    {x : Rendering α} (h : x.Traces Q) : x.Traces Q' := by
  induction x generalizing Q Q' with
  | done result => exact hQ _ _ h
  | refuse fault => trivial
  | bind value next ih => exact fun token => ih token hQ (h token)
  | call request next ih => exact fun text => ih text (fun a calls => hQ a _) (h text)
  | count next ih => exact fun n => ih n hQ (h n)

/-- One program after another: the calls of the first come before those of the second. -/
theorem bind {R : β → List Call → Prop} {x : Rendering α} {f : α → Rendering β} (hx : x.Traces Q)
    (hf : ∀ a calls, Q a calls → (f a).Traces fun b more => R b (calls ++ more)) :
    (x >>= f).Traces R := by
  change (x.andThen f).Traces R
  induction x generalizing Q R with
  | done result => exact hf result [] hx
  | refuse fault => trivial
  | bind value next ih => exact fun token => ih token (hx token) hf
  | call request next ih => exact fun text => ih text (hx text) fun a calls => hf a _
  | count next ih => exact fun n => ih n (hx n) hf

/-- A program for every item, each with calls that depend on the item alone. -/
theorem each {f : α → Rendering β} {calls : α → List Call}
    (h : ∀ a, (f a).Traces fun _ made => made = calls a) (items : List α) :
    (Rendering.each f items).Traces fun _ made => made = items.flatMap calls := by
  induction items with
  | nil => exact .pure rfl
  | cons a rest ih =>
    refine (h a).bind ?_
    rintro _ _ rfl
    refine ih.bind ?_
    rintro _ _ rfl
    exact .pure (by simp)

/-- A run that succeeds can be logged, and its calls are those that were traced. -/
theorem exists_logged {x : Rendering α} (h : x.Traces Q) {placeholder : Nat → String}
    {answer : Call → Compile String} {s s' : Array Value} {a : α}
    (hrun : (x.run placeholder answer).run.run s = (.ok a, s')) :
    ∃ calls, (x.logged.run placeholder answer).run.run s = (.ok (a, calls), s') ∧ Q a calls := by
  induction x generalizing Q s with
  | done result =>
    cases hrun
    exact ⟨[], rfl, h⟩
  | refuse fault => cases hrun
  | bind value next ih => exact ih _ (h _) hrun
  | call request next ih =>
    obtain ⟨text, s₁, hreply, hnext⟩ := bind_eq_ok_iff.1 hrun
    obtain ⟨calls, hlogged, hQ⟩ := ih text (h text) hnext
    refine ⟨request :: calls, bind_eq_ok_iff.2 ⟨text, s₁, hreply, ?_⟩, hQ⟩
    change (((next text).logged >>= fun outcome =>
      Pure.pure (outcome.1, request :: outcome.2)).run placeholder answer).run.run s₁ = _
    rw [run_andThen]
    exact bind_eq_ok_iff.2 ⟨_, _, hlogged, rfl⟩
  | count next ih => exact ih _ (h _) hrun

end Traces

end Rendering

/-! ## References -/

namespace Template

open Rendering (Traces)

/-- A reference of a template: its key, whether it is to a list, and the guards of the groups
around it, the outermost first. -/
structure Reference where
  key : String
  series : Bool
  guards : List String
  deriving Repr, DecidableEq

mutual

/-- The references of a part that stands in groups with the given guards. -/
def Node.references (guards : List String) : Node → List Reference
  | .word _ _ => []
  | .required key _ => [⟨key, false, guards⟩]
  | .inline key _ => [⟨key, false, guards⟩]
  | .series key _ _ _ => [⟨key, true, guards⟩]
  | .group children guard _ => referencesOf (guards ++ [guard]) children
termination_by structural node => node

/-- The references of a list of parts, in order. -/
def referencesOf (guards : List String) : List Node → List Reference
  | [] => []
  | node :: rest => node.references guards ++ referencesOf guards rest
termination_by structural nodes => nodes

end

/-- The references of a template in the order of the grammar, those in groups included. -/
def references (t : Template) : List Reference :=
  referencesOf [] t.nodes

namespace Reference

/-- What the reference is rendered at: the items of a list one by one, or the value as a whole. -/
def operands (r : Reference) (body : Fields) : List Value :=
  if r.series then seriesItems (body.valueOf r.key) else [body.valueOf r.key]

/-- What rendering the reference asks for. -/
def calls (body : Fields) (column : Option String) (combinator : Option Combinator)
    (r : Reference) : List Call :=
  (r.operands body).map fun operand => ⟨r.key, operand, body, column, combinator⟩

/-- A reference that is present is rendered at something, also if it is to a list. -/
theorem operands_ne_nil {r : Reference} {body : Fields}
    (h : (body.valueOf r.key).isPresent = true) : r.operands body ≠ [] := by
  unfold operands
  split
  · exact seriesItems_ne_nil h
  · exact List.cons_ne_nil _ _

/-- The groups around the reference are switched on and it is given.  A single reference is given
by every value but `null`, a list only by one that is present. -/
def isReached (body : Fields) (r : Reference) : Bool :=
  r.guards.all (fun guard => (body.valueOf guard).isPresent) &&
    if r.series then (body.valueOf r.key).isPresent else !(body.valueOf r.key).isNull

end Reference

mutual

theorem Node.map_key_references (guards : List String) : (node : Node) →
    (node.references guards).map Reference.key = node.keys
  | .word _ _ => by rw [Node.references, Node.keys, List.map_nil]
  | .required key _ => by rw [Node.references, Node.keys, List.map_singleton]
  | .inline key _ => by rw [Node.references, Node.keys, List.map_singleton]
  | .series key _ _ _ => by rw [Node.references, Node.keys, List.map_singleton]
  | .group children guard _ => by rw [Node.references, Node.keys, map_key_referencesOf]
termination_by structural node => node

/-- The keys of the references are the keys of the parts, in the same order. -/
theorem map_key_referencesOf (guards : List String) : (nodes : List Node) →
    (referencesOf guards nodes).map Reference.key = keysOf nodes
  | [] => by rw [referencesOf, keysOf, List.map_nil]
  | node :: rest => by
    rw [referencesOf, keysOf, List.map_append, Node.map_key_references, map_key_referencesOf]
termination_by structural nodes => nodes

end

mutual

theorem Node.guards_subset (guards : List String) : (node : Node) →
    ∀ r ∈ node.references guards, guards ⊆ r.guards
  | .word _ _ => by simp [Node.references]
  | .required key _ => by simp [Node.references]
  | .inline key _ => by simp [Node.references]
  | .series key _ _ _ => by simp [Node.references]
  | .group children guard _ => by
    intro r hr
    rw [Node.references] at hr
    exact List.Subset.trans (List.subset_append_left _ _) (guards_subset_of_mem _ children r hr)
termination_by structural node => node

/-- A reference stands in all groups that its part stands in. -/
theorem guards_subset_of_mem (guards : List String) : (nodes : List Node) →
    ∀ r ∈ referencesOf guards nodes, guards ⊆ r.guards
  | [] => by simp [referencesOf]
  | node :: rest => by
    intro r hr
    rw [referencesOf, List.mem_append] at hr
    rcases hr with hr | hr
    · exact Node.guards_subset guards node r hr
    · exact guards_subset_of_mem guards rest r hr
termination_by structural nodes => nodes

end

/-! ## Rendering references -/

section

variable {ctx : Context} {name : String} {body : Fields} {column : Option String}
  {combinator : Option Combinator}

/-- The calls are those of the references that are reached, and whatever is present is reached. -/
structure Follows (body : Fields) (column : Option String) (combinator : Option Combinator)
    (references : List Reference) (calls : List Call) : Prop where
  calls_eq : calls =
    (references.filter (Reference.isReached body)).flatMap (Reference.calls body column combinator)
  reached : ∀ r ∈ references, (body.valueOf r.key).isPresent = true → r.isReached body = true

namespace Follows

theorem nil : Follows body column combinator [] [] :=
  ⟨rfl, by simp⟩

theorem append {references references' : List Reference} {calls calls' : List Call}
    (h : Follows body column combinator references calls)
    (h' : Follows body column combinator references' calls') :
    Follows body column combinator (references ++ references') (calls ++ calls') where
  calls_eq := by rw [h.calls_eq, h'.calls_eq, List.filter_append, List.flatMap_append]
  reached r hr := by
    rcases List.mem_append.1 hr with hr | hr
    · exact h.reached r hr
    · exact h'.reached r hr

/-- One reference. -/
theorem single {r : Reference} {calls : List Call}
    (hreached : (body.valueOf r.key).isPresent = true → r.isReached body = true)
    (hcalls : calls = if r.isReached body then r.calls body column combinator else []) :
    Follows body column combinator [r] calls where
  calls_eq := by
    rw [hcalls]
    cases h : r.isReached body <;> simp [h]
  reached := by simpa using hreached

/-- References none of which is present or reached. -/
theorem skipped {references : List Reference}
    (hpresent : ∀ r ∈ references, (body.valueOf r.key).isPresent = false)
    (hreached : ∀ r ∈ references, r.isReached body = false) :
    Follows body column combinator references [] where
  calls_eq := by
    rw [List.filter_eq_nil_iff.2 (by simpa using hreached), List.flatMap_nil]
  reached r hr h := by
    rw [hpresent r hr] at h
    cases h

end Follows

/-- A reference that is present is called for at least once. -/
theorem Follows.exists_call {references : List Reference} {calls : List Call}
    (h : Follows body column combinator references calls) {r : Reference} (hr : r ∈ references)
    (hpresent : (body.valueOf r.key).isPresent = true) : ∃ call ∈ calls, call.operator = r.key := by
  obtain ⟨operand, hoperand⟩ := List.exists_mem_of_ne_nil _ (Reference.operands_ne_nil hpresent)
  refine ⟨⟨r.key, operand, body, column, combinator⟩, ?_, rfl⟩
  rw [h.calls_eq, List.mem_flatMap]
  exact ⟨r, List.mem_filter.2 ⟨hr, h.reached r hr hpresent⟩, List.mem_map_of_mem hoperand⟩

/-- A group that is switched off is left out only if nothing in it is present. -/
theorem checkAbsent_traces (guard : String) (keys : List String) :
    (checkAbsent body guard keys).Traces fun _ calls =>
      calls = [] ∧ ∀ key ∈ keys, key ≠ guard → (body.valueOf key).isPresent = false := by
  induction keys with
  | nil => exact .pure ⟨rfl, by simp⟩
  | cons key rest ih =>
    rw [checkAbsent]
    split
    · exact .refuse _
    · rename_i hkey
      refine ih.mono ?_
      rintro _ _ ⟨rfl, hrest⟩
      refine ⟨rfl, List.forall_mem_cons.2 ⟨fun hne => ?_, hrest⟩⟩
      simpa [hne] using hkey

/-- A single reference is rendered as a whole if it is given. -/
theorem single_follows {guards : List String}
    (hon : guards.all (fun guard => (body.valueOf guard).isPresent) = true) (key : String)
    {calls : List Call}
    (hcalls : calls = if (body.valueOf key).isNull then []
      else [⟨key, body.valueOf key, body, column, combinator⟩]) :
    Follows body column combinator [⟨key, false, guards⟩] calls := by
  refine .single (fun hpresent => ?_) ?_
  · simp [Reference.isReached, hon, Value.not_isNull_of_isPresent hpresent]
  · rw [hcalls]
    cases hnull : (body.valueOf key).isNull <;>
      simp [Reference.isReached, Reference.calls, Reference.operands, hon, hnull]

mutual

theorem renderNode_traces {guards : List String}
    (hon : guards.all (fun guard => (body.valueOf guard).isPresent) = true) : (node : Node) →
    (renderNode ctx name body column node).Traces fun _ calls =>
      Follows body column ctx.combinator (node.references guards) calls
  | .word text spaced => by
    rw [renderNode, Node.references]
    exact .pure .nil
  | .required key spaced => by
    rw [renderNode, Node.references]
    split
    · exact .refuse _
    · rename_i hnull
      refine Traces.bind (Q := fun _ calls => calls = _) (.invoke fun _ => rfl) ?_
      rintro _ _ rfl
      exact .pure (single_follows hon key (by simp [hnull]))
  | .inline key spaced => by
    rw [renderNode, Node.references]
    split
    · rename_i hnull
      exact .pure (single_follows hon key (by simp [hnull]))
    · rename_i hnull
      refine Traces.bind (Q := fun _ calls => calls = _) (.invoke fun _ => rfl) ?_
      rintro _ _ rfl
      exact .pure (single_follows hon key (by simp [hnull]))
  | .series key separator required spaced => by
    rw [renderNode, Node.references]
    split
    · rename_i hpresent
      refine (Traces.each (fun item => .invoke fun _ => rfl) _).bind ?_
      rintro _ _ rfl
      refine .pure (.single (fun _ => ?_) ?_)
      · simp [Reference.isReached, hon, hpresent]
      · simp [Reference.isReached, Reference.calls, Reference.operands, hon, hpresent,
          List.map_eq_flatMap]
    · rename_i hpresent
      split
      · exact .refuse _
      · refine .pure (.single (fun h => absurd h hpresent) ?_)
        simp [Reference.isReached, hpresent]
  | .group children guard spaced => by
    rw [renderNode, Node.references]
    split
    · rename_i hguard
      have hinner :
          (guards ++ [guard]).all (fun guard => (body.valueOf guard).isPresent) = true := by
        simp [hguard, List.all_append, hon]
      refine (renderNodes_traces hinner children).bind ?_
      intro _ calls hcalls
      exact .pure (by rwa [List.append_nil])
    · rename_i hguard
      refine (checkAbsent_traces guard _).bind ?_
      rintro _ _ ⟨rfl, habsent⟩
      refine .pure (.skipped (fun r hr => ?_) fun r hr => ?_)
      · -- the guard itself is not present, everything else has been checked
        by_cases hkey : r.key = guard
        · rw [hkey]
          simpa using hguard
        · refine habsent r.key ?_ hkey
          rw [← map_key_referencesOf (guards ++ [guard])]
          exact List.mem_map_of_mem hr
      · have hmem : guard ∈ r.guards := guards_subset_of_mem _ children r hr (by simp)
        have hoff : r.guards.all (fun guard => (body.valueOf guard).isPresent) = false :=
          List.all_eq_false.2 ⟨guard, hmem, hguard⟩
        rw [Reference.isReached, hoff, Bool.false_and]
termination_by structural node => node

/-- The parts of a template make the calls of the references that they reach, and they reach what is
present. -/
theorem renderNodes_traces {guards : List String}
    (hon : guards.all (fun guard => (body.valueOf guard).isPresent) = true) :
    (nodes : List Node) → (renderNodes ctx name body column nodes).Traces fun _ calls =>
      Follows body column ctx.combinator (referencesOf guards nodes) calls
  | [] => by
    rw [renderNodes, referencesOf]
    exact .pure .nil
  | node :: rest => by
    rw [renderNodes, referencesOf]
    refine (renderNode_traces hon node).bind fun _ calls hcalls => ?_
    refine (renderNodes_traces hon rest).bind fun _ more hmore => ?_
    exact .pure (by simpa using hcalls.append hmore)
termination_by structural nodes => nodes

end

/-- What passes the check of the keys are references of the template, and nothing is called. -/
theorem checkKeys_traces (t : Template) (dialect : String) (keys : List String) :
    (t.checkKeys dialect keys).Traces fun _ calls =>
      calls = [] ∧ ∀ key ∈ keys, isOperatorKey key = true ∧ key ∈ t.keys := by
  induction keys with
  | nil => exact .pure ⟨rfl, by simp⟩
  | cons key rest ih =>
    rw [checkKeys]
    split
    · exact .refuse _
    · rename_i hoperator
      split
      · exact .refuse _
      · rename_i hkey
        refine ih.mono ?_
        rintro _ _ ⟨rfl, hrest⟩
        exact ⟨rfl, List.forall_mem_cons.2 ⟨⟨by simpa using hoperator, by simpa using hkey⟩, hrest⟩⟩

/-- The calls of one operator among those of a reference. -/
theorem Reference.filter_calls (key : String) (r : Reference) :
    (r.calls body column combinator).filter (fun call => call.operator == key) =
      if r.key == key then r.calls body column combinator else [] := by
  by_cases hkey : r.key = key
  · rw [if_pos (beq_iff_eq.2 hkey)]
    exact List.filter_eq_self.2 (by simp [calls, hkey])
  · rw [if_neg (by simpa using hkey)]
    exact List.filter_eq_nil_iff.2 (by simp [calls, hkey])

/-- A key that is present is called for each of its references. -/
theorem Follows.filter_calls {references : List Reference} {calls : List Call}
    (h : Follows body column combinator references calls) {key : String}
    (hpresent : (body.valueOf key).isPresent = true) :
    calls.filter (fun call => call.operator == key) =
      (references.filter fun r => r.key == key).flatMap
        (Reference.calls body column combinator) := by
  rw [h.calls_eq]
  have hreached := h.reached
  clear h
  induction references with
  | nil => rfl
  | cons r rest ih =>
    have hrest := ih fun r hr => hreached r (List.mem_cons_of_mem _ hr)
    have hr := hreached r List.mem_cons_self
    cases hkey : r.key == key with
    | true =>
      have hreach : r.isReached body = true := hr (by rwa [beq_iff_eq.1 hkey])
      simp [hreach, hkey, hrest, List.filter_append, Reference.filter_calls]
    | false =>
      cases hreach : r.isReached body with
      | true => simp [hreach, hkey, hrest, List.filter_append, Reference.filter_calls]
      | false => simp [hreach, hkey, hrest]

end

/-- **No reference is dropped.**  Whatever the operators reply, a template that renders has made
exactly the calls of the references that it reached, in the order of the grammar.  Every key of the
operand is a reference of the template, and a key that is present, defaults included, was called for
each of its references: with its value as a whole, or item by item. -/
theorem handler_logged (t : Template) (defaults : Fields) (placeholder : Nat → String)
    (answer : Call → Compile String) (ctx : Context) (call : Call) {fields : Fields}
    (hoperand : call.operand = .object fields) {s s' : Array Value} {text : String}
    (hrun : (((t.handler defaults).render ctx call).run placeholder answer).run.run s =
      (.ok text, s')) :
    ∃ calls : List Call,
      (((t.handler defaults).render ctx call).logged.run placeholder answer).run.run s =
        (.ok (text, calls), s') ∧
      (∀ key ∈ fields.keys, isOperatorKey key = true ∧ key ∈ t.keys) ∧
      calls = (t.references.filter
        (Reference.isReached (fields.withDefaults defaults))).flatMap
          (Reference.calls (fields.withDefaults defaults) call.column ctx.combinator) ∧
      ∀ key, ((fields.withDefaults defaults).valueOf key).isPresent = true →
        calls.filter (fun made => made.operator == key) =
          (t.references.filter fun r => r.key == key).flatMap
            (Reference.calls (fields.withDefaults defaults) call.column ctx.combinator) := by
  have htraces : ((t.handler defaults).render ctx call).Traces fun _ calls =>
      (∀ key ∈ fields.keys, isOperatorKey key = true ∧ key ∈ t.keys) ∧
        Follows (fields.withDefaults defaults) call.column ctx.combinator t.references calls := by
    simp only [handler, hoperand]
    refine (checkKeys_traces t ctx.dialect _).bind ?_
    rintro _ _ ⟨rfl, hkeys⟩
    have hon : ([] : List String).all (fun guard =>
        ((fields.withDefaults defaults).valueOf guard).isPresent) = true := rfl
    refine (renderNodes_traces hon t.nodes).bind fun _ calls hcalls => ?_
    exact .pure ⟨hkeys, by simpa [references] using hcalls⟩
  obtain ⟨calls, hlogged, hkeys, hcalls⟩ := htraces.exists_logged hrun
  exact ⟨calls, hlogged, hkeys, hcalls.calls_eq, fun key hpresent => hcalls.filter_calls hpresent⟩

/-- A grammar with groups inside groups and with one reference in two places. -/
def grantGrammar : List Char :=
  ("GRANT <$rights> \x7b ON [$table] \x7b TO [$role, ...] \x7b AS <$level> \x7d \x7d \x7d " ++
    "FOR [$table] \x7b WITH [$limit, ...] \x7d").toList

/-- Its template. -/
def grantTemplate : Template :=
  ⟨"$grant", String.ofList grantGrammar,
    [.word "GRANT" false, .required "$rights" true,
      .group [.word "ON" true, .inline "$table" true,
        .group [.word "TO" true, .series "$role" ", " false true,
          .group [.word "AS" true, .required "$level" true] "$level" true] "$role" true]
        "$table" true,
      .word "FOR" true, .inline "$table" true,
      .group [.word "WITH" true, .series "$limit" ", " false true] "$limit" true]⟩

/-- An operand of it, in another order and without the level, which has a default.  One of its lists
is given by a list, the other one by an object. -/
def grantCall : Call where
  operator := "$grant"
  operand := .object [("$limit", .object [("x", .int 1), ("y", .int 2)]),
    ("$role", .list [.str "a", .str "b"]), ("$table", .str "t"), ("$rights", .bool false)]
  node := []
  column := none
  combinator := none

/-- A dialect that has nothing to say. -/
def grantContext : Context where
  dialect := "plain"
  quoting := .backtick
  maxLimit := ""
  isStatement _ := false
  isPredicate _ := false
  isRegistered _ := false
  combinator := none

/-- The items of the list are called for one by one, and so are the entries of the object. -/
theorem handler_logged_grant :
    parse grantGrammar "$grant" = .ok grantTemplate ∧
      ∃ calls : List Call,
        (((grantTemplate.handler [("$level", .int 0)]).render grantContext grantCall).logged.run
          (fun _ => "?") fun call => Rendering.bindValue (fun _ => "?") call.operand).run.run #[] =
            (.ok ("GRANT ? ON ? TO ?, ? AS ? FOR ? WITH ?, ?", calls),
              #[.bool false, .str "t", .str "a", .str "b", .int 0, .str "t",
                .object [("x", .int 1)], .object [("y", .int 2)]]) ∧
        calls.map (fun made => (made.operator, made.operand)) =
          [("$rights", .bool false), ("$table", .str "t"), ("$role", .str "a"),
            ("$role", .str "b"), ("$level", .int 0), ("$table", .str "t"),
            ("$limit", .object [("x", .int 1)]), ("$limit", .object [("y", .int 2)])] := by
  obtain ⟨calls, hlogged, -, hcalls, -⟩ :=
    handler_logged grantTemplate [("$level", .int 0)] (fun _ => "?")
      (fun call => Rendering.bindValue (fun _ => "?") call.operand) grantContext grantCall rfl
      (s := #[]) rfl
  refine ⟨rfl, calls, hlogged, ?_⟩
  rw [hcalls]
  rfl

end Template

end QueryTree
