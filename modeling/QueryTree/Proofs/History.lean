import QueryTree.Proofs.Operations

/-!
# What the operations of a composition add up to

A composition is the sum of the operations that it accepted: the last handler given to a name is the
one that it resolves to, statements and predicates only ever grow, and of a setting the last value
counts.

**One operation.**  `Operation.handler?`, `Operation.makesStatement`, `Operation.makesPredicate` and
the three settings say what an operation contributes if it is accepted.

**Several operations.**  `Builder.Folds` says that a builder is made of another one by a list of
accepted operations; **`Accepts.folds`** is the step and `Folds.trans` puts runs together.
`performAll` performs operations whether or not they fail, and **`Consistent.performAll`** says that
what it leaves is the fold of those that were accepted.

**Tables.**  `Builder.Sound` says that the tables of a composition agree with each other; every
operation keeps that (`Sound.perform`).
-/

namespace QueryTree

namespace Operation

variable {α : Type}

/-- The handler that the operation gives to `name`. -/
def handler? (name : String) : Operation → Option Handler
  | .register other handler _ _ => if other = name then some handler else none
  | .complete registration handler => if registration.name = name then some handler else none
  | .registerTemplate other grammar defaults _ => ofTemplate other grammar defaults
  | .updateTemplate other grammar defaults => ofTemplate other grammar defaults
  | _ => none
where
  /-- The handler of a template. -/
  ofTemplate (other : String) (grammar : Value) (defaults : Fields) : Option Handler :=
    if other = name then
      (Template.ofValue grammar other).toOption.map fun template => template.handler defaults
    else none

/-- Whether the operation makes `name` a statement.  Updating a template never does. -/
def makesStatement (name : String) : Operation → Bool
  | .register other _ statement _ => statement && other == name
  | .complete registration _ => registration.statement && registration.name == name
  | .registerTemplate other _ _ statement => statement && other == name
  | _ => false

/-- Whether the operation makes `name` a predicate. -/
def makesPredicate (name : String) : Operation → Bool
  | .register other _ _ predicate => predicate && other == name
  | .complete registration _ => registration.predicate && registration.name == name
  | _ => false

/-- How the operation has names quoted. -/
def quoting? : Operation → Option QuoteStyle
  | .quoting style => some style
  | _ => none

/-- The style of placeholders that the operation sets. -/
def placeholder? : Operation → Option Placeholder
  | .placeholder style => some style
  | _ => none

/-- The literal for "no limit" that the operation sets. -/
def maxLimit? : Operation → Option String
  | .maxLimit literal => some literal
  | _ => none

/-- What the last of the operations contributes that contributes anything. -/
def last? (part : Operation → Option α) (done : List Operation) : Option α :=
  done.reverse.findSome? part

@[simp] theorem last?_nil (part : Operation → Option α) : last? part [] = none := rfl

@[simp] theorem last?_singleton (part : Operation → Option α) (operation : Operation) :
    last? part [operation] = part operation := by
  simp [last?]

/-- Later operations have precedence. -/
@[simp] theorem last?_append (part : Operation → Option α) (before after : List Operation) :
    last? part (before ++ after) = (last? part after).or (last? part before) := by
  simp [last?, List.findSome?_append]

end Operation

theorem mem_addName {name other : String} {names : List String} :
    other ∈ addName name names ↔ other ∈ names ∨ other = name := by
  unfold addName
  split
  · rename_i hmem
    have hmem : name ∈ names := by simpa using hmem
    constructor
    · exact .inl
    · rintro (h | rfl)
      · exact h
      · exact hmem
  · simp

namespace Builder

variable {b b' b₀ : Builder} {operation : Operation} {done before : List Operation}

/-! ## Tables after a registration -/

/-- A handler is seen by its own name alone. -/
theorem find?_entering (name other : String) (handler : Handler) (statement predicate : Bool) :
    (b.entering name handler statement predicate).registry.find? other =
      if name = other then some handler else b.registry.find? other := by
  by_cases h : name = other
  · subst h
    rw [if_pos rfl]
    exact Registry.find?_of_own (lookup_setEntry_self name handler b.registry.own.entries)
  · simp [entering, Registry.find?, Registry.layers, Layer.get?, List.findSome?_cons,
      lookup_setEntry_of_ne (Ne.symm h), h]

theorem isSome_find?_entering {name other : String} {handler : Handler}
    {statement predicate : Bool} :
    ((b.entering name handler statement predicate).registry.find? other).isSome = true ↔
      other = name ∨ (b.registry.find? other).isSome = true := by
  rw [find?_entering]
  by_cases h : name = other
  · simp [h]
  · simp [h, Ne.symm h]

theorem mem_statements_entering {name other : String} {handler : Handler}
    {statement predicate : Bool} :
    other ∈ (b.entering name handler statement predicate).statements ↔
      other ∈ b.statements ∨ statement = true ∧ other = name := by
  cases statement <;> simp [entering, mem_addName]

theorem mem_predicates_entering {name other : String} {handler : Handler}
    {statement predicate : Bool} :
    other ∈ (b.entering name handler statement predicate).predicates ↔
      other ∈ b.predicates ∨ predicate = true ∧ other = name := by
  cases predicate <;> simp [entering, mem_addName]

/-! ## Folds -/

/-- `b` is what the operations `done`, accepted one after another, make of `b₀`. -/
structure Folds (b b₀ : Builder) (done : List Operation) : Prop where
  resolves : ∀ name, b.registry.find? name =
    (Operation.last? (Operation.handler? name) done).or (b₀.registry.find? name)
  statements : ∀ name, name ∈ b.statements ↔
    name ∈ b₀.statements ∨ ∃ operation ∈ done, operation.makesStatement name = true
  predicates : ∀ name, name ∈ b.predicates ↔
    name ∈ b₀.predicates ∨ ∃ operation ∈ done, operation.makesPredicate name = true
  quoting : b.quoting = (Operation.last? Operation.quoting? done).getD b₀.quoting
  placeholder : b.placeholder = (Operation.last? Operation.placeholder? done).getD b₀.placeholder
  maxLimit : b.maxLimit = (Operation.last? Operation.maxLimit? done).getD b₀.maxLimit

namespace Folds

theorem refl (b : Builder) : b.Folds b [] := by
  constructor <;> simp

/-- One run after another. -/
theorem trans (h : b.Folds b₀ before) (h' : b'.Folds b done) : b'.Folds b₀ (before ++ done) where
  resolves name := by
    rw [h'.resolves, h.resolves, Operation.last?_append, Option.or_assoc]
  statements name := by
    rw [h'.statements, h.statements, or_assoc]
    simp only [List.mem_append, or_and_right, exists_or]
  predicates name := by
    rw [h'.predicates, h.predicates, or_assoc]
    simp only [List.mem_append, or_and_right, exists_or]
  quoting := by rw [h'.quoting, h.quoting, Operation.last?_append, Option.getD_or]
  placeholder := by rw [h'.placeholder, h.placeholder, Operation.last?_append, Option.getD_or]
  maxLimit := by rw [h'.maxLimit, h.maxLimit, Operation.last?_append, Option.getD_or]

/-- A template that is stored changes nothing of this. -/
theorem storing (b : Builder) (name : String) (template : Template) :
    (b.storing name template).Folds b [] :=
  { Folds.refl b with }

/-- A name with a new handler. -/
theorem entering {name : String} {handler : Handler} {statement predicate : Bool}
    (hhandler : ∀ other, operation.handler? other = if name = other then some handler else none)
    (hstatement : ∀ other, (other ∈ b.statements ∨ statement = true ∧ other = name) ↔
      other ∈ b.statements ∨ operation.makesStatement other = true)
    (hpredicate : ∀ other, operation.makesPredicate other = (predicate && name == other))
    (hquoting : operation.quoting? = none) (hplaceholder : operation.placeholder? = none)
    (hmaxLimit : operation.maxLimit? = none) :
    (b.entering name handler statement predicate).Folds b [operation] where
  resolves other := by
    rw [find?_entering, Operation.last?_singleton, hhandler]
    split <;> simp
  statements other := by simp [mem_statements_entering, hstatement]
  predicates other := by simp [mem_predicates_entering, hpredicate, eq_comm (a := other)]
  quoting := by rw [Operation.last?_singleton, hquoting]; rfl
  placeholder := by rw [Operation.last?_singleton, hplaceholder]; rfl
  maxLimit := by rw [Operation.last?_singleton, hmaxLimit]; rfl

/-- An operation that is about no name. -/
theorem unnamed (hregistry : ∀ name, b'.registry.find? name = b.registry.find? name)
    (hstatements : b'.statements = b.statements) (hpredicates : b'.predicates = b.predicates)
    (hhandler : ∀ name, operation.handler? name = none)
    (hstatement : ∀ name, operation.makesStatement name = false)
    (hpredicate : ∀ name, operation.makesPredicate name = false)
    (hquoting : b'.quoting = operation.quoting?.getD b.quoting)
    (hplaceholder : b'.placeholder = operation.placeholder?.getD b.placeholder)
    (hmaxLimit : b'.maxLimit = operation.maxLimit?.getD b.maxLimit) :
    b'.Folds b [operation] where
  resolves name := by rw [Operation.last?_singleton, hregistry, hhandler, Option.none_or]
  statements name := by simp [hstatements, hstatement]
  predicates name := by simp [hpredicates, hpredicate]
  quoting := by rw [Operation.last?_singleton, hquoting]
  placeholder := by rw [Operation.last?_singleton, hplaceholder]
  maxLimit := by rw [Operation.last?_singleton, hmaxLimit]

end Folds

/-- **What one accepted operation does.** -/
theorem Accepts.folds (h : b.Accepts operation b') : b'.Folds b [operation] := by
  cases h with
  | register handler statement predicate operator =>
    refine .entering (fun _ => rfl) (fun other => ?_) (fun _ => rfl) rfl rfl rfl
    simp [Operation.makesStatement, eq_comm (a := other)]
  | request name statement predicate =>
    exact .unnamed (fun _ => rfl) rfl rfl (fun _ => rfl) (fun _ => rfl) (fun _ => rfl) rfl rfl rfl
  | complete handler operator =>
    refine .entering (fun _ => rfl) (fun other => ?_) (fun _ => rfl) rfl rfl rfl
    simp [Operation.makesStatement, eq_comm (a := other)]
  | @registerTemplate name grammar template defaults statement read operator =>
    refine (Folds.storing b name template).trans
      (.entering (fun other => ?_) (fun other => ?_) (fun _ => rfl) rfl rfl rfl)
    · simp [Operation.handler?, Operation.handler?.ofTemplate, read, Except.toOption]
    · simp [Operation.makesStatement, eq_comm (a := other)]
  | @updateTemplate name grammar template defaults stored read operator =>
    refine (Folds.storing b name template).trans
      (.entering (fun other => ?_) (fun other => ?_) (fun _ => rfl) rfl rfl rfl)
    · simp [Operation.handler?, Operation.handler?.ofTemplate, read, Except.toOption]
    -- The name is registered as a statement again only if it is one.
    · have hkept : b.statements.contains name = true ∧ other = name → other ∈ b.statements := by
        rintro ⟨hmem, rfl⟩
        simpa using hmem
      simpa [Operation.makesStatement, storing] using hkept
  | quoting style =>
    exact .unnamed (fun _ => rfl) rfl rfl (fun _ => rfl) (fun _ => rfl) (fun _ => rfl) rfl rfl rfl
  | placeholder style =>
    exact .unnamed (fun _ => rfl) rfl rfl (fun _ => rfl) (fun _ => rfl) (fun _ => rfl) rfl rfl rfl
  | maxLimit literal =>
    exact .unnamed (fun _ => rfl) rfl rfl (fun _ => rfl) (fun _ => rfl) (fun _ => rfl) rfl rfl rfl
  | build =>
    exact .unnamed (fun _ => rfl) rfl rfl (fun _ => rfl) (fun _ => rfl) (fun _ => rfl) rfl rfl rfl

/-! ## Compositions whose tables agree -/

/-- The dialect of a composition, with its registry as it is. -/
def edition (b : Builder) : Dialect :=
  { b.toDialect with registry := b.registry }

/-- What building returns. -/
theorem run_build (hopen : b.built = false) :
    Compose.build.run.run b = (.ok b.closing.edition, b.closing) := by
  unfold Compose.build
  rw [Compose.run_checkOpen, hopen]
  rfl

/-- What holds of every composition: its tables agree with each other, and only its own layer is
open.  A template has a handler unless its name is not an operator's. -/
structure Sound (b : Builder) : Prop where
  consistent : b.Consistent
  operators : ∀ name, (b.registry.find? name).isSome = true → isOperatorName name = true
  statements : ∀ name ∈ b.statements, (b.registry.find? name).isSome = true
  predicates : ∀ name ∈ b.predicates, (b.registry.find? name).isSome = true
  templates : ∀ name, (b.templates.lookup name).isSome = true → isOperatorName name = true →
    (b.registry.find? name).isSome = true
  below : ∀ layer ∈ b.registry.below, layer.frozen = true

namespace Sound

/-- A handler for an operator, with a new template for the operator or without. -/
theorem entering (hb : b.Sound) {name : String} (hname : isOperatorName name = true)
    (handler : Handler) (statement predicate : Bool) {templates : List (String × Template)}
    (htemplates : ∀ other, other ≠ name → templates.lookup other = b.templates.lookup other) :
    (Builder.entering { b with templates } name handler statement predicate).Sound where
  consistent := hb.consistent
  operators other h := by
    rcases isSome_find?_entering.1 h with rfl | hold
    · exact hname
    · exact hb.operators other hold
  statements other h := by
    rw [isSome_find?_entering]
    rcases mem_statements_entering.1 h with hold | ⟨-, heq⟩
    · exact .inr (hb.statements other hold)
    · exact .inl heq
  predicates other h := by
    rw [isSome_find?_entering]
    rcases mem_predicates_entering.1 h with hold | ⟨-, heq⟩
    · exact .inr (hb.predicates other hold)
    · exact .inl heq
  templates other h hoperator := by
    rw [isSome_find?_entering]
    by_cases heq : other = name
    · exact .inl heq
    · refine .inr (hb.templates other ?_ hoperator)
      rw [← htemplates other heq]
      exact h
  below := hb.below

/-- A template whose name is not an operator's needs no handler. -/
theorem storing (hb : b.Sound) {name : String} (hname : isOperatorName name = false)
    (template : Template) : (b.storing name template).Sound where
  consistent := hb.consistent
  operators := hb.operators
  statements := hb.statements
  predicates := hb.predicates
  templates other h hoperator := by
    have hne : other ≠ name := by
      rintro rfl
      rw [hname] at hoperator
      cases hoperator
    refine hb.templates other ?_ hoperator
    rw [← lookup_setEntry_of_ne hne template b.templates]
    exact h
  below := hb.below

end Sound

theorem Accepts.sound (h : b.Accepts operation b') (hb : b.Sound) : b'.Sound := by
  cases h with
  | register handler statement predicate operator =>
    exact hb.entering operator handler statement predicate fun _ _ => rfl
  | request name statement predicate => exact hb
  | complete handler operator => exact hb.entering operator handler _ _ fun _ _ => rfl
  | @registerTemplate name grammar template defaults statement read operator =>
    exact hb.entering operator _ _ _ fun other hne => lookup_setEntry_of_ne hne _ _
  | @updateTemplate name grammar template defaults stored read operator =>
    exact hb.entering operator _ _ _ fun other hne => lookup_setEntry_of_ne hne _ _
  | quoting style => exact { hb with }
  | placeholder style => exact { hb with }
  | maxLimit literal => exact { hb with }
  | build => exact { hb with consistent := rfl }

theorem Accepts.consistent (h : b.Accepts operation b') (hb : b.Consistent) : b'.Consistent := by
  cases h with
  | build => rfl
  | _ => exact hb

/-- Only the composition's own layer changes. -/
theorem Accepts.below_eq (h : b.Accepts operation b') :
    b'.registry.below = b.registry.below := by
  cases h <;> rfl

/-- A template is left behind by names alone that are not an operator's. -/
theorem isOperatorName_of_leftover? {left : String × Template}
    (h : operation.leftover? b = some left) : isOperatorName left.1 = false := by
  have hleft : ∀ name grammar, Operation.leftover?.left b name grammar = some left →
      isOperatorName left.1 = false := by
    intro name grammar h
    unfold Operation.leftover?.left at h
    split at h
    · cases h
    · rename_i hname
      obtain ⟨template, -, rfl⟩ := Option.map_eq_some_iff.1 h
      have hname : b.built = false ∧ isOperatorName name = false := by simpa using hname
      exact hname.2
  cases operation with
  | registerTemplate name grammar defaults statement => exact hleft name grammar h
  | updateTemplate name grammar defaults =>
    simp only [Operation.leftover?] at h
    split at h
    · exact hleft name grammar h
    · cases h
  | _ => cases h

/-- A composition from nothing. -/
theorem start_sound (name : String) : (start name none).Sound where
  consistent := rfl
  operators _ h := by cases h
  statements _ h := by cases h
  predicates _ h := by cases h
  templates _ h := by cases h
  below _ h := by cases h

/-- A composition on top of the dialect of another one that is built. -/
theorem Sound.start (hb : b.Sound) (hbuilt : b.built = true) (name : String) :
    (Builder.start name (some b.edition)).Sound where
  consistent := rfl
  operators := hb.operators
  statements := hb.statements
  predicates := hb.predicates
  templates := hb.templates
  below layer hlayer := by
    rcases List.mem_cons.1 hlayer with rfl | hbelow
    · exact hb.consistent.trans hbuilt
    · exact hb.below layer hbelow

/-! ## Performing one operation after another -/

/-- The operation, if it is accepted. -/
def accepted (b : Builder) (operation : Operation) : List Operation :=
  match (b.perform operation).1 with
  | .ok _ => [operation]
  | .error _ => []

/-- Perform operations in order, those that fail included. -/
def performAll (b : Builder) (operations : List Operation) : Builder :=
  operations.foldl (fun b operation => (b.perform operation).2) b

/-- The operations that are accepted among those that are performed in order. -/
def acceptedAll (b : Builder) : List Operation → List Operation
  | [] => []
  | operation :: rest => b.accepted operation ++ acceptedAll (b.perform operation).2 rest

theorem performAll_append (b : Builder) (before after : List Operation) :
    b.performAll (before ++ after) = (b.performAll before).performAll after :=
  List.foldl_append

/-- **What one operation does**, accepted or not. -/
theorem Consistent.perform (hb : b.Consistent) (operation : Operation) :
    (b.perform operation).2.Consistent ∧ (b.perform operation).2.Folds b (b.accepted operation) ∧
      (b.perform operation).2.registry.below = b.registry.below := by
  unfold accepted
  rcases perform_cases hb operation with ⟨b', heq, -, haccepts⟩ | ⟨fault, heq⟩
  · rw [heq]
    exact ⟨haccepts.consistent hb, haccepts.folds, haccepts.below_eq⟩
  · rw [heq]
    cases operation.leftover? b with
    | none => exact ⟨hb, .refl b, rfl⟩
    | some left => exact ⟨hb, .storing b left.1 left.2, rfl⟩

/-- **What a composition adds up to.** -/
theorem Consistent.performAll (hb : b.Consistent) (operations : List Operation) :
    (b.performAll operations).Consistent ∧
      (b.performAll operations).Folds b (b.acceptedAll operations) ∧
        (b.performAll operations).registry.below = b.registry.below := by
  induction operations generalizing b with
  | nil => exact ⟨hb, .refl b, rfl⟩
  | cons operation rest ih =>
    obtain ⟨hconsistent, hfolds, hbelow⟩ := hb.perform operation
    obtain ⟨hconsistentRest, hfoldsRest, hbelowRest⟩ := ih hconsistent
    exact ⟨hconsistentRest, hfolds.trans hfoldsRest, hbelowRest.trans hbelow⟩

/-- Tables that agree stay so, whether or not the operation is accepted. -/
theorem Sound.perform (hb : b.Sound) (operation : Operation) : (b.perform operation).2.Sound := by
  rcases perform_cases hb.consistent operation with ⟨b', heq, -, haccepts⟩ | ⟨fault, heq⟩
  · rw [heq]
    exact haccepts.sound hb
  · rw [heq]
    cases hleft : operation.leftover? b with
    | none => exact hb
    | some left => exact hb.storing (isOperatorName_of_leftover? hleft) left.2

theorem Sound.performAll (hb : b.Sound) (operations : List Operation) :
    (b.performAll operations).Sound := by
  induction operations generalizing b with
  | nil => exact hb
  | cons operation rest ih => exact ih (hb.perform operation)

/-- Only operations that are performed are accepted. -/
theorem mem_of_mem_acceptedAll {operations : List Operation}
    (h : operation ∈ b.acceptedAll operations) : operation ∈ operations := by
  induction operations generalizing b with
  | nil => exact h
  | cons first rest ih =>
    rcases List.mem_append.1 h with hfirst | hrest
    · unfold accepted at hfirst
      split at hfirst
      · exact List.mem_cons.2 (.inl (List.mem_singleton.1 hfirst))
      · cases hfirst
    · exact List.mem_cons_of_mem _ (ih hrest)

/-- A composition that is closed stays as it is. -/
theorem performAll_of_built (hb : b.Consistent) (hbuilt : b.built = true)
    (operations : List Operation) : b.performAll operations = b := by
  induction operations with
  | nil => rfl
  | cons operation rest ih =>
    obtain ⟨fault, heq⟩ := perform_of_built hb hbuilt operation
    change ((b.perform operation).2).performAll rest = b
    rw [heq]
    exact ih

end Builder

end QueryTree
