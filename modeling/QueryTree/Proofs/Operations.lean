import QueryTree.Proofs.Composition

/-!
# What an operation of a composition does

An operation of a composition either is accepted, and then leaves a builder that can be written
down, or fails.  Everything that is said of compositions follows from what one operation does.

* `Operation` is an operation as it is asked for, and `Builder.perform` performs it.
* **`Builder.Accepts`** lists the operations that are accepted and the builder after each of them.
* `Operation.leftover?` is the template that a failing operation leaves behind.
* **`perform_cases`** : an operation is accepted in one of these ways, or it fails and leaves no
  more than that template.
* `perform_of_built` : nothing is accepted once the dialect is built.
-/

namespace QueryTree

/-- An operation of a composition.  A registration whose handler is still to come is asked for by
`request`; `complete` supplies the handler, at any later time. -/
inductive Operation where
  | register (name : String) (handler : Handler) (statement predicate : Bool)
  | request (name : String) (statement predicate : Bool)
  | complete (registration : Registration) (handler : Handler)
  | registerTemplate (name : String) (grammar : Value) (defaults : Fields) (statement : Bool)
  | updateTemplate (name : String) (grammar : Value) (defaults : Fields)
  | quoting (style : QuoteStyle)
  | placeholder (style : Placeholder)
  | maxLimit (literal : String)
  | build

/-- The operation on a composition, its result left out. -/
def Operation.compose : Operation → Compose Unit
  | .register name handler statement predicate => Compose.register name handler statement predicate
  | .request name statement predicate => do
    let _ ← Compose.request name statement predicate
  | .complete registration handler => Compose.complete registration handler
  | .registerTemplate name grammar defaults statement => do
    let _ ← Compose.registerTemplate name (Template.ofValue grammar) defaults statement
  | .updateTemplate name grammar defaults => do
    let _ ← Compose.updateTemplate name (Template.ofValue grammar) defaults
  | .quoting style => Compose.quoting style
  | .placeholder style => Compose.placeholder style
  | .maxLimit literal => Compose.maxLimit literal
  | .build => do
    let _ ← Compose.build

namespace Builder

/-- Perform an operation: whether it failed, and the composition after it. -/
def perform (b : Builder) (operation : Operation) : Except ComposeFault Unit × Builder :=
  operation.compose.run.run b

/-! ## The builders after an operation -/

/-- The composition with a handler for `name`. -/
def entering (b : Builder) (name : String) (handler : Handler) (statement predicate : Bool) :
    Builder :=
  { b with
    registry :=
      { b.registry with
        own := { b.registry.own with entries := setEntry name handler b.registry.own.entries } }
    statements := if statement then addName name b.statements else b.statements
    predicates := if predicate then addName name b.predicates else b.predicates }

/-- The composition with a template for `name`. -/
def storing (b : Builder) (name : String) (template : Template) : Builder :=
  { b with templates := setEntry name template b.templates }

/-- The composition once its dialect is built. -/
def closing (b : Builder) : Builder :=
  { b with built := true, registry := { b.registry with own := b.registry.own.freeze } }

/-- The operation is accepted at `b` and leaves `b'`. -/
inductive Accepts (b : Builder) : Operation → Builder → Prop where
  | register {name : String} (handler : Handler) (statement predicate : Bool)
      (operator : isOperatorName name = true) :
      Accepts b (.register name handler statement predicate)
        (b.entering name handler statement predicate)
  | request (name : String) (statement predicate : Bool) :
      Accepts b (.request name statement predicate) b
  | complete {registration : Registration} (handler : Handler)
      (operator : isOperatorName registration.name = true) :
      Accepts b (.complete registration handler)
        (b.entering registration.name handler registration.statement registration.predicate)
  | registerTemplate {name : String} {grammar : Value} {template : Template} (defaults : Fields)
      (statement : Bool) (read : Template.ofValue grammar name = .ok template)
      (operator : isOperatorName name = true) :
      Accepts b (.registerTemplate name grammar defaults statement)
        ((b.storing name template).entering name (template.handler defaults) statement false)
  | updateTemplate {name : String} {grammar : Value} {template : Template} (defaults : Fields)
      (stored : (b.templates.lookup name).isSome = true)
      (read : Template.ofValue grammar name = .ok template)
      (operator : isOperatorName name = true) :
      Accepts b (.updateTemplate name grammar defaults)
        ((b.storing name template).entering name (template.handler defaults)
          (b.statements.contains name) false)
  | quoting (style : QuoteStyle) : Accepts b (.quoting style) { b with quoting := style }
  | placeholder (style : Placeholder) :
      Accepts b (.placeholder style) { b with placeholder := style }
  | maxLimit (literal : String) : Accepts b (.maxLimit literal) { b with maxLimit := literal }
  | build : Accepts b .build b.closing

/-- The registry is frozen exactly if the dialect is built. -/
def Consistent (b : Builder) : Prop :=
  b.registry.own.frozen = b.built

end Builder

/-! ## Performing -/

namespace Compose

variable {α : Type} {b : Builder}

/-- A builder that was built is closed to every operation, and stays as it is. -/
theorem run_checkOpen (what : String) (next : Unit → Compose α) (b : Builder) :
    (checkOpen what >>= next).run.run b =
      if b.built then (.error (.closed what b.name), b) else (next ()).run.run b := by
  have hcheck : (checkOpen what).run.run b =
      if b.built then (.error (.closed what b.name), b) else (.ok (), b) := by
    change (if b.built then throw (.closed what b.name) else pure () : Compose Unit).run.run b = _
    cases b.built <;> rfl
  rw [ExceptT.run_bind, StateT.run_bind, hcheck]
  cases b.built <;> rfl

theorem run_get (next : Builder → Compose α) (b : Builder) :
    (get >>= next).run.run b = (next b).run.run b := rfl

/-- Registering an operator checks its name, and puts it on top of what is there. -/
theorem run_register (hb : b.Consistent) (name : String) (handler : Handler)
    (statement predicate : Bool) :
    (register name handler statement predicate).run.run b =
      if b.built then (.error (.closed name b.name), b)
      else if isOperatorName name then (.ok (), b.entering name handler statement predicate)
      else (.error (.registry (.badName (.str name))), b) := by
  unfold register
  rw [run_checkOpen]
  split
  · rfl
  · rename_i hopen
    have hfrozen : b.registry.own.frozen = false := hb.trans (by simpa using hopen)
    rw [run_get, Layer.register_open hfrozen]
    cases isOperatorName name <;> rfl

/-- The template is stored before the name is looked at. -/
theorem run_registerTemplate (hb : b.Consistent) (name : String)
    (read : String → Except TemplateFault Template) (defaults : Fields) (statement : Bool) :
    (registerTemplate name read defaults statement).run.run b =
      if b.built then (.error (.closed name b.name), b)
      else
        match read name with
        | .error fault => (.error (.template fault), b)
        | .ok template =>
          if isOperatorName name then
            (.ok template,
              (b.storing name template).entering name (template.handler defaults) statement false)
          else (.error (.registry (.badName (.str name))), b.storing name template) := by
  unfold registerTemplate
  rw [run_checkOpen]
  split
  · rfl
  · rename_i hopen
    cases read name with
    | error fault => rfl
    | ok template =>
      have hstored := run_register (b := b.storing name template) hb name
        (template.handler defaults) statement false
      rw [if_neg (show ¬ (b.storing name template).built = true from hopen)] at hstored
      change ((do register name (template.handler defaults) statement false
                  return template) : Compose Template).run.run (b.storing name template) = _
      rw [ExceptT.run_bind, StateT.run_bind, hstored]
      cases isOperatorName name <;> rfl

end Compose

/-- The template that an operation leaves behind if it fails at `b`: its grammar can be read and is
stored, but its name is not an operator's. -/
def Operation.leftover? (b : Builder) : Operation → Option (String × Template)
  | .registerTemplate name grammar _ _ => left name grammar
  | .updateTemplate name grammar _ =>
    if (b.templates.lookup name).isSome then left name grammar else none
  | _ => none
where
  /-- The template of a name that is not an operator's. -/
  left (name : String) (grammar : Value) : Option (String × Template) :=
    if b.built || isOperatorName name then none
    else (Template.ofValue grammar name).toOption.map fun template => (name, template)

namespace Builder

section

variable {b : Builder} (hb : b.Consistent)

/-- Asking for an operator whose handler comes later changes nothing. -/
theorem perform_request (name : String) (statement predicate : Bool) :
    b.perform (.request name statement predicate) =
      if b.built then (.error (.closed name b.name), b) else (.ok (), b) := by
  change (Compose.request name statement predicate >>= fun _ => pure ()).run.run b = _
  unfold Compose.request
  rw [bind_assoc, Compose.run_checkOpen]
  rfl

/-- A setting is replaced, as long as the builder is open. -/
theorem perform_quoting (style : QuoteStyle) :
    b.perform (.quoting style) =
      if b.built then (.error (.closed "quoter" b.name), b)
      else (.ok (), { b with quoting := style }) :=
  Compose.run_checkOpen _ _ _

theorem perform_placeholder (style : Placeholder) :
    b.perform (.placeholder style) =
      if b.built then (.error (.closed "placeholder" b.name), b)
      else (.ok (), { b with placeholder := style }) :=
  Compose.run_checkOpen _ _ _

theorem perform_maxLimit (literal : String) :
    b.perform (.maxLimit literal) =
      if b.built then (.error (.closed "max_limit" b.name), b)
      else (.ok (), { b with maxLimit := literal }) :=
  Compose.run_checkOpen _ _ _

/-- Building closes the builder. -/
theorem perform_build :
    b.perform .build =
      if b.built then (.error (.closed "build" b.name), b) else (.ok (), b.closing) := by
  change (Compose.build >>= fun _ => pure ()).run.run b = _
  unfold Compose.build
  rw [bind_assoc, Compose.run_checkOpen]
  rfl

include hb

/-- A template is stored before its name is checked, so that a name that is refused leaves it
behind. -/
theorem perform_registerTemplate (name : String) (grammar : Value) (defaults : Fields)
    (statement : Bool) :
    b.perform (.registerTemplate name grammar defaults statement) =
      if b.built then (.error (.closed name b.name), b)
      else
        match Template.ofValue grammar name with
        | .error fault => (.error (.template fault), b)
        | .ok template =>
          if isOperatorName name then
            (.ok (),
              (b.storing name template).entering name (template.handler defaults) statement false)
          else (.error (.registry (.badName (.str name))), b.storing name template) := by
  change (Compose.registerTemplate name (Template.ofValue grammar) defaults statement >>=
    fun _ => pure ()).run.run b = _
  rw [ExceptT.run_bind, StateT.run_bind, Compose.run_registerTemplate hb]
  cases b.built with
  | true => rfl
  | false =>
    cases Template.ofValue grammar name with
    | error fault => rfl
    | ok template => cases isOperatorName name <;> rfl

omit hb in
/-- Only a template that is there can be updated, and it stays a statement if it was one. -/
theorem perform_updateTemplate (name : String) (grammar : Value) (defaults : Fields) :
    b.perform (.updateTemplate name grammar defaults) =
      if (b.templates.lookup name).isSome then
        b.perform (.registerTemplate name grammar defaults (b.statements.contains name))
      else (.error (.noTemplate name b.name), b) := by
  change ((if (b.templates.lookup name).isNone then throw (.noTemplate name b.name)
    else Compose.registerTemplate name (Template.ofValue grammar) defaults
      (b.statements.contains name)) >>= fun _ => pure () : Compose Unit).run.run b = _
  cases b.templates.lookup name <;> rfl

omit hb in
/-- An operation that only asks whether the composition is open. -/
theorem perform_cases_of_open {operation : Operation} {what : String} {b' : Builder}
    (hperform : b.perform operation =
      if b.built then (.error (.closed what b.name), b) else (.ok (), b'))
    (hleft : operation.leftover? b = none) (haccepts : b.Accepts operation b') :
    (∃ b', b.perform operation = (.ok (), b') ∧ b.built = false ∧ b.Accepts operation b') ∨
      ∃ fault, b.perform operation =
        (.error fault, (operation.leftover? b).elim b fun left => b.storing left.1 left.2) := by
  rw [hperform, hleft]
  split
  · exact .inr ⟨_, rfl⟩
  · rename_i hopen
    exact .inl ⟨b', rfl, by simpa using hopen, haccepts⟩

/-- An operation is accepted, or it fails and leaves a template behind at most. -/
theorem perform_cases (operation : Operation) :
    (∃ b', b.perform operation = (.ok (), b') ∧ b.built = false ∧ b.Accepts operation b') ∨
      ∃ fault, b.perform operation =
        (.error fault, (operation.leftover? b).elim b fun left => b.storing left.1 left.2) := by
  have hentered : ∀ name handler statement predicate,
      b.perform (.register name handler statement predicate) = _ :=
    Compose.run_register hb
  have hstored := perform_registerTemplate hb
  cases operation with
  | register name handler statement predicate =>
    rw [hentered]
    cases b.built with
    | true => exact .inr ⟨_, rfl⟩
    | false =>
      cases hname : isOperatorName name with
      | true => exact .inl ⟨_, rfl, rfl, .register handler statement predicate hname⟩
      | false => exact .inr ⟨_, rfl⟩
  | request name statement predicate =>
    exact perform_cases_of_open (perform_request name statement predicate) rfl
      (.request name statement predicate)
  | complete registration handler =>
    rw [show b.perform (.complete registration handler) = _ from
      hentered registration.name handler registration.statement registration.predicate]
    cases b.built with
    | true => exact .inr ⟨_, rfl⟩
    | false =>
      cases hname : isOperatorName registration.name with
      | true => exact .inl ⟨_, rfl, rfl, .complete handler hname⟩
      | false => exact .inr ⟨_, rfl⟩
  | registerTemplate name grammar defaults statement =>
    rw [hstored, Operation.leftover?, Operation.leftover?.left]
    cases b.built with
    | true => exact .inr ⟨_, rfl⟩
    | false =>
      cases hread : Template.ofValue grammar name with
      | error fault => cases isOperatorName name <;> exact .inr ⟨_, rfl⟩
      | ok template =>
        cases hname : isOperatorName name with
        | true => exact .inl ⟨_, rfl, rfl, .registerTemplate defaults statement hread hname⟩
        | false => exact .inr ⟨_, rfl⟩
  | updateTemplate name grammar defaults =>
    rw [perform_updateTemplate, hstored, Operation.leftover?, Operation.leftover?.left]
    cases hlookup : (b.templates.lookup name).isSome with
    | false => exact .inr ⟨_, rfl⟩
    | true =>
      cases b.built with
      | true => exact .inr ⟨_, rfl⟩
      | false =>
        cases hread : Template.ofValue grammar name with
        | error fault => cases isOperatorName name <;> exact .inr ⟨_, rfl⟩
        | ok template =>
          cases hname : isOperatorName name with
          | true => exact .inl ⟨_, rfl, rfl, .updateTemplate defaults hlookup hread hname⟩
          | false => exact .inr ⟨_, rfl⟩
  | quoting style =>
    exact perform_cases_of_open (perform_quoting style) rfl (.quoting style)
  | placeholder style =>
    exact perform_cases_of_open (perform_placeholder style) rfl (.placeholder style)
  | maxLimit literal =>
    exact perform_cases_of_open (perform_maxLimit literal) rfl (.maxLimit literal)
  | build => exact perform_cases_of_open perform_build rfl .build

/-- A failing operation changes nothing but the template that it leaves behind. -/
theorem eq_of_perform_error {operation : Operation} {fault : ComposeFault} {b' : Builder}
    (h : b.perform operation = (.error fault, b')) :
    b' = (operation.leftover? b).elim b fun left => b.storing left.1 left.2 := by
  rcases perform_cases hb operation with ⟨b₁, heq, -, -⟩ | ⟨fault', heq⟩
  · cases heq.symm.trans h
  · cases heq.symm.trans h
    rfl

/-- Once the dialect is built, every operation fails and changes nothing. -/
theorem perform_of_built (hbuilt : b.built = true) (operation : Operation) :
    ∃ fault, b.perform operation = (.error fault, b) := by
  rcases perform_cases hb operation with ⟨b₁, -, hopen, -⟩ | ⟨fault, heq⟩
  · rw [hbuilt] at hopen
    cases hopen
  · refine ⟨fault, heq.trans ?_⟩
    have hnothing : operation.leftover? b = none := by
      cases operation <;> simp [Operation.leftover?, Operation.leftover?.left, hbuilt]
    rw [hnothing]
    rfl

end

end Builder

end QueryTree
