import QueryTree.Dialect.Builder
import QueryTree.Registry.Lemmas

/-!
# How a composition goes on

Each operation of a composition that succeeds leaves a builder that can be written down.  Chained
along a composition, these equations give the dialect that it stands for without running it.

* `Builder.holding` is a builder with other tables, its name and its settings kept.
* `Compose.Does` : an operation succeeds at a builder, with its result and the builder after it.
* **`register_does`**, **`registerTemplate_does`**, **`updateTemplate_does`** : what registering a
  name does to the tables, if the composition itself has not registered the name before.
* `registerAll_does` : several plain operators are appended in order.
-/

namespace QueryTree

/-! ## Entries that are new -/

/-- A new name goes to the end. -/
theorem setEntry_of_not_mem {α : Type} {name : String} (handler : α) {entries : List (String × α)}
    (hnew : name ∉ entries.map Prod.fst) :
    setEntry name handler entries = entries ++ [(name, handler)] := by
  induction entries with
  | nil => rfl
  | cons first rest ih =>
    obtain ⟨key, old⟩ := first
    simp only [List.map_cons, List.mem_cons, not_or] at hnew
    have hkey : ¬ key = name := fun h => hnew.1 h.symm
    simp only [setEntry, if_neg hkey, ih hnew.2, List.cons_append]

namespace Builder

/-- A composition that still accepts operations. -/
def IsOpen (b : Builder) : Prop :=
  b.built = false ∧ b.registry.own.frozen = false

/-- The composition with other tables. -/
def holding (b : Builder) (entries : List (String × Handler)) (templates : List (String × Template))
    (statements predicates : List String) : Builder :=
  { b with
    registry := { b.registry with own := { b.registry.own with entries } }
    templates
    statements
    predicates }

end Builder

/-! ## Operations -/

namespace Compose

variable {α β : Type}

/-- The operation succeeds at `b` with `a` and leaves `b'`. -/
def Does (operation : Compose α) (b : Builder) (a : α) (b' : Builder) : Prop :=
  operation.run.run b = (.ok a, b')

/-- One operation after another. -/
theorem Does.bind {operation : Compose α} {next : α → Compose β} {b b' b'' : Builder} {a : α}
    {c : β} (h : Does operation b a b') (hnext : Does (next a) b' c b'') :
    Does (operation >>= next) b c b'' := by
  unfold Does at h hnext ⊢
  simp only [ExceptT.run_bind, StateT.run_bind, h]
  exact hnext

theorem does_get (b : Builder) : Does get b b b := rfl

theorem does_modify (change : Builder → Builder) (b : Builder) :
    Does (modify change) b () (change b) := rfl

/-- A builder that is open is let through. -/
theorem checkOpen_does {b : Builder} (hopen : b.built = false) (what : String) :
    Does (checkOpen what) b () b := by
  refine (does_get b).bind ?_
  rw [hopen]
  rfl

section Tables

variable {b : Builder} (hopen : b.IsOpen) {name : String} (hname : isOperatorName name = true)
  {entries : List (String × Handler)} (hnew : name ∉ entries.map Prod.fst)
  {templates : List (String × Template)} {statements predicates : List String}

include hopen

include hname hnew in
/-- Registering a new name on an open composition. -/
theorem register_does (handler : Handler) (statement predicate : Bool) :
    Does (register name handler statement predicate)
      (b.holding entries templates statements predicates) ()
      (b.holding (entries ++ [(name, handler)]) templates
        (if statement then addName name statements else statements)
        (if predicate then addName name predicates else predicates)) := by
  have hfrozen : (Layer.mk b.registry.own.dialect entries b.registry.own.frozen).frozen = false :=
    hopen.2
  have hlayer := Layer.register_open hfrozen name handler
  rw [if_pos hname, setEntry_of_not_mem handler hnew] at hlayer
  refine (checkOpen_does (b := b.holding entries templates statements predicates) hopen.1
    name).bind ((does_get _).bind ?_)
  simp only [Builder.holding]
  rw [hlayer]
  rfl

/-- Several new plain operators are appended in order. -/
theorem registerAll_does (operators : List (String × Handler))
    (hnames : ∀ entry ∈ operators, isOperatorName entry.1 = true)
    (hfresh : (entries.map Prod.fst ++ operators.map Prod.fst).Nodup) :
    Does (registerAll operators) (b.holding entries templates statements predicates) ()
      (b.holding (entries ++ operators) templates statements predicates) := by
  induction operators generalizing entries with
  | nil =>
    rw [List.append_nil]
    rfl
  | cons first rest ih =>
    obtain ⟨name, handler⟩ := first
    have hnew : name ∉ entries.map Prod.fst := by
      intro hmem
      exact (List.nodup_append.1 hfresh).2.2 name hmem name (by simp) rfl
    have hrest : Does (registerAll rest)
        (b.holding (entries ++ [(name, handler)]) templates statements predicates) () _ :=
      ih (fun entry hentry => hnames entry (List.mem_cons_of_mem _ hentry))
        (by simpa [List.append_assoc] using hfresh)
    rw [List.append_assoc] at hrest
    exact (register_does hopen (hnames _ List.mem_cons_self) hnew handler false false).bind hrest

include hname hnew in
/-- Reading a template and registering it under a new name. -/
theorem registerTemplate_does {read : String → Except TemplateFault Template} (template : Template)
    (hread : read name = .ok template) (defaults : Fields) (statement : Bool) :
    Does (registerTemplate name read defaults statement)
      (b.holding entries templates statements predicates) template
      (b.holding (entries ++ [(name, template.handler defaults)]) (setEntry name template templates)
        (if statement then addName name statements else statements) predicates) := by
  refine (checkOpen_does (b := b.holding entries templates statements predicates) hopen.1
    name).bind ?_
  rw [hread]
  refine (does_modify _ _).bind ?_
  exact (register_does hopen hname hnew (template.handler defaults) statement false).bind rfl

include hname hnew in
/-- Replacing a template of the base: the operator stays a statement if it was one. -/
theorem updateTemplate_does {read : String → Except TemplateFault Template} (template : Template)
    (hold : (templates.lookup name).isNone = false) (hread : read name = .ok template)
    (defaults : Fields) :
    Does (updateTemplate name read defaults)
      (b.holding entries templates statements predicates) template
      (b.holding (entries ++ [(name, template.handler defaults)]) (setEntry name template templates)
        (if statements.contains name then addName name statements else statements) predicates) := by
  refine (does_get _).bind ?_
  simp only [Builder.holding, hold]
  exact registerTemplate_does hopen hname hnew template hread defaults (statements.contains name)

end Tables

/-- The dialect of a composition that succeeds. -/
theorem dialectOf_eq {name : String} {base : Option Dialect} {operations : Compose Unit}
    {b : Builder} (h : Does operations (Builder.start name base) () b) :
    dialectOf name base operations = b.toDialect := by
  unfold dialectOf
  unfold Does at h
  rw [h]

end Compose

end QueryTree
