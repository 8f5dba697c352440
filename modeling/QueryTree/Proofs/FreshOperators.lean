import QueryTree.Proofs.Extension
import QueryTree.Proofs.History

/-!
# Operators that are new to a dialect

A dialect of the library can be extended by operators that it does not have, with any handlers and
templates.  Queries that it compiles never reach them: a key with a meaning of its own, such as a
connective or an alias, is looked at before operators are, and an operator that is called has to be
one that the dialect has.

* **`Dialect.coveredBy_self`** : every operator of a dialect of the library is covered by itself in
  another dialect.
* `Operation.IsFresh` says that an operation is about a new operator.
* **`compile_of_fresh_operators`** : a dialect that is composed of such operations compiles every
  query of its base to the same text and values.
-/

namespace QueryTree

/-! ## The operators of the library -/

section

variable {known : String → Prop}

namespace Operator

/-- What a result is written to is covered by itself in any dialect. -/
theorem target_coveredBy : target.CoveredBy known target := by
  intro ctx other call h
  simp only [target]
  split
  · exact .refl _
  · split
    · exact .refl _
    · split
      · exact .refl _
      · exact .refuse _ _
  · exact .refl _

theorem reference_coveredBy : reference.CoveredBy known reference :=
  .of_moved fun ctx other call => by
    simp only [reference, nameList_moved]
    rfl

theorem check_coveredBy : check.CoveredBy known check :=
  fun _ _ call h => condition_coveredBy h call.operand none

end Operator

open Operator in
/-- The operators of MySQL do the same in an extended dialect. -/
theorem Mysql.coveredBy_self : ∀ entry ∈ table, entry.2.CoveredBy known entry.2 := by
  simp only [table, operators, List.forall_mem_append, List.forall_mem_cons]
  refine ⟨⟨Template.coveredBy_of_restrict rfl rfl (by decide),
    Template.coveredBy_of_restrict rfl rfl (by decide), by simp⟩, target_coveredBy, ?_⟩
  exact ⟨.of_moved fun _ _ _ => rfl, .of_moved fun _ _ _ => rfl, .of_moved fun _ _ _ => rfl,
    .of_moved fun _ _ _ => rfl, .of_moved fun _ _ _ => rfl, by simp⟩

open Operator in
/-- So do those of PostgreSQL. -/
theorem Postgres.coveredBy_self : ∀ entry ∈ table, entry.2.CoveredBy known entry.2 := by
  simp only [table, operators, List.forall_mem_append, List.forall_mem_cons]
  refine ⟨⟨Template.coveredBy_of_restrict rfl rfl (by decide),
    Template.coveredBy_of_restrict rfl rfl (by decide),
    Template.coveredBy_of_restrict rfl rfl (by decide), by simp⟩, ?_⟩
  refine ⟨comparison_coveredBy _ _, .of_moved fun _ _ _ => rfl, .of_moved fun _ _ _ => rfl,
    .of_moved fun _ _ _ => rfl, check_coveredBy, reference_coveredBy, ?_⟩
  exact ⟨.of_moved fun _ _ _ => rfl, .of_moved fun _ _ _ => rfl, by simp⟩

/-- Every operator of a dialect of the library is covered by itself. -/
theorem Dialect.coveredBy_self {d : Dialect} (hd : d ∈ library) {name : String} {handler : Handler}
    (h : d.registry.find? name = some handler) : handler.CoveredBy known handler := by
  rcases List.mem_append.1 (find?_mem hd h) with hshared | hpostgres
  · rcases List.mem_append.1 hshared with hansi | hmysql
    · exact Ansi.coveredBy_self _ hansi
    · exact Mysql.coveredBy_self _ hmysql
  · exact Postgres.coveredBy_self _ hpostgres

end

/-! ## Operations on new operators -/

/-- The operation gives a handler to a name that the dialect does not have, or asks for that. -/
def Operation.IsFresh (d : Dialect) : Operation → Prop
  | .register name _ _ _ => d.registry.find? name = none
  | .request name _ _ => d.registry.find? name = none
  | .complete registration _ => d.registry.find? registration.name = none
  | .registerTemplate name _ _ _ => d.registry.find? name = none
  | _ => False

namespace Operation.IsFresh

variable {d : Dialect} {operation : Operation} {name : String}

/-- It says nothing of the operators that the dialect has. -/
theorem silent (h : operation.IsFresh d) (hname : d.Knows name) :
    operation.handler? name = none ∧ operation.makesStatement name = false ∧
      operation.makesPredicate name = false := by
  have hne : ∀ {other : String}, d.registry.find? other = none → other ≠ name := by
    rintro other hother rfl
    simp [Dialect.Knows, hother] at hname
  cases operation with
  | register other handler statement predicate =>
    simp [handler?, makesStatement, makesPredicate, hne h]
  | request other statement predicate => exact ⟨rfl, rfl, rfl⟩
  | complete registration handler =>
    simp [handler?, makesStatement, makesPredicate, hne h]
  | registerTemplate other grammar defaults statement =>
    simp [handler?, handler?.ofTemplate, makesStatement, makesPredicate, hne h]
  | _ => exact h.elim

/-- It leaves the settings alone, and the composition open. -/
theorem keeps_settings (h : operation.IsFresh d) :
    operation.quoting? = none ∧ operation.placeholder? = none ∧ operation.maxLimit? = none ∧
      operation ≠ .build := by
  cases operation with
  | quoting style | placeholder style | maxLimit literal | build => exact h.elim
  | _ => exact ⟨rfl, rfl, rfl, by simp⟩

end Operation.IsFresh

theorem Operation.last?_eq_none {α : Type} {part : Operation → Option α} {done : List Operation}
    (h : ∀ operation ∈ done, part operation = none) : last? part done = none := by
  simpa [last?] using h

namespace Builder

variable {b b' : Builder}

/-- Only building closes a composition. -/
theorem built_performAll (hb : b.Consistent) {operations : List Operation}
    (hoperations : ∀ operation ∈ operations, operation ≠ .build) :
    (b.performAll operations).built = b.built := by
  induction operations generalizing b with
  | nil => rfl
  | cons operation rest ih =>
    obtain ⟨hconsistent, -, -⟩ := hb.perform operation
    obtain ⟨hfirst, hrest⟩ := List.forall_mem_cons.1 hoperations
    refine (ih hconsistent hrest).trans ?_
    rcases perform_cases hb operation with ⟨b', heq, -, haccepts⟩ | ⟨fault, heq⟩
    · rw [heq]
      cases haccepts with
      | build => exact absurd rfl hfirst
      | _ => rfl
    · rw [heq]
      cases operation.leftover? b <;> rfl

end Builder

/-- What stands above other layers adds to their weight. -/
theorem Dialect.weight_le {d d' : Dialect} (h : d'.registry.below = d.registry.layers) :
    d.weight ≤ d'.weight := by
  have hsum : ∀ entries : List (String × Handler), d.weight ≤
      (entries ++ d.registry.layers.flatMap Layer.entries).foldr
        (fun entry total => entry.2.weight + total) 0 := by
    intro entries
    induction entries with
    | nil => exact Nat.le_refl _
    | cons entry rest ih => exact Nat.le_trans ih (Nat.le_add_left _ _)
  have hlayers : d'.registry.layers.flatMap Layer.entries =
      d'.registry.own.entries ++ d.registry.layers.flatMap Layer.entries := by
    rw [← h]
    rfl
  unfold weight at hsum ⊢
  rw [hlayers]
  exact hsum _

/-- Names that no operation adds are in a table exactly if they were there before. -/
theorem contains_eq_of_silent {names names' : List String} {name : String} {done : List Operation}
    {adds : Operation → Bool}
    (h : name ∈ names ↔ name ∈ names' ∨ ∃ operation ∈ done, adds operation = true)
    (hsilent : ∀ operation ∈ done, adds operation = false) :
    names.contains name = names'.contains name := by
  rw [Bool.eq_iff_iff, List.contains_iff_mem, List.contains_iff_mem, h]
  constructor
  · rintro (hmem | ⟨operation, hoperation, hadds⟩)
    · exact hmem
    · rw [hsilent operation hoperation] at hadds
      cases hadds
  · exact .inl

namespace Builder.Folds

variable {b : Builder} {d : Dialect} {name : String} {done : List Operation}
  (h : b.Folds (Builder.start name (some d)) done)
  (hdone : ∀ operation ∈ done, operation.IsFresh d)

include h hdone

/-- Fresh operators hide none that was there. -/
theorem find?_of_isFresh {operator : String} (hknows : d.Knows operator) :
    b.registry.find? operator = d.registry.find? operator := by
  rw [h.resolves, Operation.last?_eq_none fun operation hoperation =>
    ((hdone operation hoperation).silent hknows).1, Option.none_or]
  rfl

/-- Nor do they change how the dialect writes. -/
theorem settings_of_isFresh :
    b.quoting = d.quoting ∧ b.placeholder = d.placeholder ∧ b.maxLimit = d.maxLimit := by
  have hsilent := fun operation hoperation => (hdone operation hoperation).keeps_settings
  rw [h.quoting, h.placeholder, h.maxLimit,
    Operation.last?_eq_none fun operation hoperation => (hsilent operation hoperation).1,
    Operation.last?_eq_none fun operation hoperation => (hsilent operation hoperation).2.1,
    Operation.last?_eq_none fun operation hoperation => (hsilent operation hoperation).2.2.1]
  exact ⟨rfl, rfl, rfl⟩

end Builder.Folds

/-- New operators extend a dialect of the library. -/
theorem Builder.extends_of_isFresh {d : Dialect} (hd : d ∈ Dialect.library) (name : String)
    {operations : List Operation} (hfresh : ∀ operation ∈ operations, operation.IsFresh d) :
    ((Builder.start name (some d)).performAll operations).closing.edition.Extends d := by
  have hstart : (Builder.start name (some d)).Consistent := rfl
  obtain ⟨-, hfolds, hbelow⟩ := hstart.performAll operations
  -- every operation that was accepted is about a new operator
  have hdone : ∀ operation ∈ (Builder.start name (some d)).acceptedAll operations,
      operation.IsFresh d :=
    fun operation h => hfresh operation (mem_of_mem_acceptedAll h)
  obtain ⟨hquoting, hplaceholder, hmaxLimit⟩ := hfolds.settings_of_isFresh hdone
  refine ⟨hquoting, hplaceholder, hmaxLimit, fun other hknows => ?_, fun other hknows => ?_,
    Dialect.weight_le hbelow, fun other handler hfind => ?_⟩
  · exact contains_eq_of_silent (hfolds.statements other) fun operation h =>
      ((hdone operation h).silent hknows).2.1
  · exact contains_eq_of_silent (hfolds.predicates other) fun operation h =>
      ((hdone operation h).silent hknows).2.2
  · have hknows : d.Knows other := by simp [Dialect.Knows, hfind]
    refine ⟨handler, ?_, Dialect.coveredBy_self hd hfind⟩
    exact (hfolds.find?_of_isFresh hdone hknows).trans hfind

/-- **New operators never change what compiles.**  On top of a dialect of the library, operators are
registered under names that it does not have, in any order and with any handlers, templates,
defaults and flags; registrations that fail are included.  Then a dialect can be built, and every
query that the dialect below compiles has the same text and the same values in it. -/
theorem compile_of_fresh_operators {d : Dialect} (hd : d ∈ Dialect.library) (name : String)
    (operations : List Operation) (hfresh : ∀ operation ∈ operations, operation.IsFresh d) :
    ∃ d', (Compose.build.run.run ((Builder.start name (some d)).performAll operations)).1 = .ok d' ∧
      ∀ query statement, d.compile query = .ok statement →
        d'.compile query = .ok { statement with dialect := d'.name } := by
  have hstart : (Builder.start name (some d)).Consistent := rfl
  have hopen : ((Builder.start name (some d)).performAll operations).built = false :=
    Builder.built_performAll hstart fun operation h => (hfresh operation h).keeps_settings.2.2.2
  refine ⟨_, by rw [Builder.run_build hopen], fun query statement hcompile => ?_⟩
  exact (Builder.extends_of_isFresh hd name hfresh).compile hcompile

/-- Operators under names that have a meaning of their own, as statements and predicates. -/
def reservedOperators : List Operation :=
  [.register "$and" (Operator.flag "$and") true true,
    .register "$or" (Operator.flag "$or") true true,
    .registerTemplate "$as" (.str "AS <$table>") [] true,
    .registerTemplate "$foreignKey" (.str "KEY [$columns]") [("$columns", .str "*")] false]

/-- Operators under the names of connectives and of keys change nothing for a query of the base
dialect. -/
theorem compile_of_fresh_operators_groupedQuery :
    Dialect.ansi ∈ Dialect.library ∧
      (∀ operation ∈ reservedOperators, operation.IsFresh Dialect.ansi) ∧
      ∃ d', (Compose.build.run.run
          ((Builder.start "reserved" (some .ansi)).performAll reservedOperators)).1 = .ok d' ∧
        d'.compile groupedQuery = .ok { groupedStatement with dialect := d'.name } := by
  have hansi : Dialect.ansi ∈ Dialect.library := List.mem_cons_self
  have hfresh : ∀ operation ∈ reservedOperators, operation.IsFresh Dialect.ansi := by
    rw [Dialect.ansi_eq]
    simp only [reservedOperators, List.forall_mem_cons]
    exact ⟨rfl, rfl, rfl, rfl, by simp⟩
  obtain ⟨d', hbuild, hcompile⟩ :=
    compile_of_fresh_operators hansi "reserved" reservedOperators hfresh
  exact ⟨hansi, hfresh, d', hbuild, hcompile _ _ compile_groupedQuery⟩

end QueryTree
