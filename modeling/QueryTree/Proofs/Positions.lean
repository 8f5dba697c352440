import Mathlib.Data.List.Forall2
import QueryTree.Operator.Comparison
import QueryTree.Proofs.Leaves

/-!
# Positions in a query

What a value of a query means depends on where it stands.  A scalar that is compared with a column
is bound and leaves no trace in the text, while a scalar that says whether a column is kept decides
what is written.  A position is what an operator expects of its operand, and the operand's parts
have positions in turn.

* `Position` lists the positions, `Position.ofOperator` is the one of an operator's operand, and
  `Position.under` and `Position.item` are those of the values of an object and the items of a list.
* **`Alike`** : two values that differ only in scalars that are bound.
* **`Exposed`** : a value in which an expression with several comparisons stands where it depends on
  the connective around the whole value.
-/

namespace QueryTree

/-- What is expected of a value. -/
inductive Position where
  /-- What stands here shapes the text. -/
  | fixed
  /-- A scalar that is bound. -/
  | literal
  /-- One operand: a scalar that is bound, or an object that holds an operator. -/
  | operand
  /-- Operands in a list, or an object that holds an operator. -/
  | members
  /-- An object that holds an operator; any other value shapes the text. -/
  | nested
  /-- An expression and what it is compared with. -/
  | comparisons
  /-- A filter. -/
  | filter
  /-- A list of filters. -/
  | filters
  /-- What a filter demands of a column. -/
  | column
  /-- Columns and their new values. -/
  | assignments
  /-- A row of a table by column, or several of them. -/
  | records
  /-- The columns of a result. -/
  | columns
  /-- Columns of a table and constraints. -/
  | definitions
  /-- The references of a template. -/
  | clauses
  deriving DecidableEq

namespace Position

/-- The operators that do not take their operand as it is. -/
def operators : List (String × Position) :=
  [("$select", .clauses), ("$insert", .clauses), ("$update", .clauses), ("$delete", .clauses),
    ("$createTable", .clauses), ("$dropTable", .clauses), ("$column", .clauses),
    ("$with", .clauses),
    ("$where", .filter), ("$having", .filter), ("$check", .filter), ("$not", .filter),
    ("$expr", .comparisons),
    ("$eq", .operand), ("$ne", .operand), ("$gt", .operand), ("$gte", .operand), ("$lt", .operand),
    ("$lte", .operand), ("$like", .operand), ("$ilike", .operand),
    ("$in", .members), ("$nin", .members), ("$between", .members),
    ("$val", .literal),
    ("$count", .nested), ("$sum", .nested), ("$avg", .nested), ("$min", .nested),
    ("$max", .nested), ("$default", .nested),
    ("$columns", .columns), ("$set", .assignments), ("$documents", .records),
    ("$define", .definitions)]

/-- The position of an operator's operand. -/
def ofOperator (operator : String) : Position :=
  (operators.lookup operator).getD .fixed

/-- The position of an entry of a filter. -/
def ofEntry (key : String) : Position :=
  match Combinator.ofKey key with
  | .other _ => if isOperatorKey key then ofOperator key else .column
  | _ => .filters

/-- The position of the value of `key` in an object. -/
def under : Position → String → Position
  | .filter, key => ofEntry key
  | .assignments, _ => .operand
  | .records, _ => .operand
  | .columns, key => if isOperatorKey key then .fixed else .nested
  | .definitions, key => if isOperatorKey key then .fixed else .nested
  | .operand, key => ofOperator key
  | .members, key => ofOperator key
  | .nested, key => ofOperator key
  | .comparisons, key => ofOperator key
  | .column, key => ofOperator key
  | .clauses, key => ofOperator key
  | _, _ => .fixed

/-- The position of an item of a list. -/
def item : Position → Position
  | .members => .operand
  | .column => .operand
  | .filters => .filter
  | .records => .records
  | .columns => .columns
  | .definitions => .definitions
  | _ => .fixed

/-- Whether a scalar is bound here, whichever it is. -/
def isBound : Position → Bool
  | .literal => true
  | .operand => true
  | .column => true
  | _ => false

/-- Whether an object here holds one operator. -/
def isValue : Position → Bool
  | .operand => true
  | .members => true
  | .nested => true
  | _ => false

/-- Whether the values of an object are looked up here, so that only the first one of a key counts.
At the other positions the entries are taken one by one. -/
def looksUp : Position → Bool
  | .operand => true
  | .members => true
  | .nested => true
  | .records => true
  | .clauses => true
  | _ => false

/-- Whether the operators under `key` stand inside the connective that is around the object.  The
operators of a filter stand inside the filter's own connectives. -/
def passesOn : Position → String → Bool
  | .filter, key =>
    match Combinator.ofKey key with
    | .other _ => !isOperatorKey key
    | _ => true
  | _, _ => true

/-- What a comparison compares with is an operand. -/
theorem ofOperator_of_comparison {key : String} (h : (comparisonWords.lookup key).isSome = true) :
    ofOperator key = .operand := by
  have hwords : ∀ entry ∈ comparisonWords, ofOperator entry.1 = .operand := by decide
  obtain ⟨word, hword⟩ := Option.isSome_iff_exists.1 h
  obtain ⟨before, after, hentries, -⟩ := List.lookup_eq_some_iff.1 hword
  exact hwords (key, word) (by simp [hentries])

/-- Where one value is expected, an operator settles what is expected below it. -/
theorem under_of_isValue {p : Position} (h : p.isValue = true) : p.under = ofOperator := by
  cases p with
  | operand | members | nested => rfl
  | _ => cases h

end Position

/-! ## Values that are alike -/

mutual

/-- Two values that differ at most in scalars that are bound.  `vary` says which scalars may stand
for each other; neither of them is `null`. -/
inductive Alike (vary : Value → Value → Prop) : Position → Value → Value → Prop where
  | same (p : Position) (v : Value) : Alike vary p v v
  | scalar {p : Position} {v v' : Value} (bound : p.isBound = true)
      (scalars : v.isScalar = true ∧ v'.isScalar = true)
      (given : v.isNull = false ∧ v'.isNull = false) (varies : vary v v') : Alike vary p v v'
  | list {p : Position} {items items' : List Value} (free : p ≠ .fixed)
      (each : ItemsAlike vary p.item items items') : Alike vary p (.list items) (.list items')
  | object {p : Position} {fields fields' : Fields} (free : p ≠ .fixed)
      (each : EntriesAlike vary p fields fields') : Alike vary p (.object fields) (.object fields')

/-- Lists of values that are alike, item by item. -/
inductive ItemsAlike (vary : Value → Value → Prop) :
    Position → List Value → List Value → Prop where
  | nil {p : Position} : ItemsAlike vary p [] []
  | cons {p : Position} {v v' : Value} {items items' : List Value} (first : Alike vary p v v')
      (rest : ItemsAlike vary p items items') : ItemsAlike vary p (v :: items) (v' :: items')

/-- Objects with the same keys whose values are alike, entry by entry. -/
inductive EntriesAlike (vary : Value → Value → Prop) : Position → Fields → Fields → Prop where
  | nil {p : Position} : EntriesAlike vary p [] []
  | cons {p : Position} {key : String} {v v' : Value} {fields fields' : Fields}
      (first : Alike vary (p.under key) v v') (rest : EntriesAlike vary p fields fields') :
      EntriesAlike vary p ((key, v) :: fields) ((key, v') :: fields')

end

section

variable {vary : Value → Value → Prop} {p q : Position} {v v' : Value} {items items' : List Value}
  {fields fields' : Fields}

theorem ItemsAlike.refl (p : Position) : ∀ items : List Value, ItemsAlike vary p items items
  | [] => .nil
  | v :: items => .cons (.same p v) (ItemsAlike.refl p items)

theorem EntriesAlike.refl (p : Position) : ∀ fields : Fields, EntriesAlike vary p fields fields
  | [] => .nil
  | (_, v) :: fields => .cons (.same _ v) (EntriesAlike.refl p fields)

theorem ItemsAlike.forall₂ : ∀ {items items' : List Value}, ItemsAlike vary p items items' →
    List.Forall₂ (Alike vary p) items items'
  | _, _, .nil => .nil
  | _, _, .cons first rest => .cons first rest.forall₂

/-- Entries that are alike have the same keys, and values that are alike at the positions of
these. -/
theorem EntriesAlike.forall₂ :
    ∀ {fields fields' : Fields}, EntriesAlike vary p fields fields' →
      List.Forall₂
        (fun entry entry' =>
          entry.1 = entry'.1 ∧ Alike vary (p.under entry.1) entry.2 entry'.2) fields fields'
  | _, _, .nil => .nil
  | _, _, .cons first rest => .cons ⟨rfl, first⟩ rest.forall₂

theorem ItemsAlike.isEmpty_eq (h : ItemsAlike vary p items items') :
    items.isEmpty = items'.isEmpty := by
  cases h <;> rfl

namespace Alike

/-- Where everything shapes the text, nothing differs. -/
theorem eq_of_fixed (h : Alike vary .fixed v v') : v = v' := by
  cases h with
  | same => rfl
  | scalar bound => cases bound
  | list free => exact absurd rfl free
  | object free => exact absurd rfl free

/-- Only lists are like a list. -/
theorem list_inv (h : Alike vary p (.list items) v') :
    ∃ items', v' = .list items' ∧ ItemsAlike vary p.item items items' := by
  cases h with
  | same => exact ⟨items, rfl, .refl _ items⟩
  | scalar _ scalars => cases scalars.1
  | list _ each => exact ⟨_, rfl, each⟩

/-- Only objects are like an object. -/
theorem object_inv (h : Alike vary p (.object fields) v') :
    ∃ fields', v' = .object fields' ∧ EntriesAlike vary p fields fields' := by
  cases h with
  | same => exact ⟨fields, rfl, .refl _ fields⟩
  | scalar _ scalars => cases scalars.1
  | object _ each => exact ⟨_, rfl, each⟩

/-- A scalar is the same, or varies where it is bound. -/
theorem scalar_inv (hv : v.isScalar = true) (h : Alike vary p v v') :
    v' = v ∨ p.isBound = true ∧ v'.isScalar = true ∧ v.isNull = false ∧ v'.isNull = false ∧
      vary v v' := by
  cases h with
  | same => exact .inl rfl
  | scalar bound scalars given varies => exact .inr ⟨bound, scalars.2, given.1, given.2, varies⟩
  | list => cases hv
  | object => cases hv

/-- A scalar does not turn into a list or an object. -/
theorem isScalar_eq (h : Alike vary p v v') : v.isScalar = v'.isScalar := by
  cases h with
  | same => rfl
  | scalar _ scalars => rw [scalars.1, scalars.2]
  | list => rfl
  | object => rfl

/-- Nor does `null` turn into anything else. -/
theorem isNull_eq (h : Alike vary p v v') : v.isNull = v'.isNull := by
  cases h with
  | same => rfl
  | scalar _ _ given => rw [given.1, given.2]
  | list => rfl
  | object => rfl

/-- Where no scalar varies, the same values switch a part of a statement on. -/
theorem isPresent_eq (hp : p.isBound = false) (h : Alike vary p v v') :
    v.isPresent = v'.isPresent := by
  cases h with
  | same => rfl
  | scalar bound =>
    rw [hp] at bound
    cases bound
  | list _ each => cases each <;> rfl
  | object _ each => cases each <;> rfl

end Alike

namespace EntriesAlike

/-- Objects that are alike have the same keys in the same order. -/
theorem keys_eq : ∀ {fields fields' : Fields}, EntriesAlike vary p fields fields' →
    fields.keys = fields'.keys
  | _, _, .nil => rfl
  | _, _, .cons _ rest => congrArg (_ :: ·) rest.keys_eq

/-- The same at another position that expects the same of the values. -/
theorem of_under_eq (hunder : p.under = q.under) :
    ∀ {fields fields' : Fields}, EntriesAlike vary p fields fields' →
      EntriesAlike vary q fields fields'
  | _, _, .nil => .nil
  | _, _, .cons first rest => .cons (hunder ▸ first) (rest.of_under_eq hunder)

theorem isEmpty_eq (h : EntriesAlike vary p fields fields') : fields.isEmpty = fields'.isEmpty := by
  cases h <;> rfl

theorem length_eq (h : EntriesAlike vary p fields fields') : fields.length = fields'.length :=
  h.forall₂.length_eq

/-- The values of a key are alike, or missing in both. -/
theorem get? (key : String) : ∀ {fields fields' : Fields}, EntriesAlike vary p fields fields' →
    Option.Rel (Alike vary (p.under key)) (fields.get? key) (fields'.get? key)
  | _, _, .nil => .none
  | _, _, @EntriesAlike.cons _ _ k _ _ _ _ first rest => by
    rw [Fields.get?_cons, Fields.get?_cons]
    by_cases hkey : key = k
    · rw [if_pos hkey, if_pos hkey]
      exact .some (hkey ▸ first)
    · rw [if_neg hkey, if_neg hkey]
      exact rest.get? key

/-- Values that are looked up are alike, also where the key is missing. -/
theorem valueOf (h : EntriesAlike vary p fields fields') (key : String) :
    Alike vary (p.under key) (fields.valueOf key) (fields'.valueOf key) := by
  have hget := h.get? key
  rw [Fields.valueOf_eq, Fields.valueOf_eq]
  generalize fields.get? key = found at hget ⊢
  generalize fields'.get? key = found' at hget ⊢
  cases hget with
  | none => exact .same _ _
  | some hvalue => exact hvalue

/-- Entries that are kept by a condition on their keys. -/
theorem filter (keep : String → Bool) :
    ∀ {fields fields' : Fields}, EntriesAlike vary p fields fields' →
      EntriesAlike vary p (fields.filter fun entry => keep entry.1)
        (fields'.filter fun entry => keep entry.1)
  | _, _, .nil => .nil
  | _, _, .cons first rest => by
    rw [List.filter_cons, List.filter_cons]
    split
    · exact .cons first (rest.filter keep)
    · exact rest.filter keep

end EntriesAlike

end

/-! ## Expressions that depend on what is around -/

/-- Whether an entry of an expression is a comparison. -/
def isComparison (entry : String × Value) : Bool :=
  (comparisonWords.lookup entry.1).isSome

/-- The value of `key` counts at this position. -/
def Position.Holds (p : Position) (fields : Fields) (key : String) (v : Value) : Prop :=
  if p.looksUp then fields.get? key = some v else (key, v) ∈ fields

/-- The value holds an expression with several comparisons, reached by operators that all stand
inside the connective around the value. -/
inductive Exposed : Position → Value → Prop where
  | several {fields : Fields} (h : 1 < (fields.filter isComparison).length) :
      Exposed .comparisons (.object fields)
  | item {p : Position} {items : List Value} {v : Value} (mem : v ∈ items)
      (inner : Exposed p.item v) : Exposed p (.list items)
  | entry {p : Position} {fields : Fields} {key : String} {v : Value}
      (holds : p.Holds fields key v) (passes : p.passesOn key = true)
      (inner : Exposed (p.under key) v) : Exposed p (.object fields)

namespace Exposed

variable {p : Position}

/-- Nothing is exposed in a scalar. -/
theorem not_scalar {v : Value} (hv : v.isScalar = true) : ¬ Exposed p v := by
  intro h
  cases h <;> cases hv

theorem not_null {v : Value} (hv : v.isNull = true) : ¬ Exposed p v := by
  cases v with
  | null => exact not_scalar rfl
  | _ => cases hv

/-- A list is exposed if one of its items is. -/
theorem list_iff {items : List Value} :
    Exposed p (.list items) ↔ ∃ v ∈ items, Exposed p.item v := by
  constructor
  · intro h
    cases h with
    | item mem inner => exact ⟨_, mem, inner⟩
  · rintro ⟨v, mem, inner⟩
    exact .item mem inner

/-- An object is exposed through an entry that passes the connective on. -/
theorem object_iff (hp : p ≠ .comparisons) {fields : Fields} :
    Exposed p (.object fields) ↔
      ∃ key v, p.Holds fields key v ∧ p.passesOn key = true ∧ Exposed (p.under key) v := by
  constructor
  · intro h
    cases h with
    | several => exact absurd rfl hp
    | entry holds passes inner => exact ⟨_, _, holds, passes, inner⟩
  · rintro ⟨key, v, holds, passes, inner⟩
    exact .entry holds passes inner

/-- An expression is exposed if it has several comparisons or a part that is. -/
theorem comparisons_iff {fields : Fields} :
    Exposed .comparisons (.object fields) ↔
      1 < (fields.filter isComparison).length ∨
        ∃ entry ∈ fields, Exposed (.ofOperator entry.1) entry.2 := by
  constructor
  · intro h
    cases h with
    | several h => exact .inl h
    | entry holds _ inner => exact .inr ⟨_, holds, inner⟩
  · rintro (h | ⟨entry, hmem, hinner⟩)
    · exact .several h
    · exact .entry hmem rfl hinner

/-- At a position that takes entries one by one. -/
theorem entries_iff (hp : p ≠ .comparisons) (hlook : p.looksUp = false) {fields : Fields} :
    Exposed p (.object fields) ↔
      ∃ entry ∈ fields, p.passesOn entry.1 = true ∧ Exposed (p.under entry.1) entry.2 := by
  rw [object_iff hp]
  simp only [Position.Holds, hlook, Bool.false_eq_true, if_false]
  constructor
  · rintro ⟨key, v, hmem, hpasses, hinner⟩
    exact ⟨(key, v), hmem, hpasses, hinner⟩
  · rintro ⟨⟨key, v⟩, hmem, hpasses, hinner⟩
    exact ⟨key, v, hmem, hpasses, hinner⟩

/-- At a position that looks values up. -/
theorem lookup_iff (hp : p ≠ .comparisons) (hlook : p.looksUp = true) {fields : Fields} :
    Exposed p (.object fields) ↔
      ∃ key, p.passesOn key = true ∧ Exposed (p.under key) (fields.valueOf key) := by
  rw [object_iff hp]
  simp only [Position.Holds, hlook, if_true]
  constructor
  · rintro ⟨key, v, hget, hpasses, hinner⟩
    refine ⟨key, hpasses, ?_⟩
    rwa [Fields.valueOf_eq, hget]
  · rintro ⟨key, hpasses, hinner⟩
    rw [Fields.valueOf_eq] at hinner
    cases hget : fields.get? key with
    | none =>
      rw [hget] at hinner
      exact absurd hinner (not_scalar rfl)
    | some v =>
      rw [hget] at hinner
      exact ⟨key, v, hget, hpasses, hinner⟩

/-- At a position that holds one operator. -/
theorem value_iff (hp : p.isValue = true) {fields : Fields} :
    Exposed p (.object fields) ↔ ∃ key, Exposed (.ofOperator key) (fields.valueOf key) := by
  cases p with
  | operand | members | nested =>
    rw [lookup_iff (by decide) rfl]
    simp only [Position.passesOn, Position.under, true_and]
  | _ => cases hp

/-- Nothing that shapes the text is an expression. -/
theorem not_fixed (v : Value) : ¬ Exposed .fixed v := by
  induction v using Value.induct with
  | scalar v hv => exact not_scalar hv
  | list items ih =>
    rw [list_iff]
    rintro ⟨v, hmem, hv⟩
    exact ih v hmem hv
  | object fields ih =>
    rw [entries_iff (by decide) rfl]
    rintro ⟨entry, hmem, -, hinner⟩
    exact ih entry hmem hinner

/-- An object that holds one operator is exposed if its operand is. -/
theorem single_iff (hp : p.isValue = true) {key : String} {v : Value} :
    Exposed p (.object [(key, v)]) ↔ Exposed (.ofOperator key) v := by
  rw [value_iff hp]
  constructor
  · rintro ⟨key', hinner⟩
    rw [Fields.valueOf_eq, Fields.get?_cons] at hinner
    split at hinner
    · rename_i hkey
      exact hkey ▸ hinner
    · exact absurd hinner (not_scalar rfl)
  · intro hinner
    refine ⟨key, ?_⟩
    rwa [Fields.valueOf_eq, Fields.get?_cons, if_pos rfl]

/-- What is looked up and holds an expression is there. -/
theorem mem_keys {fields : Fields} {key : String} (h : Exposed p (fields.valueOf key)) :
    key ∈ fields.keys := by
  rw [← Fields.get?_isSome_iff, Option.isSome_iff_ne_none]
  intro hget
  rw [Fields.valueOf_eq, hget] at h
  exact not_scalar rfl h

/-- A value that leaves a part of a statement off holds no expression. -/
theorem not_absent {v : Value} (hv : v.isPresent = false) : ¬ Exposed p v := by
  cases v with
  | null | bool flag | int number | float number | str text => exact not_scalar rfl
  | list items =>
    cases items with
    | nil => simp [list_iff]
    | cons => cases hv
  | object fields =>
    cases fields with
    | nil =>
      intro h
      cases h with
      | several h => simp at h
      | entry holds =>
        unfold Position.Holds at holds
        split at holds <;> cases holds
    | cons => cases hv

end Exposed

end QueryTree
