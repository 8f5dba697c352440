import QueryTree.Proofs.Dialects
import QueryTree.Proofs.Equations
import QueryTree.Proofs.Leaves
import QueryTree.Dialect.Compile

/-!
# Calls go to smaller operands

An operator is rendered by calling others at parts of its operand, or at scalars that its template
supplies.  No call is made for a scalar.  So nested calls come to an end, and the bound that a
compilation is given is never reached.

* `Rendering.Orderly` : all calls that a program can make are of a given kind, all faults that it
  can refuse with have a class, and it does not ask for the number of bound values.
* `Value.reach` is the measure of an operand that goes down with every call.
* **`descends_of_mem`** : every operator of the library calls only at operands of smaller reach.
* `Dialect.respond` answers a call without a bound.  **`Dialect.answer_eq_respond`** says that every
  bound that is not below the reach of the operand gives that answer, and `Dialect.respond_eq` that
  the answer is the one of the operator, whose own calls are answered in the same way.
* `Dialect.runFor_eq` : the bound of a whole compilation is large enough.
-/

namespace QueryTree

/-! ## What a program can ask for -/

namespace Rendering

variable {α β : Type} {asks asks' : Call → Prop}

/-- Every call that the program can make is one of `asks`, every fault that it can refuse with has a
class, and the program does not ask how many values are bound. -/
def Orderly (asks : Call → Prop) : Rendering α → Prop
  | .done _ => True
  | .refuse fault => fault.isClassified = true
  | .bind _ next => ∀ token, (next token).Orderly asks
  | .call request next => asks request ∧ ∀ text, (next text).Orderly asks
  | .count _ => False

namespace Orderly

theorem pure (a : α) : Orderly asks (Pure.pure a : Rendering α) := trivial

/-- Refusing is orderly if the fault has a class. -/
theorem refuse {fault : Fault} (h : fault.isClassified = true) :
    Orderly asks (.refuse fault : Rendering α) := h

theorem bound (v : Value) : Orderly asks (bound v) := fun _ => trivial

/-- A single call, which has to be one of `asks`. -/
theorem invoke {c : Call} (h : asks c) : Orderly asks (invoke c) := ⟨h, fun _ => trivial⟩

/-- A result that was found before, or the fault that came of looking for it. -/
theorem ofExcept {e : Except Fault α} (h : ∀ fault, e = .error fault → fault.isClassified = true) :
    Orderly asks (ofExcept e) := by
  cases e with
  | ok a => trivial
  | error fault => exact h fault rfl

/-- One program after another: whatever the first one gives, the second has to be orderly. -/
theorem bind {x : Rendering α} {f : α → Rendering β} (hx : x.Orderly asks)
    (hf : ∀ a, (f a).Orderly asks) : (x >>= f).Orderly asks := by
  change (x.andThen f).Orderly asks
  induction x with
  | done a => exact hf a
  | refuse fault => exact hx
  | bind v next ih => exact fun token => ih token (hx token)
  | call c next ih => exact ⟨hx.1, fun text => ih text (hx.2 text)⟩
  | count next _ => exact hx

/-- A program whose result is put into another one. -/
theorem map {x : Rendering α} (hx : x.Orderly asks) (f : α → β) :
    Orderly asks (do let a ← x; return f a) :=
  hx.bind fun a => .pure (f a)

/-- A program for every item of a list. -/
theorem each {f : α → Rendering β} {items : List α} (h : ∀ a ∈ items, (f a).Orderly asks) :
    (Rendering.each f items).Orderly asks := by
  induction items with
  | nil => exact .pure []
  | cons a rest ih =>
    have hrest := ih fun b hb => h b (List.mem_cons_of_mem _ hb)
    exact (h a List.mem_cons_self).bind fun b => hrest.map (b :: ·)

/-- More calls may be allowed. -/
theorem mono {x : Rendering α} (hasks : ∀ c, asks c → asks' c) (hx : x.Orderly asks) :
    x.Orderly asks' := by
  induction x with
  | done a => trivial
  | refuse fault => exact hx
  | bind v next ih => exact fun token => ih token (hx token)
  | call c next ih => exact ⟨hasks c hx.1, fun text => ih text (hx.2 text)⟩
  | count next _ => exact hx

/-- A run depends only on the answers to the calls that the program can make. -/
theorem run_congr {token : Nat → String} {answer answer' : Call → Compile String}
    (hanswer : ∀ c, asks c → answer c = answer' c) {x : Rendering α} (hx : x.Orderly asks) :
    x.run token answer = x.run token answer' := by
  induction x with
  | done a => rfl
  | refuse fault => rfl
  | bind v next ih =>
    rw [run, run]
    exact congrArg _ (funext fun t => ih t (hx t))
  | call c next ih =>
    rw [run, run, hanswer c hx.1]
    exact congrArg _ (funext fun t => ih t (hx.2 t))
  | count next _ => exact hx.elim

end Orderly

end Rendering

open Rendering (Orderly)

/-! ## Sizes -/

/-- The calls at operands of fewer than `n` nodes. -/
def Call.Below (n : Nat) (call : Call) : Prop :=
  call.operand.size < n

namespace Rendering.Orderly

variable {α : Type} {x : Rendering α} {m n : Nat}

/-- The same program, with a weaker bound on its calls. -/
theorem below_le (hx : x.Orderly (Call.Below m)) (h : m ≤ n) : x.Orderly (Call.Below n) :=
  hx.mono fun _ hc => Nat.lt_of_lt_of_le hc h

/-- The operands of a part are below any larger number of nodes. -/
theorem below_lt (hx : x.Orderly (Call.Below m)) (h : m < n) : x.Orderly (Call.Below n) :=
  hx.below_le (Nat.le_of_lt h)

end Rendering.Orderly

namespace Value

/-- A depth that the calls at an operand cannot exceed, the first one included. -/
def reach (v : Value) : Nat :=
  if v.isScalar then 1 else v.size + 1

/-- The reach of a value is at most one above its size, which is what bounds are taken from. -/
theorem reach_le (v : Value) : v.reach ≤ v.size + 1 := by
  unfold reach
  split <;> omega

/-- Even a scalar reaches something, since it takes a call to render it. -/
theorem reach_pos (v : Value) : 0 < v.reach := by
  unfold reach
  split <;> omega

/-- The reach goes down to scalars and to smaller operands. -/
theorem reach_lt {v w : Value} (hv : v.isScalar = false)
    (h : w.isScalar = true ∨ w.size < v.size) : w.reach < v.reach := by
  have hvreach : v.reach = v.size + 1 := by simp [reach, hv]
  have hpos := v.size_pos
  rcases h with hscalar | hlt
  · have hwreach : w.reach = 1 := by simp [reach, hscalar]
    omega
  · have := w.reach_le
    omega

/-- No value is smaller than a scalar. -/
theorem reach_lt_of_size_lt {v w : Value} (h : w.size < v.size) : w.reach < v.reach := by
  refine reach_lt ?_ (.inr h)
  have hpos := w.size_pos
  cases v with
  | list items | object fields => rfl
  | null | bool flag | int number | float number | str text =>
    simp only [size] at h
    omega

/-- Leaving out entries makes an object no larger. -/
theorem size_filter_le (p : String × Value → Bool) (fields : Fields) :
    (Value.object (fields.filter p)).size ≤ (Value.object fields).size := by
  rw [size_object, size_object]
  induction fields with
  | nil => exact Nat.le_refl _
  | cons entry rest ih =>
    obtain ⟨key, v⟩ := entry
    rw [List.filter_cons, sizeFields_cons]
    split
    · rw [sizeFields_cons]
      omega
    · omega

/-- A value that is looked up is smaller than the object. -/
theorem size_lt_of_get? {fields : Fields} {key : String} {v : Value}
    (h : fields.get? key = some v) : v.size < (Value.object fields).size :=
  size_lt_of_mem_fields (Fields.mem_of_get? h)

end Value

/-! ## Expressions -/

variable {asks : Call → Prop} {ctx : Context}

theorem orderly_mapError {α ε : Type} {e : Except ε α} {f : ε → Fault}
    (h : ∀ cause, (f cause).isClassified = true) :
    Orderly asks (.ofExcept (e.mapError f)) := by
  cases e with
  | ok a => trivial
  | error cause => exact h cause

/-- Quoting a name calls nothing, and a bad name is a classified fault. -/
theorem Context.name_orderly (text : String) : (ctx.name text).Orderly asks :=
  orderly_mapError fun _ => rfl

theorem Context.identifier_orderly (v : Value) : (ctx.identifier v).Orderly asks :=
  orderly_mapError fun _ => rfl

open Context (name_orderly identifier_orderly)

/-- An operand is bound, or it is an operator that is called at its own operand. -/
theorem valueExpression_orderly (operator : Option String) (v : Value) :
    (valueExpression ctx operator v).Orderly (Call.Below v.size) := by
  unfold valueExpression
  split
  · rename_i key operand
    split
    · refine (Orderly.invoke ?_).map _
      exact Value.size_lt_of_mem_fields (List.mem_singleton_self (key, operand))
    · exact .refuse rfl
  · exact .refuse rfl
  · exact .refuse rfl
  · exact .bound _

/-- Names and their aliases are only quoted. -/
theorem aliasedName_orderly (operator : Option String) (name : String) (spec : Value) :
    (aliasedName ctx operator name spec).Orderly asks := by
  unfold aliasedName
  split
  · exact name_orderly _
  · split
    · exact (name_orderly _).bind fun _ => (identifier_orderly _).map _
    · exact .refuse rfl

/-- Lists of names call nothing at any depth. -/
theorem nameList_orderly (operator : Option String) (v : Value) :
    (nameList ctx operator v).Orderly asks := by
  induction v using Value.induct with
  | scalar v hv =>
    cases v with
    | str text => exact name_orderly text
    | null | bool flag | int number | float number => exact .refuse rfl
    | list items | object fields => cases hv
  | list items ih =>
    rw [nameList, nameItems_eq_each]
    split
    · exact .refuse rfl
    · exact (Orderly.each ih).map _
  | object fields =>
    rw [nameList]
    exact (Orderly.each fun entry _ => aliasedName_orderly operator entry.1 entry.2).map _

/-- A column of a result calls at most the operator that its entry holds. -/
theorem columnEntry_orderly (name : String) (spec : Value) :
    (columnEntry ctx name spec).Orderly (Call.Below spec.size) := by
  unfold columnEntry
  split
  · exact (name_orderly name).bind fun _ => .pure _
  · split
    · exact .pure none
    · split
      · exact .refuse rfl
      · split
        · dsimp only
          split
          · exact (name_orderly name).bind fun _ => (identifier_orderly _).map _
          · refine Orderly.bind ?_ fun _ => (identifier_orderly _).map _
            exact (valueExpression_orderly _ _).below_le (Value.size_filter_le _ _)
        · exact (valueExpression_orderly _ _).bind fun _ => (name_orderly name).map _
      · exact (Orderly.bound _).bind fun _ => (name_orderly name).map _

/-- The entries of an object of columns, each a part of it. -/
theorem columnEntries_orderly (fields : Fields) :
    (columnEntries ctx fields).Orderly (Call.Below (Value.object fields).size) := by
  induction fields with
  | nil => exact .pure []
  | cons entry rest ih =>
    obtain ⟨name, spec⟩ := entry
    rw [columnEntries]
    split
    · exact .refuse rfl
    · have hspec : spec.size ≤ (Value.object ((name, spec) :: rest)).size :=
        Nat.le_of_lt (Value.size_lt_of_mem_fields List.mem_cons_self)
      have hrest : (Value.object rest).size ≤ (Value.object ((name, spec) :: rest)).size := by
        rw [Value.size_object, Value.size_object, Value.sizeFields_cons]
        omega
      refine ((columnEntry_orderly name spec).below_le hspec).bind fun _ => ?_
      exact (ih.below_le hrest).map _

/-- A column in a list of columns: a name, or an object of entries. -/
theorem columnItem_orderly (v : Value) : (columnItem ctx v).Orderly (Call.Below v.size) := by
  cases v with
  | str text => exact (name_orderly text).map _
  | object fields => exact columnEntries_orderly fields
  | null | bool flag | int number | float number | list items => exact .refuse rfl

theorem columnsOf_orderly (columns : List String) : (columnsOf columns).Orderly asks := by
  unfold columnsOf
  split
  · exact .refuse rfl
  · exact .pure _

/-- All forms that the columns of a result can have call at parts of them. -/
theorem projection_orderly (v : Value) : (projection ctx v).Orderly (Call.Below v.size) := by
  cases v with
  | str text => exact name_orderly text
  | list items =>
    refine Orderly.bind (.each fun item hitem => ?_) fun columns => columnsOf_orderly _
    exact (columnItem_orderly item).below_lt (Value.size_lt_of_mem_items hitem)
  | object fields => exact (columnEntries_orderly fields).bind columnsOf_orderly
  | null | bool flag | int number | float number => exact .refuse rfl

/-! ## Filters -/

namespace Filter

/-- Both connectives have a joining word. -/
theorem group_orderly {kind : Combinator} (hkind : kind.joiner?.isSome = true)
    (parts : List String) (parent : Option Combinator) :
    (group kind parts parent).Orderly asks := by
  unfold group
  split
  · rename_i hnone
    rw [hnone] at hkind
    cases hkind
  · dsimp only
    split
    · exact .pure _
    · exact .pure _

/-- The list shorthand is passed on as a whole, so the bound includes the size itself. -/
theorem columnPredicate_orderly (column : String) (spec : Value) (parent : Option Combinator) :
    (columnPredicate ctx column spec parent).Orderly (Call.Below (spec.size + 1)) := by
  cases spec with
  | null => exact (name_orderly column).map _
  | object fields =>
    rw [columnPredicate]
    split
    · exact .refuse rfl
    · refine Orderly.bind (.each fun entry hentry => ?_) fun _ => group_orderly rfl _ _
      unfold columnTest
      split
      · exact .invoke (Nat.lt_succ_of_lt (Value.size_lt_of_mem_fields hentry))
      · exact .refuse rfl
  | bool flag | int number | float number | str text | list items =>
    exact .invoke (Nat.lt_succ_self _)

/-- A filter, and the same value as the operand of a connective. -/
theorem condition_and_combine_orderly (v : Value) :
    (∀ parent, (condition ctx v parent).Orderly (Call.Below v.size)) ∧
      ∀ kind : Combinator, kind.joiner?.isSome = true → ∀ parent,
        (combine ctx kind v parent).Orderly (Call.Below v.size) := by
  induction v using Value.induct with
  | scalar v hv =>
    cases v with
    | null | bool flag | int number | float number | str text =>
      exact ⟨fun _ => .refuse rfl, fun _ _ _ => .refuse rfl⟩
    | list items | object fields => cases hv
  | list items ih =>
    refine ⟨fun _ => .refuse rfl, fun kind hkind parent => ?_⟩
    rw [combine_list]
    split
    · exact .refuse rfl
    · refine Orderly.bind (.each fun item hitem => ?_) fun _ => group_orderly hkind _ _
      exact ((ih item hitem).1 _).below_lt (Value.size_lt_of_mem_items hitem)
  | object fields ih =>
    refine ⟨fun parent => ?_, fun _ _ _ => .refuse rfl⟩
    rw [condition_object]
    split
    · exact .refuse rfl
    · refine Orderly.bind (.each fun entry hentry => ?_) fun _ => group_orderly rfl _ _
      have hsize := Value.size_lt_of_mem_fields hentry
      cases hkey : Combinator.ofKey entry.1 with
      | and | or =>
        rw [conditionEntry_eq_combine _ _ _ _ (by simp [hkey]), hkey]
        exact ((ih entry hentry).2 _ rfl _).below_lt hsize
      | other label =>
        rw [conditionEntry_of_other hkey]
        split
        · split
          · exact .invoke hsize
          · exact .refuse rfl
        · exact (columnPredicate_orderly entry.1 entry.2 _).below_le hsize

/-- A filter recurses into its parts by itself, and calls operators only at what is below them. -/
theorem condition_orderly (v : Value) (parent : Option Combinator) :
    (condition ctx v parent).Orderly (Call.Below v.size) :=
  (condition_and_combine_orderly v).1 parent

end Filter

/-! ## Operators -/

/-- The operator calls others only at operands of smaller reach, and refuses only with faults that
have a class. -/
def Handler.Descends (handler : Handler) : Prop :=
  ∀ ctx call,
    (handler.render ctx call).Orderly fun c => c.operand.reach < call.operand.reach

/-- It is enough that the operands get smaller. -/
theorem Handler.Descends.of_below {handler : Handler}
    (h : ∀ ctx call, (handler.render ctx call).Orderly (Call.Below call.operand.size)) :
    handler.Descends :=
  fun ctx call => (h ctx call).mono fun _ => Value.reach_lt_of_size_lt

/-- An operator that calls no other. -/
theorem Handler.Descends.of_silent {handler : Handler}
    (h : ∀ ctx call, (handler.render ctx call).Orderly fun _ => False) : handler.Descends :=
  fun ctx call => (h ctx call).mono fun _ => False.elim

namespace Operator

/-! ### Clauses -/

theorem flag_descends (operator : String) : (flag operator).Descends := by
  refine .of_silent fun ctx call => ?_
  simp only [flag]
  split
  · exact .pure _
  · exact .refuse rfl

theorem boundValue_descends : boundValue.Descends := by
  refine .of_silent fun ctx call => ?_
  simp only [boundValue]
  split
  · exact .bound _
  · exact .refuse rfl

/-- An aggregate is applied to a name, or to an expression whose operator is called at what is in
it. -/
theorem aggregate_descends (function operator : String) :
    (aggregate function operator).Descends := by
  refine .of_below fun ctx call => ?_
  simp only [aggregate]
  split
  · exact (name_orderly _).map _
  · rename_i fields hoperand
    rw [hoperand]
    exact (valueExpression_orderly _ _).map _
  · exact Orderly.refuse rfl

theorem resultColumns_descends : resultColumns.Descends :=
  .of_below fun _ call => projection_orderly call.operand

/-- Tables are names, and no call is made for them. -/
theorem tables_descends : tables.Descends := by
  refine .of_silent fun ctx call => ?_
  simp only [tables]
  split
  · exact .refuse rfl
  · exact nameList_orderly _ _

theorem filter_descends : filter.Descends :=
  .of_below fun _ call => Filter.condition_orderly call.operand none

theorem grouping_descends : grouping.Descends :=
  .of_silent fun _ call => nameList_orderly _ call.operand

theorem sortEntry_orderly (entry : String × Value) : (sortEntry ctx entry).Orderly asks := by
  refine (name_orderly _).bind fun _ => Orderly.map (.ofExcept fun fault h => ?_) _
  unfold SortDirection.ofValue at h
  split at h
  · cases h
  · cases h
    rfl

theorem sortItem_orderly (v : Value) : (sortItem ctx v).Orderly asks := by
  cases v with
  | str column => exact (name_orderly column).map _
  | object fields => exact .each fun entry _ => sortEntry_orderly entry
  | null | bool flag | int number | float number | list items => exact .refuse rfl

/-- Sorting columns are names with a direction, and no call is made for them. -/
theorem sorting_descends : sorting.Descends := by
  refine .of_silent fun ctx call => ?_
  simp only [sorting]
  unfold sortColumns
  split
  · exact name_orderly _
  · exact (Orderly.each fun entry _ => sortEntry_orderly entry).map _
  · split
    · exact .refuse rfl
    · exact (Orderly.each fun v _ => sortItem_orderly v).map _
  · exact .refuse rfl

/-- A limit is bound as it is or written as a word. -/
theorem limit_descends : limit.Descends := by
  refine .of_silent fun ctx call => ?_
  simp only [limit]
  split
  · exact .pure _
  · split
    · exact .bound _
    · exact .refuse rfl

theorem offset_descends : offset.Descends := by
  refine .of_silent fun ctx call => ?_
  simp only [offset]
  split
  · exact .refuse rfl
  · split
    · exact .bound _
    · exact .refuse rfl

/-! ### Comparisons -/

/-- The column of a test is quoted, and a test without one is refused by its class. -/
theorem testedColumn_orderly (operator : String) (column : Option String) :
    (testedColumn ctx operator column).Orderly asks := by
  cases column with
  | none => exact .refuse rfl
  | some column => exact name_orderly column

/-- A comparison has one operand, below its own. -/
theorem comparison_descends (operator word : String) : (comparison operator word).Descends := by
  refine .of_below fun ctx call => (testedColumn_orderly _ _).bind fun _ => ?_
  split
  · exact .pure _
  · split
    · exact .pure _
    · exact (valueExpression_orderly _ _).map _

/-- Membership has the items of its list as operands, or the rows of a nested statement. -/
theorem membership_descends (operator word : String) : (membership operator word).Descends := by
  refine .of_below fun ctx call => (testedColumn_orderly _ _).bind fun _ => ?_
  split
  · rename_i fields hoperand
    rw [hoperand]
    exact (valueExpression_orderly _ _).map _
  · rename_i items hoperand
    rw [hoperand]
    split
    · exact .refuse rfl
    · refine Orderly.map (.each fun v hv => ?_) _
      exact (valueExpression_orderly _ v).below_lt (Value.size_lt_of_mem_items hv)
  · exact .refuse rfl

/-- Both ends are items of the list. -/
theorem between_descends : between.Descends := by
  refine .of_below fun ctx call => (testedColumn_orderly _ _).bind fun _ => ?_
  split
  · rename_i low high hoperand
    rw [hoperand]
    have hlow : low.size < (Value.list [low, high]).size := Value.size_lt_of_mem_items (by simp)
    have hhigh : high.size < (Value.list [low, high]).size := Value.size_lt_of_mem_items (by simp)
    refine ((valueExpression_orderly _ low).below_lt hlow).bind fun _ => ?_
    exact ((valueExpression_orderly _ high).below_lt hhigh).map _
  · exact .refuse rfl

theorem nullTest_descends : nullTest.Descends := by
  refine .of_silent fun ctx call => (testedColumn_orderly _ _).bind fun _ => ?_
  split
  · exact .pure _
  · exact .pure _
  · exact .refuse rfl

/-- A negation renders its filter without a call of its own. -/
theorem negation_descends : negation.Descends :=
  .of_below fun _ call => (Filter.condition_orderly call.operand none).map _

/-- Both sides of a comparison are entries of the same object, and its word is found because it was
looked for before. -/
theorem expressionPart_orderly {fields : Fields} {left test : String × Value}
    (hleft : left ∈ fields) (htest : test ∈ fields)
    (hword : (comparisonWords.lookup test.1).isSome = true) :
    (expressionPart ctx left test).Orderly (Call.Below (Value.object fields).size) := by
  obtain ⟨word, hword⟩ := Option.isSome_iff_exists.1 hword
  rw [expressionPart_of_lookup ctx left hword]
  refine ((valueExpression_orderly _ _).below_le (Value.size_entry_le hleft)).bind fun _ => ?_
  exact ((valueExpression_orderly _ _).below_lt (Value.size_lt_of_mem_fields htest)).map _

/-- Only entries that are comparisons are compared with, so that no word is missing. -/
theorem expressionTest_descends : expressionTest.Descends := by
  refine .of_below fun ctx call => ?_
  simp only [expressionTest]
  split
  · rename_i fields hoperand
    rw [hoperand]
    split
    · rename_i left test tests hleft htests
      refine Orderly.bind (.each fun entry hentry => ?_) fun _ => Filter.group_orderly rfl _ _
      obtain ⟨htest, hword⟩ := List.mem_filter.1 (htests ▸ hentry)
      have hmem := (List.mem_filter.1 (hleft ▸ List.mem_singleton_self left)).1
      exact expressionPart_orderly hmem htest hword
    · exact .refuse rfl
  · exact .refuse rfl

/-! ### Rows -/

/-- The new values of an update are entries of its object. -/
theorem assignments_descends : assignments.Descends := by
  refine .of_below fun ctx call => ?_
  simp only [assignments]
  split
  · rename_i fields hoperand
    rw [hoperand]
    split
    · exact .refuse rfl
    · refine Orderly.map (.each fun entry hentry => (name_orderly _).bind fun _ => ?_) _
      exact ((valueExpression_orderly _ _).below_lt (Value.size_lt_of_mem_fields hentry)).map _
  · exact .refuse rfl

/-- A row asks for the values of its document, all of which are there once the columns are
checked. -/
theorem documentRow_orderly (columns : List String) (index : Nat) (v : Value) :
    (documentRow ctx columns index v).Orderly (Call.Below v.size) := by
  cases v with
  | object fields =>
    rw [documentRow]
    split
    · rename_i hcolumns
      refine Orderly.map (.each fun column hcolumn => ?_) _
      have hkey := mem_keys_of_hasColumns hcolumns hcolumn
      obtain ⟨v, hv⟩ := Option.isSome_iff_exists.1 ((Fields.get?_isSome_iff fields column).2 hkey)
      rw [documentValue, hv]
      exact (valueExpression_orderly _ v).below_lt (Value.size_lt_of_get? hv)
    · exact .refuse rfl
  | null | bool flag | int number | float number | str text | list items => exact .refuse rfl

/-- Rows are rendered one by one, each below the largest document. -/
theorem documentRows_orderly {items : List Value} (columns : List String) (index : Nat)
    {n : Nat} (hitems : ∀ v ∈ items, v.size ≤ n) :
    (documentRows ctx columns index items).Orderly (Call.Below n) := by
  induction items generalizing index with
  | nil => exact .pure []
  | cons v rest ih =>
    have hrest := ih (index + 1) fun w hw => hitems w (List.mem_cons_of_mem _ hw)
    refine ((documentRow_orderly columns index v).below_le (hitems v List.mem_cons_self)).bind
      fun _ => hrest.map _

/-- A table of documents calls for the values of its rows, and for nothing else. -/
theorem documentTable_orderly {items : List Value} {n : Nat} (hitems : ∀ v ∈ items, v.size ≤ n) :
    (documentTable ctx items).Orderly (Call.Below n) := by
  unfold documentTable
  split
  · exact .refuse rfl
  · split
    · refine Orderly.bind (.each fun _ _ => name_orderly _) fun _ => ?_
      exact (documentRows_orderly _ _ hitems).map _
    · exact .refuse rfl

/-- One document stands for a list of one, and has the size of it. -/
theorem documents_descends : documents.Descends := by
  refine .of_below fun ctx call => ?_
  simp only [documents]
  split
  · rename_i fields hoperand
    rw [hoperand]
    exact documentTable_orderly (by simp)
  · rename_i items hoperand
    rw [hoperand]
    exact documentTable_orderly fun v hv => Nat.le_of_lt (Value.size_lt_of_mem_items hv)
  · exact .refuse rfl

/-! ### Definitions -/

/-- A column is defined by one call, at its definition or at the body inside it. -/
theorem columnDefinition_orderly (name : String) (spec : Value) :
    (columnDefinition ctx name spec).Orderly (Call.Below (spec.size + 1)) := by
  unfold columnDefinition
  split
  · refine (name_orderly name).bind fun _ => Orderly.map (.invoke ?_) _
    split
    · rename_i body
      have hbody := Value.size_lt_of_mem_fields (List.mem_singleton_self ("$column", body))
      exact Nat.lt_succ_of_lt hbody
    · exact Nat.lt_succ_self _
  · exact .refuse rfl

theorem definitions_descends : definitions.Descends := by
  refine .of_below fun ctx call => ?_
  simp only [definitions]
  split
  · rename_i fields hoperand
    rw [hoperand]
    split
    · exact .refuse rfl
    · refine Orderly.map (.each fun entry hentry => ?_) _
      have hsize := Value.size_lt_of_mem_fields hentry
      unfold definition
      split
      · exact .invoke hsize
      · split
        · exact .refuse rfl
        · exact (columnDefinition_orderly entry.1 entry.2).below_le hsize
  · exact .refuse rfl

theorem foreignKey_orderly (operand : Value) : (foreignKey ctx operand).Orderly asks := by
  unfold foreignKey
  split
  · split
    · split
      · refine (nameList_orderly _ _).bind fun _ => (identifier_orderly _).bind fun _ => ?_
        exact (nameList_orderly _ _).map _
      · exact .refuse rfl
    · exact .refuse rfl
  · exact .refuse rfl

/-- A constraint is about names, for which no call is made. -/
theorem constraintBody_orderly (kind : String) (operand : Value) :
    (constraintBody ctx kind operand).Orderly asks := by
  unfold constraintBody
  split
  · exact (nameList_orderly _ _).map _
  · split
    · exact (nameList_orderly _ _).map _
    · split
      · exact foreignKey_orderly operand
      · exact .refuse rfl

/-- So constraints call nothing, however many there are. -/
theorem constraints_descends : constraints.Descends := by
  refine .of_silent fun ctx call => ?_
  simp only [constraints]
  split
  · split
    · exact .refuse rfl
    · refine Orderly.map (.each fun entry _ => ?_) _
      unfold constraint
      split
      · exact (constraintBody_orderly _ _).bind fun _ => (name_orderly _).map _
      · exact .refuse rfl
  · exact .refuse rfl

theorem columnType_descends : columnType.Descends := by
  refine .of_silent fun ctx call => ?_
  simp only [columnType]
  split
  · split
    · exact .pure _
    · exact .refuse rfl
  · exact .refuse rfl

/-- A length is written out as digits. -/
theorem columnLength_descends : columnLength.Descends := by
  refine .of_silent fun ctx call => ?_
  simp only [columnLength]
  split
  · exact .pure _
  · exact .refuse rfl

/-- A default is an operand like any other. -/
theorem columnDefault_descends : columnDefault.Descends :=
  .of_below fun _ call => valueExpression_orderly _ call.operand

theorem columnComment_descends : columnComment.Descends := by
  refine .of_silent fun ctx call => ?_
  simp only [columnComment]
  split
  · exact .bound _
  · exact .refuse rfl

theorem identityColumn_descends : identityColumn.Descends := by
  refine .of_silent fun ctx call => ?_
  simp only [identityColumn]
  split
  · exact .pure _
  · exact .pure _
  · exact .refuse rfl

theorem collation_descends : collation.Descends := by
  refine .of_silent fun ctx call => ?_
  simp only [collation]
  split
  · split
    · exact .refuse rfl
    · exact .pure _
  · exact .refuse rfl

theorem check_descends : check.Descends :=
  .of_below fun _ call => Filter.condition_orderly call.operand none

theorem reference_descends : reference.Descends := by
  refine .of_silent fun ctx call => ?_
  simp only [reference]
  split
  · exact name_orderly _
  · split
    · split
      · refine (identifier_orderly _).bind fun _ => ?_
        split
        · exact .pure _
        · exact (nameList_orderly _ _).map _
      · exact .refuse rfl
    · exact .refuse rfl
  · exact .refuse rfl

theorem objectIds_descends : objectIds.Descends := by
  refine .of_silent fun ctx call => ?_
  simp only [objectIds]
  split
  · exact .pure _
  · exact .refuse rfl

theorem tablespace_descends : tablespace.Descends := by
  refine .of_silent fun ctx call => ?_
  simp only [tablespace]
  split
  · exact name_orderly _
  · exact .refuse rfl

/-! ### Targets -/

theorem optionGroup_orderly (keyword : String) (options : List (String × Option String)) :
    (optionGroup keyword options).Orderly asks := by
  have hclauses : (optionClauses options).Orderly asks := by
    induction options with
    | nil => exact .pure []
    | cons option rest ih =>
      obtain ⟨keyword, _ | text⟩ := option
      · exact ih
      · exact (Orderly.bound _).bind fun _ => ih.map _
  exact hclauses.map _

theorem outfileClause_orderly (operand : Value) : (outfileClause operand).Orderly asks := by
  have hfields : ∀ options, (fieldClauses options).Orderly asks := by
    rintro (_ | options)
    · exact .pure []
    · exact optionGroup_orderly _ _
  have hlines : ∀ options, (lineClauses options).Orderly asks := by
    rintro (_ | options)
    · exact .pure []
    · exact optionGroup_orderly _ _
  unfold outfileClause
  split
  · exact .refuse rfl
  · exact (Orderly.bound _).bind fun _ => (hfields _).bind fun _ => (hlines _).map _

/-- What a result is written to is bound or named, and no call is made for it. -/
theorem target_descends : target.Descends := by
  refine .of_silent fun ctx call => ?_
  simp only [target]
  split
  · split
    · exact .refuse rfl
    · refine Orderly.map (.each fun v _ => ?_) _
      unfold variableName
      split
      · split
        · exact .pure _
        · exact .refuse rfl
      · exact .refuse rfl
  · split
    · exact outfileClause_orderly _
    · split
      · split
        · split
          · exact .refuse rfl
          · exact (Orderly.bound _).map _
        · exact .refuse rfl
      · exact .refuse rfl
  · exact .refuse rfl

theorem outfile_descends : outfile.Descends :=
  .of_silent fun _ call => (outfileClause_orderly call.operand).map _

end Operator

/-! ### Templates -/

namespace Template

/-- The calls that a template makes at its references. -/
def AsksIn (body : Fields) (call : Call) : Prop :=
  ∃ key, call.operand = body.valueOf key ∨ call.operand ∈ seriesItems (body.valueOf key)

/-- The check of a group that is switched off only looks at keys. -/
theorem checkAbsent_orderly (body : Fields) (guard : String) (keys : List String) :
    (checkAbsent body guard keys).Orderly asks := by
  induction keys with
  | nil => exact .pure ()
  | cons key rest ih =>
    rw [checkAbsent]
    split
    · exact .refuse rfl
    · exact ih

mutual

/-- A part of a template calls at the values of its own references. -/
theorem renderNode_orderly (name : String) (body : Fields) (column : Option String) :
    ∀ node : Node, (renderNode ctx name body column node).Orderly (AsksIn body)
  | .word _ _ => .pure _
  | .group children guard spaced => by
    rw [renderNode]
    split
    · exact (renderNodes_orderly name body column children).map _
    · exact (checkAbsent_orderly _ _ _).map _
  | .series key separator required spaced => by
    rw [renderNode]
    split
    · exact (Orderly.each fun item hitem => .invoke ⟨key, .inr hitem⟩).map _
    · split
      · exact .refuse rfl
      · exact .pure _
  | .required key spaced => by
    rw [renderNode]
    split
    · exact .refuse rfl
    · exact (Orderly.invoke ⟨key, .inl rfl⟩).map _
  | .inline key spaced => by
    rw [renderNode]
    split
    · exact .pure _
    · exact (Orderly.invoke ⟨key, .inl rfl⟩).map _

/-- So do the parts of a template together, groups included. -/
theorem renderNodes_orderly (name : String) (body : Fields) (column : Option String) :
    ∀ nodes : List Node, (renderNodes ctx name body column nodes).Orderly (AsksIn body)
  | [] => .pure _
  | node :: rest => by
    rw [renderNodes]
    exact (renderNode_orderly name body column node).bind fun _ =>
      (renderNodes_orderly name body column rest).map _

end

/-- A key that does not belong to the template is refused by its class. -/
theorem checkKeys_orderly (t : Template) (dialect : String) (keys : List String) :
    (t.checkKeys dialect keys).Orderly asks := by
  induction keys with
  | nil => exact .pure ()
  | cons key rest ih =>
    rw [checkKeys]
    split
    · exact .refuse rfl
    · split
      · exact .refuse rfl
      · exact ih

/-- A value of a body is a part of the operand, or a scalar where the operand has none. -/
theorem valueOf_withDefaults {defaults : Fields}
    (hdefaults : ∀ entry ∈ defaults, entry.2.isScalar = true) (fields : Fields) (key : String) :
    ((fields.withDefaults defaults).valueOf key).isScalar = true ∨
      ((fields.withDefaults defaults).valueOf key).size < (Value.object fields).size := by
  -- invariant of the merge: every value so far is a scalar or a value of the operand
  suffices h : ∀ merged : Fields,
      (∀ key, (merged.valueOf key).isScalar = true ∨
        (merged.valueOf key).size < (Value.object fields).size) →
      ((merged.withDefaults defaults).valueOf key).isScalar = true ∨
        ((merged.withDefaults defaults).valueOf key).size < (Value.object fields).size by
    refine h fields fun key => ?_
    rw [Fields.valueOf_eq]
    cases hget : fields.get? key with
    | none => exact .inl rfl
    | some v => exact .inr (Value.size_lt_of_get? hget)
  induction defaults with
  | nil => exact fun merged hmerged => hmerged key
  | cons entry rest ih =>
    obtain ⟨other, v⟩ := entry
    intro merged hmerged
    rw [Fields.withDefaults_cons]
    refine ih (fun entry hentry => hdefaults entry (List.mem_cons_of_mem _ hentry)) _ fun key => ?_
    split
    · by_cases hkey : key = other
      · subst hkey
        rw [Fields.valueOf_eq, Fields.get?_set_self]
        exact .inl (hdefaults _ List.mem_cons_self)
      · rw [Fields.valueOf_eq, Fields.get?_set_of_ne hkey, ← Fields.valueOf_eq]
        exact hmerged key
    · exact hmerged key

/-- The items of a list reference are no larger than its value. -/
theorem size_seriesItems {v item : Value} (h : item ∈ seriesItems v) :
    item = v ∨ v.isScalar = false ∧ item.size ≤ v.size := by
  cases v with
  | object fields =>
    obtain ⟨entry, hentry, rfl⟩ := mem_seriesItems_object.1 h
    exact .inr ⟨rfl, Value.size_entry_le hentry⟩
  | list items => exact .inr ⟨rfl, Nat.le_of_lt (Value.size_lt_of_mem_items h)⟩
  | null | bool flag | int number | float number | str text => exact .inl (List.mem_singleton.1 h)

/-- An operator with a template, whose defaults are scalars. -/
theorem handler_descends (t : Template) {defaults : Fields}
    (hdefaults : ∀ entry ∈ defaults, entry.2.isScalar = true) : (t.handler defaults).Descends := by
  intro ctx call
  simp only [handler]
  split
  · rename_i fields hoperand
    rw [hoperand]
    refine (checkKeys_orderly t _ _).bind fun _ => Orderly.map ?_ _
    refine (renderNodes_orderly t.name _ call.column t.nodes).mono ?_
    rintro c ⟨key, hc⟩
    have hvalue := valueOf_withDefaults hdefaults fields key
    refine Value.reach_lt rfl ?_
    rcases hc with hc | hc
    · rwa [hc]
    · rcases size_seriesItems hc with heq | ⟨hscalar, hle⟩
      · rwa [heq]
      · rw [hscalar] at hvalue
        exact .inr (Nat.lt_of_le_of_lt hle (hvalue.resolve_left Bool.false_ne_true))
  · exact .refuse rfl

end Template

/-! ## The library -/

open Operator Template

theorem Ansi.selectDefaults_isScalar : ∀ entry ∈ selectDefaults, entry.2.isScalar = true := by
  simp [selectDefaults, Value.isScalar]

/-- Every operator of the base dialect calls at operands of smaller reach. -/
theorem Ansi.descends_of_mem : ∀ entry ∈ table, entry.2.Descends := by
  simp only [table, operators, List.forall_mem_append]
  refine ⟨⟨?_, ⟨⟨⟨⟨⟨?_, ?_⟩, ?_⟩, ?_⟩, ?_⟩, ?_⟩⟩, ?_⟩
  · simp only [templated, List.map_cons, List.map_nil, List.forall_mem_cons]
    refine ⟨handler_descends _ selectDefaults_isScalar, handler_descends _ (by simp),
      handler_descends _ (by simp), handler_descends _ (by simp), handler_descends _ (by simp),
      handler_descends _ (by simp), handler_descends _ (by simp), by simp⟩
  · simp only [List.forall_mem_cons]
    exact ⟨resultColumns_descends, tables_descends, tables_descends, filter_descends,
      filter_descends, grouping_descends, sorting_descends, limit_descends, offset_descends,
      assignments_descends, documents_descends, by simp⟩
  · exact List.forall_mem_map.2 fun name _ => flag_descends name
  · exact List.forall_mem_singleton.2 boundValue_descends
  · exact List.forall_mem_map.2 fun entry _ => aggregate_descends _ _
  · exact List.forall_mem_map.2 fun entry _ => comparison_descends _ _
  · simp only [List.forall_mem_cons]
    exact ⟨membership_descends _ _, membership_descends _ _, between_descends, nullTest_descends,
      definitions_descends, constraints_descends, columnType_descends, columnLength_descends,
      columnDefault_descends, by simp⟩
  · simp only [List.forall_mem_cons]
    exact ⟨expressionTest_descends, negation_descends, by simp⟩

/-- So does every operator that MySQL adds or replaces. -/
theorem Mysql.descends_of_mem : ∀ entry ∈ table, entry.2.Descends := by
  simp only [table, operators, List.forall_mem_append, List.forall_mem_cons]
  exact ⟨⟨handler_descends _ Ansi.selectDefaults_isScalar, handler_descends _ (by simp), by simp⟩,
    target_descends, outfile_descends, columnComment_descends, flag_descends _, flag_descends _,
    flag_descends _, by simp⟩

/-- So does every operator that PostgreSQL adds or replaces. -/
theorem Postgres.descends_of_mem : ∀ entry ∈ table, entry.2.Descends := by
  simp only [table, operators, List.forall_mem_append, List.forall_mem_cons]
  exact ⟨⟨handler_descends _ (by simp), handler_descends _ (by simp), handler_descends _ (by simp),
      by simp⟩,
    comparison_descends _ _, flag_descends _, identityColumn_descends, collation_descends,
    check_descends, reference_descends, objectIds_descends, tablespace_descends, by simp⟩

namespace Dialect

variable {d : Dialect}

/-- **Every call of an operator of the library goes to an operand of smaller reach.** -/
theorem descends_of_mem (hd : d ∈ library) {name : String} {handler : Handler}
    (h : d.registry.find? name = some handler) : handler.Descends := by
  rcases List.mem_append.1 (find?_mem hd h) with hmem | hmem
  · rcases List.mem_append.1 hmem with hmem | hmem
    · exact Ansi.descends_of_mem _ hmem
    · exact Mysql.descends_of_mem _ hmem
  · exact Postgres.descends_of_mem _ hmem

/-! ## Answers without a bound -/

/-- The answer to a call, nested as deep as its operand reaches. -/
def respond (d : Dialect) (call : Call) : Rendering.Compile String :=
  d.answer call.operand.reach call

/-- Bounds that are not below the reach of the operand give the same answer. -/
theorem answer_eq_respond (hd : d ∈ library) {depth : Nat} {call : Call}
    (h : call.operand.reach ≤ depth) : d.answer depth call = d.respond call := by
  suffices hsame : ∀ m n (call : Call), call.operand.reach ≤ m → call.operand.reach ≤ n →
      d.answer m call = d.answer n call from hsame _ _ call h (Nat.le_refl _)
  intro m
  induction m with
  | zero =>
    intro n call hm _
    have := call.operand.reach_pos
    omega
  | succ m ih =>
    intro n call hm hn
    have := call.operand.reach_pos
    obtain ⟨n, rfl⟩ : ∃ k, n = k + 1 := Nat.exists_eq_add_one.2 (by omega)
    rw [answer, answer]
    cases hfind : d.registry.find? call.operator with
    | none => rfl
    | some handler =>
      refine (descends_of_mem hd hfind _ call).run_congr fun c hc => ?_
      exact ih n c (by omega) (by omega)

/-- A call is answered by its operator, whose own calls are answered in the same way. -/
theorem respond_eq (hd : d ∈ library) (call : Call) :
    d.respond call =
      match d.registry.find? call.operator with
      | none => throw (.unknownOperator call.operator d.name .unregistered)
      | some handler =>
        (handler.render (d.context call.combinator) call).run d.placeholder d.respond := by
  obtain ⟨depth, hdepth⟩ : ∃ k, call.operand.reach = k + 1 :=
    Nat.exists_eq_add_one.2 call.operand.reach_pos
  rw [respond, hdepth, answer]
  cases hfind : d.registry.find? call.operator with
  | none => rfl
  | some handler =>
    refine (descends_of_mem hd hfind _ call).run_congr fun c hc => ?_
    exact answer_eq_respond hd (by omega)

/-- The bound of a compilation is not reached by programs whose calls are at parts of the value. -/
theorem runFor_eq (hd : d ∈ library) {α : Type} {v : Value} {program : Rendering α}
    (h : program.Orderly (Call.Below v.size)) :
    d.runFor v program = program.run d.placeholder d.respond := by
  refine h.run_congr fun c hc => answer_eq_respond hd ?_
  have hreach := c.operand.reach_le
  have hsize : c.operand.size < v.size := hc
  rw [callBound]
  omega

end Dialect

end QueryTree
