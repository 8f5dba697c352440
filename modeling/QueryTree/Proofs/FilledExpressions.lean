import QueryTree.Proofs.ExpressionClauses
import QueryTree.Proofs.Gaps

/-!
# Expressions without gaps

Names, operands, lists of names, columns and filters leave no gap, given that the calls they make
are answered without one.  A filter and the columns of a result are refused if they are empty, and
so is an empty list of names; an empty object of names is not.

* `Sql.Styled` is what is asked of the context that a program is rendered in, and `Sql.Furnished` of
  the answers to its calls.
* `Sql.Fills` : whatever a program yields is filled; `Sql.FillsAll` : it yields filled texts, as
  many as there are items.
* `LacksNames` : a list of names that is an empty object, or that has one in it.
* **`valueExpression_fills`**, **`nameList_fills`**, **`projection_fills`**,
  **`condition_fills`** : the four kinds of expression.
-/

namespace QueryTree

/-- A list of names with an empty object in it. -/
inductive LacksNames : Value → Prop where
  | object : LacksNames (.object [])
  | list {items : List Value} {v : Value} (mem : v ∈ items) (lacks : LacksNames v) :
      LacksNames (.list items)

namespace Sql

/-! ## Programs that leave no gap -/

/-- A context of a scheme, with texts of its own that are filled. -/
structure Styled (S : Scheme) (ctx : Context) : Prop where
  mark : ctx.quoting.mark = S.mark
  maxLimit : Filled S.mark ctx.maxLimit
  slots : ∀ n, Filled S.mark (S.text n)

/-- All answers to calls are filled, too. -/
structure Furnished (S : Scheme) (ctx : Context) (replies : ReplyRel) : Prop
    extends Styled S ctx where
  answered : ∀ call n t vs, replies call n t vs → Filled S.mark t

/-- Whatever the program yields is filled. -/
abbrev Fills (S : Scheme) (replies : ReplyRel) : Rendering String → Prop :=
  Ensures S replies fun _ t _ => Filled S.mark t

/-- Whatever the program yields are filled texts, as many as there are items. -/
abbrev FillsAll (S : Scheme) (replies : ReplyRel) {α : Type} (items : List α) :
    Rendering (List String) → Prop :=
  Ensures S replies fun _ ts _ => ts.length = items.length ∧ ∀ t ∈ ts, Filled S.mark t

variable {S : Scheme} {ctx : Context} {replies : ReplyRel}

/-- A program for every item, whose texts all have a property. -/
theorem Ensures.each {α : Type} {P : String → Prop} {f : α → Rendering String} {items : List α}
    (hf : ∀ a ∈ items, Ensures S replies (fun _ t _ => P t) (f a)) :
    Ensures S replies (fun _ ts _ => ts.length = items.length ∧ ∀ t ∈ ts, P t)
      (Rendering.each f items) := by
  induction items with
  | nil => exact .pure fun _ => ⟨rfl, by simp⟩
  | cons a rest ih =>
    refine (hf a List.mem_cons_self).map₂ (ih fun b hb => hf b (List.mem_cons_of_mem _ hb))
      fun hfirst hothers => ?_
    exact ⟨congrArg (· + 1) hothers.1, List.forall_mem_cons.2 ⟨hfirst, hothers.2⟩⟩

/-- Filled texts in a row; there has to be one. -/
theorem Fills.join {α : Type} {items : List α} {x : Rendering (List String)}
    (hx : FillsAll S replies items x) (hne : items ≠ []) {text : String} (htext : Joins text) :
    Fills S replies (do let ts ← x; return text.intercalate ts) := by
  refine hx.map fun ⟨hlength, hfilled⟩ => .join htext ?_ hfilled
  rintro rfl
  exact hne (List.length_eq_zero_iff.1 hlength.symm)

/-- The texts of all items with commas between them; there has to be an item. -/
theorem Fills.eachJoin {α : Type} {f : α → Rendering String} {items : List α}
    (hf : ∀ a ∈ items, Fills S replies (f a)) (hne : items ≠ []) :
    Fills S replies (do let ts ← Rendering.each f items; return commaList ts) :=
  .join (Ensures.each hf) hne (by decide)

/-! ## Names -/

/-- A name has at least one segment. -/
theorem segments_of_name {token : Nat → String} {text t : String} {n : Nat} {vs : List Value}
    (h : (ctx.name text).Yields token replies n t vs) :
    ∃ parts, parts ≠ [] ∧ t = String.ofList (ctx.quoting.joinSegments parts) := by
  obtain ⟨hname, -⟩ := Rendering.yields_ofExcept.1 h
  unfold QuoteStyle.name at hname
  split at hname
  · cases hname
  · dsimp only at hname
    split at hname
    · cases hname
    · cases hname
      exact ⟨_, Text.split_ne_nil _ _, rfl⟩

/-- A name that is quoted is not empty. -/
theorem name_fills (hmark : ctx.quoting.mark = S.mark) (text : String) :
    Fills S replies (ctx.name text) := by
  intro n t vs hyields
  obtain ⟨parts, hne, rfl⟩ := segments_of_name hyields
  exact filled_segments hmark hne

theorem identifier_fills (hmark : ctx.quoting.mark = S.mark) (v : Value) :
    Fills S replies (ctx.identifier v) := by
  cases v with
  | str text => exact name_fills hmark text
  | null | bool flag | int number | float number | list items | object fields => exact .refuse _

/-- An alias is a name too. -/
theorem aliasedName_fills (hmark : ctx.quoting.mark = S.mark) (operator : Option String)
    (name : String) (spec : Value) : Fills S replies (aliasedName ctx operator name spec) := by
  unfold aliasedName
  split
  · exact name_fills hmark name
  · split
    · exact (name_fills hmark name).map₂ (identifier_fills hmark _)
        fun ha hb => .sep (by decide) ha hb
    · exact .refuse _

/-- Lists of names leave a gap only where a list among them is empty. -/
theorem nameList_fills (hmark : ctx.quoting.mark = S.mark) (operator : Option String) {v : Value}
    (hv : ¬ LacksNames v) : Fills S replies (nameList ctx operator v) := by
  induction v using Value.induct with
  | scalar v hscalar =>
    cases v with
    | str text =>
      rw [nameList]
      exact name_fills hmark text
    | null | bool flag | int number | float number => exact .refuse _
    | list items | object fields => cases hscalar
  | list items ih =>
    rw [nameList, nameItems_eq_each]
    split
    · exact .refuse _
    · rename_i hne
      exact .eachJoin (fun v hv' => ih v hv' fun hlacks => hv (.list hv' hlacks))
        (by simpa using hne)
  | object fields _ =>
    rw [nameList]
    refine .eachJoin (fun entry _ => aliasedName_fills hmark operator entry.1 entry.2) ?_
    rintro rfl
    exact hv .object

/-! ## Expressions -/

namespace Styled

theorem bound (h : Styled S ctx) (v : Value) : Fills S replies (.bound v) := by
  intro n t vs hyields
  obtain ⟨rfl, -⟩ := Rendering.yields_bound.1 hyields
  exact h.slots (n + 1)

theorem name (h : Styled S ctx) (text : String) : Fills S replies (ctx.name text) :=
  name_fills h.mark text

theorem identifier (h : Styled S ctx) (v : Value) : Fills S replies (ctx.identifier v) :=
  identifier_fills h.mark v

end Styled

namespace Furnished

/-- What is asked of the answers to calls. -/
theorem call (h : Furnished S ctx replies) (call : Call) : Fills S replies (.invoke call) :=
  fun n t vs hyields => h.answered call n t vs (Rendering.yields_invoke.1 hyields)

theorem invoke (h : Furnished S ctx replies) (operator : String) (operand : Value) (node : Fields)
    (column : Option String) : Fills S replies (ctx.invoke operator operand node column) :=
  h.call ⟨operator, operand, node, column, ctx.combinator⟩

end Furnished

/-- An operand is a placeholder, or the answer of an operator that does not leave it empty. -/
theorem valueExpression_fills (h : Furnished S ctx replies) (operator : Option String)
    (v : Value) : Fills S replies (valueExpression ctx operator v) := by
  cases v with
  | object fields =>
    rcases fields with _ | ⟨⟨key, operand⟩, _ | ⟨second, rest⟩⟩
    · exact .refuse _
    · rw [valueExpression]
      split
      · refine (h.invoke key operand _ none).map fun ht => ?_
        split
        · exact .enclose (by decide) (by decide) ht
        · exact ht
      · exact .refuse _
    · exact .refuse _
  | list items => exact .refuse _
  | null | bool flag | int number | float number | str text => exact h.bound _

/-- A column that is there is filled. -/
theorem columnEntry_fills (h : Furnished S ctx replies) (name : String) (spec : Value) :
    Ensures S replies (fun _ column _ => ∀ t ∈ Option.toList column, Filled S.mark t)
      (columnEntry ctx name spec) := by
  -- every column but a switch has the form `source AS target`
  have renamed : ∀ {source target : Rendering String}, Fills S replies source →
      Fills S replies target →
      Ensures S replies (fun _ column _ => ∀ t ∈ Option.toList column, Filled S.mark t)
        (do let a ← source; let b ← target; return some (a ++ " AS " ++ b)) :=
    fun hsource htarget => hsource.map₂ htarget fun ha hb => by
      simpa using Filled.sep (by decide) ha hb
  unfold columnEntry
  split
  · rw [map_eq_pure_bind]
    exact (h.name name).map fun ht => by simpa using ht
  · split
    · exact .pure fun _ => by simp
    · cases spec with
      | list items => exact .refuse _
      | object fields =>
        dsimp only
        split
        · split
          · exact renamed (h.name name) (h.identifier _)
          · exact renamed (valueExpression_fills h _ _) (h.identifier _)
        · exact renamed (valueExpression_fills h _ _) (h.name name)
      | null | bool flag | int number | float number | str text =>
        exact renamed (h.bound _) (h.name name)

theorem columnEntries_fills (h : Furnished S ctx replies) (fields : Fields) :
    Ensures S replies (fun _ ts _ => ∀ t ∈ ts, Filled S.mark t) (columnEntries ctx fields) := by
  induction fields with
  | nil => exact .pure fun _ => by simp
  | cons entry rest ih =>
    rw [columnEntries]
    split
    · exact .refuse _
    · exact (columnEntry_fills h entry.1 entry.2).map₂ ih
        fun column columns => List.forall_mem_append.2 ⟨column, columns⟩

/-- So are all that an item of a list gives. -/
theorem columnItem_fills (h : Furnished S ctx replies) (v : Value) :
    Ensures S replies (fun _ ts _ => ∀ t ∈ ts, Filled S.mark t) (columnItem ctx v) := by
  cases v with
  | str text => exact (h.name text).map fun ht => by simpa using ht
  | object fields => exact columnEntries_fills h fields
  | null | bool flag | int number | float number | list items => exact .refuse _

/-- The texts of all items together. -/
theorem Ensures.each_flatten {α : Type} {f : α → Rendering (List String)} {items : List α}
    (hf : ∀ a ∈ items, Ensures S replies (fun _ ts _ => ∀ t ∈ ts, Filled S.mark t) (f a)) :
    Ensures S replies (fun _ tss _ => ∀ t ∈ tss.flatten, Filled S.mark t)
      (Rendering.each f items) := by
  induction items with
  | nil => exact .pure fun _ => by simp
  | cons a rest ih =>
    refine (hf a List.mem_cons_self).map₂ (ih fun b hb => hf b (List.mem_cons_of_mem _ hb))
      fun first others => ?_
    rw [List.flatten_cons]
    exact List.forall_mem_append.2 ⟨first, others⟩

/-- All columns of a list; that there is one is checked. -/
theorem Fills.columnsOf {α : Type} {x : Rendering α} {f : α → List String}
    (hx : Ensures S replies (fun _ a _ => ∀ t ∈ f a, Filled S.mark t) x) :
    Fills S replies (do let a ← x; columnsOf (f a)) := by
  intro n t vs hyields
  obtain ⟨a, us, _, ha, hcolumns, rfl⟩ := Rendering.yields_bind.1 hyields
  unfold QueryTree.columnsOf at hcolumns
  split at hcolumns
  · exact (Rendering.yields_refuse.1 hcolumns).elim
  · rename_i hne
    obtain ⟨rfl, -⟩ := Rendering.yields_pure.1 hcolumns
    exact .join (by decide) (by simpa using hne) (hx n a us ha)

/-- There is a column, since a selection of none is refused. -/
theorem projection_fills (h : Furnished S ctx replies) (v : Value) :
    Fills S replies (projection ctx v) := by
  cases v with
  | str text => exact h.name text
  | list items => exact .columnsOf (.each_flatten fun v _ => columnItem_fills h v)
  | object fields => exact Fills.columnsOf (columnEntries_fills h fields)
  | null | bool flag | int number | float number => exact .refuse _

/-! ## Filters -/

/-- The parts of a combination, joined; there has to be one. -/
theorem Fills.group {α : Type} {items : List α} {x : Rendering (List String)}
    (hx : FillsAll S replies items x) (hne : items ≠ []) (kind : Combinator)
    (parent : Option Combinator) :
    Fills S replies (do let parts ← x; Filter.group kind parts parent) := by
  intro n t vs hyields
  obtain ⟨parts, us, _, hparts, hgroup, -⟩ := Rendering.yields_bind.1 hyields
  have hjoined : ∀ {joiner : String}, Joins joiner → Filled S.mark (joiner.intercalate parts) :=
    fun hjoiner => Fills.join hx hne hjoiner n _ us (by simpa using ⟨parts, hparts, rfl⟩)
  unfold Filter.group at hgroup
  split at hgroup
  · exact (Rendering.yields_refuse.1 hgroup).elim
  · rename_i joiner hjoiner
    have hjoins : Joins joiner := by
      cases kind with
      | and => cases hjoiner; decide
      | or => cases hjoiner; decide
      | other key => cases hjoiner
    dsimp only at hgroup
    split at hgroup
    · obtain ⟨rfl, -⟩ := Rendering.yields_pure.1 hgroup
      exact .enclose (by decide) (by decide) (hjoined hjoins)
    · obtain ⟨rfl, -⟩ := Rendering.yields_pure.1 hgroup
      exact hjoined hjoins

/-- A condition on a column has at least one test, and each of them is filled. -/
theorem columnPredicate_fills (h : Furnished S ctx replies) (column : String) (spec : Value)
    (parent : Option Combinator) :
    Fills S replies (Filter.columnPredicate ctx column spec parent) := by
  cases spec with
  | null => exact (h.name column).map fun ht => ht.trail (by decide)
  | list items => exact h.invoke "$in" (.list items) _ (some column)
  | object fields =>
    rw [Filter.columnPredicate]
    split
    · exact .refuse _
    · rename_i hne
      refine .group (Ensures.each fun entry _ => ?_) (by simpa using hne) .and parent
      unfold Filter.columnTest
      split
      · exact h.invoke entry.1 entry.2 fields (some column)
      · exact .refuse _
  | bool flag => exact h.invoke "$eq" (.bool flag) _ (some column)
  | int number => exact h.invoke "$eq" (.int number) _ (some column)
  | float number => exact h.invoke "$eq" (.float number) _ (some column)
  | str text => exact h.invoke "$eq" (.str text) _ (some column)

/-- A filter, and the same value as the operand of a connective. -/
theorem condition_and_combine_fill (h : Furnished S ctx replies) (v : Value) :
    (∀ parent, Fills S replies (Filter.condition ctx v parent)) ∧
      ∀ kind parent, Fills S replies (Filter.combine ctx kind v parent) := by
  induction v using Value.induct with
  | scalar v hv =>
    cases v with
    | null | bool flag | int number | float number | str text =>
      exact ⟨fun _ => .refuse _, fun _ _ => .refuse _⟩
    | list items | object fields => cases hv
  | list items ih =>
    refine ⟨fun _ => .refuse _, fun kind parent => ?_⟩
    rw [Filter.combine_list]
    split
    · exact .refuse _
    · rename_i hne
      exact .group (Ensures.each fun v hv => (ih v hv).1 (some kind)) (by simpa using hne) kind
        parent
  | object fields ih =>
    refine ⟨fun parent => ?_, fun _ _ => .refuse _⟩
    rw [Filter.condition_object]
    split
    · exact .refuse _
    · rename_i hne
      refine .group (Ensures.each fun entry hentry => ?_) (by simpa using hne) .and parent
      cases hkey : Combinator.ofKey entry.1 with
      | and | or =>
        rw [Filter.conditionEntry_eq_combine _ _ _ _ (by simp [hkey])]
        exact (ih entry hentry).2 _ _
      | other label =>
        rw [Filter.conditionEntry_of_other hkey]
        split
        · split
          · exact h.call ⟨entry.1, entry.2, fields, none, _⟩
          · exact .refuse _
        · exact columnPredicate_fills h entry.1 entry.2 _

/-- **A filter leaves no gap**, because empty ones are refused at every depth. -/
theorem condition_fills (h : Furnished S ctx replies) (v : Value) (parent : Option Combinator) :
    Fills S replies (Filter.condition ctx v parent) :=
  (condition_and_combine_fill h v).1 parent

end Sql

end QueryTree
