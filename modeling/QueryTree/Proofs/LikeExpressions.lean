import QueryTree.Expression.Columns
import QueryTree.Proofs.Equations
import QueryTree.Proofs.Likeness

/-!
# Expressions of queries that are alike

Names, operands, lists of names, columns and filters of values that are alike keep in step and
render texts that are alike, in contexts that are alike.  The texts differ by parentheses exactly if
the contexts stand in different connectives and the value holds an expression that depends on it.

* `Context.Like.name`, `Context.Like.identifier`, `Context.Like.invoke` are the steps of a
  rendering.
* **`valueExpression_like`**, **`nameList_like`**, **`projection_like`**, **`condition_like`** : the
  four kinds of expression.
-/

namespace QueryTree

open Rendering (InStep)
open Likeness (Renders RendersAll)

variable {L : Likeness} {vary : Value → Value → Prop} {ctx ctx' : Context}

/-! ## Steps of a rendering -/

namespace Context.Like

/-- Names are quoted alike. -/
theorem name (h : ctx.Like L ctx') (text : String) :
    L.Renders vary False (ctx.name text) (ctx'.name text) := by
  unfold Context.name QuoteStyle.name
  split
  · exact .refuse
  · dsimp only
    split
    · exact .refuse
    · exact .pure (h.names _)

theorem identifier (h : ctx.Like L ctx') (v : Value) :
    L.Renders vary False (ctx.identifier v) (ctx'.identifier v) := by
  cases v with
  | str text => exact h.name text
  | null | bool flag | int number | float number | list items | object fields => exact .refuse

/-- One segment is quoted as a name of one segment. -/
theorem segment (h : ctx.Like L ctx') (text : String) :
    L.rel False 0 (ctx.quoting.segment text) (ctx'.quoting.segment text) := by
  simpa [QuoteStyle.segment, QuoteStyle.joinSegments, List.intercalate] using h.names [text.toList]

/-- Calls at operands that are alike are answered alike. -/
theorem invoke (h : ctx.Like L ctx') {operator : String} {v v' : Value} {p : Position}
    {node node' : Fields} (hv : Alike vary (.ofOperator operator) v v')
    (hnode : EntriesAlike vary p node node') (column : Option String) :
    L.Renders vary
      (Combinator.Enters ctx.combinator ctx'.combinator ∧ Exposed (.ofOperator operator) v)
      (ctx.invoke operator v node column) (ctx'.invoke operator v' node' column) := by
  have hcall : Call.Like vary ⟨operator, v, node, column, ctx.combinator⟩
      ⟨operator, v', node', column, ctx'.combinator⟩ :=
    ⟨rfl, hv, fun key => (hnode.valueOf key).isNull_eq, rfl, h.encloses⟩
  exact InStep.invoke (K := L.pairing vary) hcall

/-- Inside the same connective nothing enters another one. -/
theorem invoke_within {operator : String} {v v' : Value} {p : Position} {node node' : Fields}
    (hv : Alike vary (.ofOperator operator) v v') (hnode : EntriesAlike vary p node node')
    (parent : Option Combinator) (column : Option String) :
    L.Renders vary False ((ctx.within parent).invoke operator v node column)
      ((ctx'.within parent).invoke operator v' node' column) := by
  have hcall : Call.Like vary ⟨operator, v, node, column, parent⟩
      ⟨operator, v', node', column, parent⟩ :=
    ⟨rfl, hv, fun key => (hnode.valueOf key).isNull_eq, rfl, id⟩
  refine Renders.congr (InStep.invoke (K := L.pairing vary) hcall) ?_
  exact iff_of_false (fun henters => Combinator.not_enters_self parent henters.1) id

end Context.Like

/-! ## Operands -/

theorem valueExpression_scalar (ctx : Context) (operator : Option String) {v : Value}
    (hv : v.isScalar = true) : valueExpression ctx operator v = .bound v := by
  cases v with
  | null | bool flag | int number | float number | str text => rfl
  | list items | object fields => cases hv

/-- An operand may vary as a scalar, and keeps in step inside an operator. -/
theorem valueExpression_like (h : ctx.Like L ctx') {p : Position} (hp : p.isValue = true)
    {v v' : Value} (hv : Alike vary p v v') (operator : Option String) :
    L.Renders vary (Combinator.Enters ctx.combinator ctx'.combinator ∧ Exposed p v)
      (valueExpression ctx operator v) (valueExpression ctx' operator v') := by
  cases v with
  | list items =>
    obtain ⟨items', rfl, -⟩ := hv.list_inv
    exact .refuse
  | object fields =>
    obtain ⟨fields', rfl, hfields⟩ := hv.object_inv
    cases hfields with
    | nil => exact .refuse
    | cons first rest =>
      cases rest with
      | cons => exact .refuse
      | nil =>
        rw [valueExpression, valueExpression]
        split
        · rw [p.under_of_isValue hp] at first
          rw [Exposed.single_iff hp, ← h.isStatement]
          refine (h.invoke first (.cons (p := .nested) first .nil) none).map fun k t t' ht => ?_
          split
          · exact L.after ")" (L.before "(" ht)
          · exact ht
        · exact .refuse
  | null | bool flag | int number | float number | str text =>
    refine Renders.of_not ?_ fun hexposed => Exposed.not_scalar rfl hexposed.2
    rcases hv.scalar_inv rfl with rfl | ⟨-, hscalar, -, -, hvary⟩
    · exact .bound (.inl rfl)
    · rw [valueExpression_scalar ctx' operator hscalar]
      exact .bound (.inr hvary)

/-! ## Lists of names -/

theorem aliasedName_like (h : ctx.Like L ctx') (operator : Option String) (name : String)
    (spec : Value) :
    L.Renders vary False (aliasedName ctx operator name spec)
      (aliasedName ctx' operator name spec) := by
  unfold aliasedName
  split
  · exact h.name name
  · split
    · exact (h.name name).map₂ (h.identifier _) fun _ _ _ _ _ _ ha hb =>
        L.congr (L.join " AS " ha hb) (by simp) rfl
    · exact .refuse

/-- The texts of items none of which differs by parentheses. -/
theorem Likeness.RendersAll.each_same {α : Type} {f g : α → Rendering String} {items : List α}
    (h : ∀ a ∈ items, L.Renders vary False (f a) (g a)) :
    L.RendersAll vary False (Rendering.each f items) (Rendering.each g items) :=
  (RendersAll.each (E := fun _ => False) (List.forall₂_same.2 h)).congr (by simp)

/-- Lists of names are not data, and stay the same. -/
theorem nameList_like (h : ctx.Like L ctx') (operator : Option String) (v : Value) :
    L.Renders vary False (nameList ctx operator v) (nameList ctx' operator v) := by
  induction v using Value.induct with
  | scalar v hv =>
    cases v with
    | str text => exact h.name text
    | null | bool flag | int number | float number => exact .refuse
    | list items | object fields => cases hv
  | list items ih =>
    rw [nameList, nameList, nameItems_eq_each, nameItems_eq_each]
    split
    · exact .refuse
    · exact (RendersAll.each_same ih).map fun _ _ _ ht => ht.commaList
  | object fields _ =>
    rw [nameList, nameList]
    exact (RendersAll.each_same fun entry _ => aliasedName_like h operator entry.1 entry.2).map
      fun _ _ _ ht => ht.commaList

/-! ## Columns of a result -/

/-- Values that are looked up in an object without one of its keys. -/
theorem Fields.valueOf_filter_ne {key key' : String} (hkey : key' ≠ key) (fields : Fields) :
    Fields.valueOf (fields.filter fun entry => entry.1 != key) key' = fields.valueOf key' := by
  rw [Fields.valueOf_eq, Fields.valueOf_eq]
  congr 1
  induction fields with
  | nil => rfl
  | cons entry rest ih =>
    obtain ⟨k, v⟩ := entry
    rw [List.filter_cons, Fields.get?_cons]
    by_cases hk : key' = k
    · have : (k != key) = true := by simpa using hk ▸ hkey
      rw [if_pos hk, if_pos this, Fields.get?_cons, if_pos hk]
    · rw [if_neg hk, ← ih]
      split
      · rw [Fields.get?_cons, if_neg hk]
      · rfl

/-- The new name of a column is no part of its expression. -/
theorem Exposed.without_as_iff (fields : Fields) :
    Exposed .nested (.object (fields.filter fun entry => entry.1 != "$as")) ↔
      Exposed .nested (.object fields) := by
  rw [Exposed.value_iff rfl, Exposed.value_iff rfl]
  refine exists_congr fun key => ?_
  by_cases hkey : key = "$as"
  · subst hkey
    exact iff_of_false (Exposed.not_fixed _) (Exposed.not_fixed _)
  · rw [Fields.valueOf_filter_ne hkey]

/-- A scalar says what to do with a column, so it is the same. -/
theorem Alike.eq_of_scalar {p : Position} (hp : p.isBound = false) {v v' : Value}
    (hv : Alike vary p v v') (hscalar : v.isScalar = true) : v' = v := by
  rcases hv.scalar_inv hscalar with heq | ⟨hbound, -⟩
  · exact heq
  · rw [hp] at hbound
    cases hbound

/-- A column is left out on both sides or on none. -/
theorem columnEntry_like (h : ctx.Like L ctx') (name : String) {spec spec' : Value}
    (hspec : Alike vary .nested spec spec') :
    InStep (L.pairing vary)
      (fun k column column' => L.Texts
        (Combinator.Enters ctx.combinator ctx'.combinator ∧ Exposed .nested spec) k
        (Option.toList column) (Option.toList column')) 0
      (columnEntry ctx name spec) (columnEntry ctx' name spec') := by
  -- every column but a switch has the form `source AS target`
  have renamed : ∀ {e : Prop} {source source' target target' : Rendering String},
      L.Renders vary e source source' → L.Renders vary False target target' →
      InStep (L.pairing vary)
        (fun k column column' => L.Texts e k (Option.toList column) (Option.toList column')) 0
        (do let a ← source; let b ← target; return some (a ++ " AS " ++ b))
        (do let a ← source'; let b ← target'; return some (a ++ " AS " ++ b)) :=
    fun hsource htarget => hsource.map₂ htarget fun _ _ _ _ _ _ ha hb =>
      .singleton (L.congr (L.join " AS " ha hb) (by simp) rfl)
  cases spec with
  | list items =>
    obtain ⟨items', rfl, -⟩ := hspec.list_inv
    exact .refuse
  | object fields =>
    obtain ⟨fields', rfl, hfields⟩ := hspec.object_inv
    have has := hfields.get? "$as"
    unfold columnEntry
    simp only [Value.isSwitch, Bool.false_eq_true, if_false]
    generalize Fields.get? fields "$as" = found at has ⊢
    generalize Fields.get? fields' "$as" = found' at has ⊢
    cases has with
    | none => exact renamed (valueExpression_like h rfl hspec _) (h.name name)
    | some hrename =>
      obtain rfl := Alike.eq_of_fixed hrename
      have hrest := hfields.filter (· != "$as")
      dsimp only
      rw [← Exposed.without_as_iff, hrest.isEmpty_eq]
      split
      · rename_i hempty
        rw [← hrest.isEmpty_eq, List.isEmpty_iff] at hempty
        rw [hempty]
        exact renamed ((h.name name).of_not fun hexposed => Exposed.not_absent rfl hexposed.2)
          (h.identifier _)
      · exact renamed (valueExpression_like h rfl (.object (by decide) hrest) _) (h.identifier _)
  | null | bool flag | int number | float number | str text =>
    obtain rfl := Alike.eq_of_scalar rfl hspec rfl
    refine InStep.mono
      (R := fun k column column' => L.Texts False k (Option.toList column) (Option.toList column'))
      (fun _ _ _ ht => ht.congr (iff_of_false id fun h => Exposed.not_scalar rfl h.2) rfl) ?_
    unfold columnEntry
    split
    · rw [map_eq_pure_bind, map_eq_pure_bind]
      exact (h.name name).map fun _ _ _ ht => .singleton ht
    · split
      · exact .pure .nil
      · exact renamed (.bound (.inl rfl)) (h.name name)

/-- What is exposed in an object is so in its first entry or in the others. -/
theorem Exposed.columns_cons_iff {name : String} (hname : isOperatorKey name = false) {spec : Value}
    {rest : Fields} :
    Exposed .columns (.object ((name, spec) :: rest)) ↔
      Exposed .nested spec ∨ Exposed .columns (.object rest) := by
  rw [Exposed.entries_iff (by decide) rfl, Exposed.entries_iff (by decide) rfl]
  simp [Position.passesOn, Position.under, hname]

theorem columnEntries_like (h : ctx.Like L ctx') :
    ∀ {fields fields' : Fields}, EntriesAlike vary .columns fields fields' →
      L.RendersAll vary
        (Combinator.Enters ctx.combinator ctx'.combinator ∧ Exposed .columns (.object fields))
        (columnEntries ctx fields) (columnEntries ctx' fields')
  | _, _, .nil => .pure (Likeness.Texts.nil.congr
      (iff_of_false id fun hexposed => Exposed.not_absent rfl hexposed.2) rfl)
  | _, _, @EntriesAlike.cons _ _ name spec spec' _ _ first rest => by
    rw [columnEntries, columnEntries]
    split
    · exact .refuse
    · rename_i hname
      have hname : isOperatorKey name = false := by simpa using hname
      rw [Exposed.columns_cons_iff hname, and_or_left]
      have hspec : Alike vary .nested spec spec' := by simpa [Position.under, hname] using first
      exact (columnEntry_like h name hspec).map₂ (columnEntries_like h rest)
        fun _ _ _ _ _ _ hcolumn hcolumns => hcolumn.append hcolumns

/-- An item of a list of columns gives as many columns on both sides. -/
theorem columnItem_like (h : ctx.Like L ctx') {v v' : Value} (hv : Alike vary .columns v v') :
    L.RendersAll vary (Combinator.Enters ctx.combinator ctx'.combinator ∧ Exposed .columns v)
      (columnItem ctx v) (columnItem ctx' v') := by
  cases v with
  | str text =>
    obtain rfl := hv.eq_of_scalar rfl rfl
    refine RendersAll.congr (e := False) ?_
      (iff_of_false id fun hexposed => Exposed.not_scalar rfl hexposed.2)
    exact (h.name text).map fun _ _ _ ht => .singleton ht
  | object fields =>
    obtain ⟨fields', rfl, hfields⟩ := hv.object_inv
    exact columnEntries_like h hfields
  | list items =>
    obtain ⟨items', rfl, -⟩ := hv.list_inv
    exact .refuse
  | null | bool flag | int number | float number =>
    obtain rfl := hv.eq_of_scalar rfl rfl
    exact .refuse

/-- All columns of a list. -/
theorem columnsOf_like {e : Prop} {α β : Type} {x : Rendering α} {y : Rendering β}
    {f : α → List String} {g : β → List String}
    (hx : InStep (L.pairing vary) (fun k a b => L.Texts e k (f a) (g b)) 0 x y) :
    L.Renders vary e (do let a ← x; columnsOf (f a)) (do let b ← y; columnsOf (g b)) := by
  refine hx.andThen fun k a b htexts => ?_
  unfold columnsOf
  rw [htexts.isEmpty_eq]
  split
  · exact .refuse
  · exact .pure htexts.commaList

/-- **The columns of a result keep in step.** -/
theorem projection_like (h : ctx.Like L ctx') {v v' : Value} (hv : Alike vary .columns v v') :
    L.Renders vary (Combinator.Enters ctx.combinator ctx'.combinator ∧ Exposed .columns v)
      (projection ctx v) (projection ctx' v') := by
  cases v with
  | str text =>
    obtain rfl := hv.eq_of_scalar rfl rfl
    exact (h.name text).of_not fun hexposed => Exposed.not_scalar rfl hexposed.2
  | list items =>
    obtain ⟨items', rfl, hitems⟩ := hv.list_inv
    rw [Exposed.list_iff, Likeness.and_exists_mem]
    exact columnsOf_like (RendersAll.each_flatten (hitems.forall₂.imp fun _ _ hitem =>
      columnItem_like h hitem))
  | object fields =>
    obtain ⟨fields', rfl, hfields⟩ := hv.object_inv
    exact columnsOf_like (f := id) (g := id) (columnEntries_like h hfields)
  | null | bool flag | int number | float number =>
    obtain rfl := hv.eq_of_scalar rfl rfl
    exact .refuse

/-! ## Filters -/

/-- The parts of a combination inside the same connective. -/
theorem group_like {e : Prop} {x y : Rendering (List String)} (hx : L.RendersAll vary e x y)
    (kind : Combinator) (parent : Option Combinator) :
    L.Renders vary e (do let parts ← x; Filter.group kind parts parent)
      (do let parts ← y; Filter.group kind parts parent) := by
  refine hx.andThen fun k parts parts' htexts => ?_
  unfold Filter.group
  rw [htexts.length_eq]
  split
  · exact .refuse
  · dsimp only
    split
    · exact .pure (L.after ")" (L.before "(" (htexts.intercalate _)))
    · exact .pure (htexts.intercalate _)

/-- A scalar is what the column is compared with. -/
theorem columnPredicate_scalar (ctx : Context) (column : String) {spec : Value}
    (parent : Option Combinator) (hscalar : spec.isScalar = true) (hnull : spec.isNull = false) :
    Filter.columnPredicate ctx column spec parent =
      ctx.invoke "$eq" spec [("$eq", spec)] (some column) := by
  cases spec with
  | null => cases hnull
  | bool flag | int number | float number | str text => rfl
  | list items | object fields => cases hscalar

/-- A scalar that a column is compared with. -/
theorem equality_like (h : ctx.Like L ctx') (column : String) {spec spec' : Value}
    (parent : Option Combinator) (hspec : Alike vary .column spec spec')
    (hscalar : spec.isScalar = true) (hnull : spec.isNull = false) :
    L.Renders vary False (Filter.columnPredicate ctx column spec parent)
      (Filter.columnPredicate ctx' column spec' parent) := by
  have hoperand : spec'.isScalar = true ∧ Alike vary (.ofOperator "$eq") spec spec' := by
    rcases hspec.scalar_inv hscalar with rfl | ⟨-, hscalar', -, hnull', hvary⟩
    · exact ⟨hscalar, .same _ _⟩
    · exact ⟨hscalar', .scalar rfl ⟨hscalar, hscalar'⟩ ⟨hnull, hnull'⟩ hvary⟩
  rw [columnPredicate_scalar ctx column parent hscalar hnull,
    columnPredicate_scalar ctx' column parent hoperand.1 (hspec.isNull_eq ▸ hnull)]
  have hnode : EntriesAlike vary .nested [("$eq", spec)] [("$eq", spec')] := .cons hoperand.2 .nil
  refine Renders.congr (h.invoke hoperand.2 hnode (some column)) ?_
  exact iff_of_false (fun hexposed => Exposed.not_scalar hscalar hexposed.2) id

/-- A condition on a column keeps in step, and `null` stays `null`. -/
theorem columnPredicate_like (h : ctx.Like L ctx') (column : String) {spec spec' : Value}
    (hspec : Alike vary .column spec spec') (parent : Option Combinator) :
    L.Renders vary (Combinator.Enters ctx.combinator ctx'.combinator ∧ Exposed .column spec)
      (Filter.columnPredicate ctx column spec parent)
      (Filter.columnPredicate ctx' column spec' parent) := by
  cases spec with
  | null =>
    rcases hspec.scalar_inv rfl with rfl | ⟨-, -, hnull, -⟩
    · refine Renders.of_not ?_ fun hexposed => Exposed.not_scalar rfl hexposed.2
      exact (h.name column).map fun _ _ _ ht => L.after " IS NULL" ht
    · cases hnull
  | list items =>
    obtain ⟨items', rfl, hitems⟩ := hspec.list_inv
    have hmembers : Alike vary (.ofOperator "$in") (.list items) (.list items') :=
      .list (by decide) hitems
    have hnode : EntriesAlike vary .nested [("$in", .list items)] [("$in", .list items')] :=
      .cons hmembers .nil
    refine Renders.congr (h.invoke hmembers hnode (some column)) ?_
    rw [Exposed.list_iff, Exposed.list_iff]
    rfl
  | object fields =>
    obtain ⟨fields', rfl, hfields⟩ := hspec.object_inv
    rw [Filter.columnPredicate, Filter.columnPredicate, hfields.isEmpty_eq]
    split
    · exact .refuse
    · rw [Exposed.entries_iff (by decide) rfl, Likeness.and_exists_mem]
      refine group_like (RendersAll.each (hfields.forall₂.imp ?_)) .and parent
      rintro ⟨key, v⟩ ⟨key', v'⟩ ⟨rfl : key = key', hv⟩
      unfold Filter.columnTest
      dsimp only
      split
      · simp only [Position.passesOn, true_and]
        exact h.invoke hv hfields (some column)
      · exact .refuse
  | bool flag | int number | float number | str text =>
    exact (equality_like h column parent hspec rfl rfl).of_not
      fun hexposed => Exposed.not_scalar rfl hexposed.2

/-- One entry of a filter, given that its operands keep in step if it is a combination. -/
theorem conditionEntry_like (h : ctx.Like L ctx') {node node' : Fields}
    (hnode : EntriesAlike vary .filter node node') {key : String} {v v' : Value}
    (hv : Alike vary (Position.under .filter key) v v')
    (hcombine : Alike vary .filters v v' → ∀ kind parent,
      L.Renders vary (Combinator.Enters ctx.combinator ctx'.combinator ∧ Exposed .filters v)
        (Filter.combine ctx kind v parent) (Filter.combine ctx' kind v' parent))
    (parent : Option Combinator) :
    L.Renders vary
      (Combinator.Enters ctx.combinator ctx'.combinator ∧
        Position.passesOn .filter key = true ∧ Exposed (Position.under .filter key) v)
      (Filter.conditionEntry ctx node key v parent)
      (Filter.conditionEntry ctx' node' key v' parent) := by
  cases hkey : Combinator.ofKey key with
  | and | or =>
    rw [Filter.conditionEntry_eq_combine _ _ _ _ (by simp [hkey]),
      Filter.conditionEntry_eq_combine _ _ _ _ (by simp [hkey])]
    simp only [Position.under, Position.ofEntry, Position.passesOn, hkey, true_and] at hv ⊢
    exact hcombine hv _ parent
  | other label =>
    rw [Filter.conditionEntry_of_other hkey, Filter.conditionEntry_of_other hkey, h.isPredicate]
    simp only [Position.under, Position.ofEntry, Position.passesOn, hkey] at hv ⊢
    cases hoperator : isOperatorKey key with
    | true =>
      simp only [hoperator, if_true] at hv ⊢
      split
      · exact (Context.Like.invoke_within hv hnode parent none).of_not (by simp)
      · exact .refuse
    | false =>
      simp only [hoperator, Bool.false_eq_true, if_false] at hv ⊢
      exact (columnPredicate_like h key hv parent).congr (by simp)

/-- A filter, and the same value as the operand of a connective. -/
theorem condition_and_combine_like (h : ctx.Like L ctx') (v : Value) :
    (∀ v', Alike vary .filter v v' → ∀ parent,
        L.Renders vary (Combinator.Enters ctx.combinator ctx'.combinator ∧ Exposed .filter v)
          (Filter.condition ctx v parent) (Filter.condition ctx' v' parent)) ∧
      ∀ v', Alike vary .filters v v' → ∀ kind parent,
        L.Renders vary (Combinator.Enters ctx.combinator ctx'.combinator ∧ Exposed .filters v)
          (Filter.combine ctx kind v parent) (Filter.combine ctx' kind v' parent) := by
  induction v using Value.induct with
  | scalar v hv =>
    refine ⟨fun v' hv' parent => ?_, fun v' hv' kind parent => ?_⟩
    all_goals
      obtain rfl := hv'.eq_of_scalar rfl hv
      cases v' with
      | null | bool flag | int number | float number | str text => exact .refuse
      | list items | object fields => cases hv
  | list items ih =>
    refine ⟨fun v' hv' parent => ?_, fun v' hv' kind parent => ?_⟩
    · obtain ⟨items', rfl, -⟩ := hv'.list_inv
      exact .refuse
    · obtain ⟨items', rfl, hitems⟩ := hv'.list_inv
      rw [Filter.combine_list, Filter.combine_list, hitems.isEmpty_eq]
      split
      · exact .refuse
      · rw [Exposed.list_iff, Likeness.and_exists_mem]
        refine group_like (RendersAll.each ?_) kind parent
        exact ((List.forall₂_and_left _ _).2 ⟨ih, hitems.forall₂⟩).imp
          fun v v' ⟨hfilter, hv⟩ => hfilter.1 v' hv (some kind)
  | object fields ih =>
    refine ⟨fun v' hv' parent => ?_, fun v' hv' kind parent => ?_⟩
    · obtain ⟨fields', rfl, hfields⟩ := hv'.object_inv
      rw [Filter.condition_object, Filter.condition_object, hfields.isEmpty_eq, hfields.length_eq]
      split
      · exact .refuse
      · rw [Exposed.entries_iff (by decide) rfl, Likeness.and_exists_mem]
        refine group_like (RendersAll.each ?_) .and parent
        refine ((List.forall₂_and_left _ _).2 ⟨ih, hfields.forall₂⟩).imp ?_
        rintro ⟨key, v⟩ ⟨key', v'⟩ ⟨hfilters, rfl : key = key', hv⟩
        exact conditionEntry_like h hfields hv (hfilters.2 v') _
    · obtain ⟨fields', rfl, -⟩ := hv'.object_inv
      exact .refuse

/-- **A filter keeps in step**, at any depth. -/
theorem condition_like (h : ctx.Like L ctx') {v v' : Value} (hv : Alike vary .filter v v')
    (parent : Option Combinator) :
    L.Renders vary (Combinator.Enters ctx.combinator ctx'.combinator ∧ Exposed .filter v)
      (Filter.condition ctx v parent) (Filter.condition ctx' v' parent) :=
  (condition_and_combine_like h v).1 v' hv parent

end QueryTree
