import QueryTree.Proofs.Descent
import QueryTree.Proofs.Statements

/-!
# Short and long forms of filters

A filter can be written in short and long forms: several entries of one object or a list under
`$and`, a value or an equality, several tests of one column or one filter for each, a list under a
connective inside a list under the same connective or one list.  The forms of a filter say the same:
they are compiled to the same text with the same bound values, and are refused for the same reason.

* `Desugars` relates a filter to the one in which one short form is written out, at any depth.
* `Dialect.Same` : two programs do the same when the dialect answers their calls.
* `Dialect.respond_node` : the operators of filters do not look at the object that holds them, so
  an entry can be moved to an object of its own.
* **`Desugars.condition_eq`** : writing out a short form changes nothing.
-/

namespace QueryTree

open Rendering (each)

/-! ## The forms -/

/-- The operators that test a column. -/
def testNames : List String :=
  comparisonWords.map Prod.fst ++ ["$in", "$nin", "$between", "$isNull", "$ilike"]

/-- The connectives of filters. -/
def Combinator.IsConnective (kind : Combinator) : Prop :=
  kind = .and ∨ kind = .or

/-- AND and OR have a joining word. -/
theorem Combinator.IsConnective.joiner {kind : Combinator} (h : kind.IsConnective) :
    ∃ joiner, kind.joiner? = some joiner := by
  rcases h with rfl | rfl
  · exact ⟨_, rfl⟩
  · exact ⟨_, rfl⟩

/-- The short forms of an entry of a filter, and the long ones. -/
inductive Shorthand : String × Value → String × Value → Prop
  /-- A scalar or `null` stands for equality. -/
  | equality {column : String} {v : Value} (hcolumn : isOperatorKey column = false)
      (hv : v.isScalar = true) : Shorthand (column, v) (column, .object [("$eq", v)])
  /-- A list stands for membership. -/
  | membership {column : String} {items : List Value} (hcolumn : isOperatorKey column = false) :
      Shorthand (column, .list items) (column, .object [("$in", .list items)])
  /-- A list inside a list, under the same connective. -/
  | flattening {kind : Combinator} (hkind : kind.IsConnective) {before items after : List Value}
      (hitems : items ≠ []) (hothers : before ++ after ≠ []) :
      Shorthand (kind.key, .list (before ++ .object [(kind.key, .list items)] :: after))
        (kind.key, .list (before ++ items ++ after))

/-- One short form is written out, at any depth under the connectives and under `$not`. -/
inductive Desugars : Value → Value → Prop
  /-- Several entries of an object are joined. -/
  | conjunction {fields : Fields} (hfields : 2 ≤ fields.length) :
      Desugars (.object fields)
        (.object [("$and", .list (fields.map fun entry => .object [entry]))])
  /-- Several tests of a column are joined. -/
  | tests {column : String} {fields : Fields} (hcolumn : isOperatorKey column = false)
      (hfields : fields ≠ []) (htests : ∀ entry ∈ fields, entry.1 ∈ testNames) :
      Desugars (.object [(column, .object fields)])
        (.object [("$and", .list (fields.map fun entry => .object [(column, .object [entry])]))])
  | entry {before after : Fields} {short long : String × Value} (h : Shorthand short long) :
      Desugars (.object (before ++ short :: after)) (.object (before ++ long :: after))
  | item {before after : Fields} {kind : Combinator} (hkind : kind.IsConnective)
      {first rest : List Value} {v v' : Value} (h : Desugars v v') :
      Desugars (.object (before ++ (kind.key, .list (first ++ v :: rest)) :: after))
        (.object (before ++ (kind.key, .list (first ++ v' :: rest)) :: after))
  | negation {before after : Fields} {v v' : Value} (h : Desugars v v') :
      Desugars (.object (before ++ ("$not", v) :: after))
        (.object (before ++ ("$not", v') :: after))

/-! ## Lists of programs -/

namespace Rendering

variable {α β γ : Type}

theorem each_append (f : α → Rendering β) (items others : List α) :
    each f (items ++ others) = do
      let bs ← each f items
      let cs ← each f others
      return bs ++ cs := by
  induction items with
  | nil => simp [each]
  | cons a rest ih => simp [each, ih]

theorem each_map (f : β → Rendering γ) (g : α → β) (items : List α) :
    each f (items.map g) = each (fun a => f (g a)) items := by
  induction items with
  | nil => rfl
  | cons a rest ih => rw [List.map_cons, each, each, ih]

/-- What follows a list of programs sees one result for each of them. -/
theorem each_bind_congr (f : α → Rendering β) {items : List α} {g g' : List β → Rendering γ}
    (h : ∀ bs, bs.length = items.length → g bs = g' bs) :
    each f items >>= g = each f items >>= g' := by
  induction items generalizing g g' with
  | nil => exact h [] rfl
  | cons a rest ih =>
    simp only [each, bind_assoc, pure_bind]
    refine congrArg _ (funext fun b => ih fun bs hbs => h (b :: bs) ?_)
    simp [hbs]

end Rendering

/-! ## Equations of filters -/

namespace Filter

variable {ctx : Context} {parent : Option Combinator}

/-- A single part is left as it is. -/
theorem group_singleton {kind : Combinator} (hkind : kind.IsConnective) (part : String) :
    group kind [part] parent = pure part := by
  rcases hkind with rfl | rfl
  · simp [group, Combinator.joiner?, String.intercalate_singleton]
  · simp [group, Combinator.joiner?, String.intercalate_singleton]

/-- An object of several entries is a group of them. -/
theorem condition_of_ne_nil (ctx : Context) {fields : Fields} (hfields : fields ≠ [])
    (parent : Option Combinator) :
    condition ctx (.object fields) parent =
      each (fun entry => conditionEntry ctx fields entry.1 entry.2
          (if 1 < fields.length then some .and else parent)) fields >>= fun parts =>
        group .and parts parent := by
  rw [condition_object, if_neg (by simpa using hfields)]

/-- A filter of one entry is that entry. -/
theorem condition_singleton (ctx : Context) (entry : String × Value)
    (parent : Option Combinator) :
    condition ctx (.object [entry]) parent =
      conditionEntry ctx [entry] entry.1 entry.2 parent := by
  rw [condition_of_ne_nil ctx (List.cons_ne_nil entry [])]
  simp [each, group_singleton (.inl rfl)]

/-- An entry under a connective is a combination. -/
theorem conditionEntry_connective {kind : Combinator} (hkind : kind.IsConnective) (node : Fields)
    (v : Value) : conditionEntry ctx node kind.key v parent = combine ctx kind v parent := by
  rcases hkind with rfl | rfl
  · exact conditionEntry_eq_combine ctx node v parent (by simp [Combinator.ofKey, Combinator.key])
  · exact conditionEntry_eq_combine ctx node v parent (by simp [Combinator.ofKey, Combinator.key])

/-- An entry under a plain key is a condition on a column. -/
theorem conditionEntry_column {column : String} (hcolumn : isOperatorKey column = false)
    (node : Fields) (v : Value) :
    conditionEntry ctx node column v parent = columnPredicate ctx column v parent := by
  have hkey : Combinator.ofKey column = .other column := by
    unfold Combinator.ofKey
    split
    · rename_i heq
      subst heq
      cases hcolumn
    · split
      · rename_i heq
        subst heq
        cases hcolumn
      · rfl
  rw [conditionEntry_of_other hkey, hcolumn]
  rfl

theorem columnTest_operator {operator : String} (hoperator : isOperatorKey operator = true)
    (column : String) (node : Fields) (operand : Value) :
    columnTest ctx column node (operator, operand) =
      ctx.invoke operator operand node (some column) := by
  rw [columnTest, if_pos hoperator]

/-- One test of a column. -/
theorem columnPredicate_singleton (ctx : Context) (column : String) (entry : String × Value)
    (parent : Option Combinator) :
    columnPredicate ctx column (.object [entry]) parent = columnTest ctx column [entry] entry := by
  simp [columnPredicate, each, group_singleton (.inl rfl)]

/-- A list under `$and`, item by item. -/
theorem condition_and_map {α : Type} (ctx : Context) {items : List α} (hitems : items ≠ [])
    (g : α → Value) (parent : Option Combinator) :
    condition ctx (.object [("$and", .list (items.map g))]) parent =
      each (fun a => condition ctx (g a) (some .and)) items >>= fun parts =>
        group .and parts parent := by
  rw [condition_singleton]
  refine (conditionEntry_connective (.inl rfl) _ _).trans ?_
  rw [combine_list, if_neg (by simpa using hitems), Rendering.each_map]

/-- Joined parts can be joined further, as one part or one by one. -/
theorem intercalate_nested (joiner : String) {parts : List String} (hparts : parts ≠ [])
    (before after : List String) :
    joiner.intercalate (before ++ joiner.intercalate parts :: after) =
      joiner.intercalate (before ++ parts ++ after) := by
  have hafter : joiner.intercalate (joiner.intercalate parts :: after) =
      joiner.intercalate (parts ++ after) := by
    by_cases h : after = []
    · rw [h, List.append_nil, String.intercalate_singleton]
    · rw [String.intercalate_cons_of_ne_nil h, String.intercalate_append_of_ne_nil hparts h]
  by_cases h : before = []
  · rw [h, List.nil_append, List.nil_append, hafter]
  · rw [List.append_assoc, String.intercalate_append_of_ne_nil h (List.cons_ne_nil _ _), hafter,
      String.intercalate_append_of_ne_nil h (by simp [hparts])]

/-- Several parts are in parentheses inside another connective. -/
theorem group_of_two_le {kind : Combinator} {joiner : String} (hjoiner : kind.joiner? = some joiner)
    {parts : List String} (hparts : 2 ≤ parts.length) :
    group kind parts parent =
      if parent.isSome && parent != some kind then
        pure ("(" ++ joiner.intercalate parts ++ ")")
      else pure (joiner.intercalate parts) := by
  have hlength : decide (1 < parts.length) = true := decide_eq_true hparts
  simp only [group, hjoiner, hlength, Bool.true_and]

/-- A combination inside the same connective stands without parentheses. -/
theorem group_inside_same {kind : Combinator} {joiner : String}
    (hjoiner : kind.joiner? = some joiner) (parts : List String) :
    group kind parts (some kind) = pure (joiner.intercalate parts) := by
  simp [group, hjoiner]

/-- Joined parts can be given to a combination as one part or one by one, if there are others. -/
theorem group_nested {kind : Combinator} {joiner : String} (hjoiner : kind.joiner? = some joiner)
    {before parts after : List String} (hparts : 0 < parts.length)
    (hothers : 0 < before.length + after.length) :
    group kind (before ++ joiner.intercalate parts :: after) parent =
      group kind (before ++ parts ++ after) parent := by
  rw [group_of_two_le hjoiner (by simp; omega), group_of_two_le hjoiner (by simp; omega),
    intercalate_nested joiner (List.length_pos_iff.1 hparts)]

/-- A list under a connective inside a list under the same connective. -/
theorem combine_nested {kind : Combinator} (hkind : kind.IsConnective)
    {before items after : List Value} (hitems : items ≠ []) (hothers : before ++ after ≠ []) :
    combine ctx kind (.list (before ++ .object [(kind.key, .list items)] :: after)) parent =
      combine ctx kind (.list (before ++ items ++ after)) parent := by
  obtain ⟨joiner, hjoiner⟩ := hkind.joiner
  have hinner : condition ctx (.object [(kind.key, .list items)]) (some kind) =
      each (fun v => condition ctx v (some kind)) items >>= fun parts =>
        pure (joiner.intercalate parts) := by
    rw [condition_singleton, conditionEntry_connective hkind, combine_list,
      if_neg (by simpa using hitems)]
    simp only [group_inside_same hjoiner]
  rw [combine_list, combine_list, if_neg (by simp), if_neg (by simp [hitems])]
  rw [Rendering.each_append, Rendering.each_append, Rendering.each_append, each, hinner]
  simp only [bind_assoc, pure_bind]
  refine Rendering.each_bind_congr _ fun xs hxs => Rendering.each_bind_congr _ fun ys hys =>
    Rendering.each_bind_congr _ fun zs hzs => group_nested hjoiner ?_ ?_
  · exact hys ▸ List.length_pos_iff.2 hitems
  · rw [hxs, hzs, ← List.length_append]
    exact List.length_pos_iff.2 hothers

end Filter

/-! ## Operators that do not look around -/

/-- The operator does not depend on the object that holds it. -/
def Handler.IgnoresNode (handler : Handler) : Prop :=
  ∀ ctx call node, handler.render ctx { call with node } = handler.render ctx call

/-- The operators that look at the entries next to them. -/
def nodeReaders : List String := ["$from", "$table", "$offset"]

/-- Few operators of the base dialect look at the object around them. -/
theorem Ansi.ignoresNode : ∀ entry ∈ table, entry.1 ∈ nodeReaders ∨ entry.2.IgnoresNode := by
  simp only [table, operators, List.forall_mem_append]
  refine ⟨⟨?_, ⟨⟨⟨⟨⟨?_, ?_⟩, ?_⟩, ?_⟩, ?_⟩, ?_⟩⟩, ?_⟩
  · exact List.forall_mem_map.2 fun entry _ => .inr fun _ _ _ => rfl
  · simp only [List.forall_mem_cons]
    exact ⟨.inr fun _ _ _ => rfl, .inl (by decide), .inl (by decide), .inr fun _ _ _ => rfl,
      .inr fun _ _ _ => rfl, .inr fun _ _ _ => rfl, .inr fun _ _ _ => rfl,
      .inr fun _ _ _ => rfl, .inl (by decide), .inr fun _ _ _ => rfl, .inr fun _ _ _ => rfl,
      by simp⟩
  · exact List.forall_mem_map.2 fun name _ => .inr fun _ _ _ => rfl
  · exact List.forall_mem_singleton.2 (.inr fun _ _ _ => rfl)
  · exact List.forall_mem_map.2 fun entry _ => .inr fun _ _ _ => rfl
  · exact List.forall_mem_map.2 fun entry _ => .inr fun _ _ _ => rfl
  · simp only [List.forall_mem_cons]
    exact ⟨.inr fun _ _ _ => rfl, .inr fun _ _ _ => rfl, .inr fun _ _ _ => rfl,
      .inr fun _ _ _ => rfl, .inr fun _ _ _ => rfl, .inr fun _ _ _ => rfl,
      .inr fun _ _ _ => rfl, .inr fun _ _ _ => rfl, .inr fun _ _ _ => rfl, by simp⟩
  · simp only [List.forall_mem_cons]
    exact ⟨.inr fun _ _ _ => rfl, .inr fun _ _ _ => rfl, by simp⟩

/-- None of those that MySQL adds does. -/
theorem Mysql.ignoresNode : ∀ entry ∈ table, entry.2.IgnoresNode := by
  simp only [table, operators, List.forall_mem_append, List.forall_mem_cons]
  exact ⟨⟨fun _ _ _ => rfl, fun _ _ _ => rfl, by simp⟩, fun _ _ _ => rfl, fun _ _ _ => rfl,
    fun _ _ _ => rfl, fun _ _ _ => rfl, fun _ _ _ => rfl, fun _ _ _ => rfl, by simp⟩

theorem Postgres.ignoresNode : ∀ entry ∈ table, entry.2.IgnoresNode := by
  simp only [table, operators, List.forall_mem_append, List.forall_mem_cons]
  exact ⟨⟨fun _ _ _ => rfl, fun _ _ _ => rfl, fun _ _ _ => rfl, by simp⟩, fun _ _ _ => rfl,
    fun _ _ _ => rfl, fun _ _ _ => rfl, fun _ _ _ => rfl, fun _ _ _ => rfl, fun _ _ _ => rfl,
    fun _ _ _ => rfl, fun _ _ _ => rfl, by simp⟩

namespace Dialect

variable {d : Dialect} {α β : Type}

/-- The answer to a call does not depend on the object that holds the operator. -/
theorem respond_node (hd : d ∈ library) {call : Call} (hcall : call.operator ∉ nodeReaders)
    (node : Fields) : d.respond { call with node } = d.respond call := by
  rw [respond_eq hd, respond_eq hd]
  cases hfind : d.registry.find? call.operator with
  | none => rfl
  | some handler =>
    have hignores : handler.IgnoresNode := by
      rcases List.mem_append.1 (find?_mem hd hfind) with hmem | hmem
      · rcases List.mem_append.1 hmem with hmem | hmem
        · exact (Ansi.ignoresNode _ hmem).resolve_left hcall
        · exact Mysql.ignoresNode _ hmem
      · exact Postgres.ignoresNode _ hmem
    dsimp only
    rw [hignores]

/-! ## Programs that do the same -/

/-- The programs do the same when the dialect answers their calls: they have the same result, bind
the same values, and refuse for the same reason. -/
def Same (d : Dialect) (x y : Rendering α) : Prop :=
  x.run d.placeholder d.respond = y.run d.placeholder d.respond

namespace Same

theorem refl (x : Rendering α) : d.Same x x := rfl

/-- Programs that are the same step by step are the same. -/
theorem bind {x y : Rendering α} {f g : α → Rendering β} (hx : d.Same x y)
    (hf : ∀ a, d.Same (f a) (g a)) : d.Same (x >>= f) (y >>= g) := by
  have hfun : (fun a => (f a).run d.placeholder d.respond) =
      fun a => (g a).run d.placeholder d.respond := funext hf
  rw [Same, Rendering.run_andThen, Rendering.run_andThen, hx, hfun]

theorem each {f g : α → Rendering β} {items : List α} (h : ∀ a ∈ items, d.Same (f a) (g a)) :
    d.Same (each f items) (each g items) := by
  induction items with
  | nil => exact refl _
  | cons a rest ih =>
    have hrest := ih fun b hb => h b (List.mem_cons_of_mem _ hb)
    exact (h a List.mem_cons_self).bind fun b => hrest.bind fun bs => refl _

/-- One item is replaced. -/
theorem each_replace {f g : α → Rendering β} (h : ∀ a, d.Same (f a) (g a)) {a b : α}
    (hab : d.Same (f a) (g b)) (before after : List α) :
    d.Same (Rendering.each f (before ++ a :: after)) (Rendering.each g (before ++ b :: after)) := by
  rw [Rendering.each_append, Rendering.each_append, Rendering.each, Rendering.each]
  refine (each fun a _ => h a).bind fun xs => Same.bind ?_ fun ys => refl _
  exact hab.bind fun y => (each fun a _ => h a).bind fun ys => refl _

end Same

/-! ## Entries -/

open QueryTree.Filter

variable {combinator parent : Option Combinator}

/-- An operator that does not look around is the same in every object. -/
theorem same_invoke_node (hd : d ∈ library) {operator : String} (hoperator : operator ∉ nodeReaders)
    (ctx : Context) (operand : Value) (node node' : Fields) (column : Option String) :
    d.Same (ctx.invoke operator operand node column)
      (ctx.invoke operator operand node' column) := by
  rw [Same, Context.invoke, Context.invoke, Rendering.run_invoke, Rendering.run_invoke]
  have hcall : (Call.mk operator operand node' column ctx.combinator).operator ∉ nodeReaders :=
    hoperator
  exact respond_node hd hcall node

/-- An entry means the same in every object. -/
theorem same_conditionEntry_node (hd : d ∈ library) (node node' : Fields) (key : String)
    (v : Value) :
    d.Same (conditionEntry (d.context combinator) node key v parent)
      (conditionEntry (d.context combinator) node' key v parent) := by
  cases hkey : Combinator.ofKey key with
  | and | or =>
    rw [conditionEntry_eq_combine _ _ _ _ (by simp [hkey]),
      conditionEntry_eq_combine _ _ _ _ (by simp [hkey])]
    exact Same.refl _
  | other label =>
    rw [conditionEntry_of_other hkey, conditionEntry_of_other hkey]
    split
    · split
      · rename_i hpredicate
        refine same_invoke_node hd ?_ _ _ _ _ _
        have hmem : key ∈ Ansi.predicates := by
          rw [← (settled_of_mem hd).predicates]
          exact List.contains_iff_mem.1 hpredicate
        have hnone : ∀ name ∈ Ansi.predicates, name ∉ nodeReaders := by decide
        exact hnone key hmem
      · exact Same.refl _
    · exact Same.refl _

/-- An entry of a filter is replaced by one that means the same. -/
theorem same_condition_entry (hd : d ∈ library) {short long : String × Value}
    (h : ∀ node parent, d.Same (conditionEntry (d.context combinator) node short.1 short.2 parent)
      (conditionEntry (d.context combinator) node long.1 long.2 parent)) (before after : Fields) :
    d.Same (condition (d.context combinator) (.object (before ++ short :: after)) parent)
      (condition (d.context combinator) (.object (before ++ long :: after)) parent) := by
  have hlength : (before ++ long :: after).length = (before ++ short :: after).length := by simp
  rw [condition_of_ne_nil _ (by simp), condition_of_ne_nil _ (by simp), hlength]
  refine (Same.each_replace (fun entry => ?_) ?_ before after).bind fun parts => Same.refl _
  · exact same_conditionEntry_node hd _ _ entry.1 entry.2
  · exact (h _ _).trans (same_conditionEntry_node hd _ _ long.1 long.2)

/-! ## Short forms -/

/-- A column that is demanded to be `null` is compared with it. -/
theorem same_columnPredicate_null (hd : d ∈ library) (column : String) :
    d.Same (columnPredicate (d.context combinator) column .null parent)
      (columnPredicate (d.context combinator) column (.object [("$eq", .null)]) parent) := by
  have heq : d.registry.find? "$eq" = some (Operator.comparison "$eq" "=") :=
    find?_of_ansi hd rfl rfl rfl
  rw [columnPredicate_singleton, columnTest_operator rfl, Same, Context.invoke,
    Rendering.run_invoke, respond_eq hd, heq]
  rfl

/-- A shorthand is rendered as what it is short for. -/
theorem same_shorthand (hd : d ∈ library) {short long : String × Value} (h : Shorthand short long)
    (node : Fields) (parent : Option Combinator) :
    d.Same (conditionEntry (d.context combinator) node short.1 short.2 parent)
      (conditionEntry (d.context combinator) node long.1 long.2 parent) := by
  cases h with
  | @equality column v hcolumn hv =>
    rw [conditionEntry_column hcolumn, conditionEntry_column hcolumn]
    cases v with
    | null => exact same_columnPredicate_null hd column
    | bool flag | int number | float number | str text =>
      rw [columnPredicate_singleton, columnTest_operator rfl]
      exact Same.refl _
    | list items | object fields => cases hv
  | @membership column items hcolumn =>
    rw [conditionEntry_column hcolumn, conditionEntry_column hcolumn, columnPredicate_singleton,
      columnTest_operator rfl]
    exact Same.refl _
  | flattening hkind hitems hothers =>
    rw [conditionEntry_connective hkind, conditionEntry_connective hkind,
      combine_nested hkind hitems hothers]
    exact Same.refl _

/-- The entries of an object are a conjunction of objects with one entry. -/
theorem same_conjunction (hd : d ∈ library) {fields : Fields} (hfields : 2 ≤ fields.length) :
    d.Same (condition (d.context combinator) (.object fields) parent)
      (condition (d.context combinator)
        (.object [("$and", .list (fields.map fun entry => .object [entry]))]) parent) := by
  have hne : fields ≠ [] := by
    rintro rfl
    simp at hfields
  rw [condition_and_map _ hne, condition_of_ne_nil _ hne, if_pos (Nat.lt_of_succ_le hfields)]
  refine (Same.each fun entry _ => ?_).bind fun parts => Same.refl _
  rw [condition_singleton]
  exact same_conditionEntry_node hd _ _ entry.1 entry.2

/-- Several tests of a column are several conditions on it. -/
theorem same_tests (hd : d ∈ library) {column : String} (hcolumn : isOperatorKey column = false)
    {fields : Fields} (hne : fields ≠ []) (htests : ∀ entry ∈ fields, entry.1 ∈ testNames) :
    d.Same (condition (d.context combinator) (.object [(column, .object fields)]) parent)
      (condition (d.context combinator)
        (.object [("$and", .list (fields.map fun entry => .object [(column, .object [entry])]))])
        parent) := by
  rw [condition_and_map _ hne, condition_singleton, conditionEntry_column hcolumn, columnPredicate,
    if_neg (by simpa using hne)]
  refine (Same.each fun entry hentry => ?_).bind fun parts => Same.refl _
  rw [condition_singleton, conditionEntry_column hcolumn, columnPredicate_singleton]
  unfold columnTest
  split
  · refine same_invoke_node hd ?_ _ _ _ _ _
    have hnone : ∀ name ∈ testNames, name ∉ nodeReaders := by decide
    exact hnone entry.1 (htests entry hentry)
  · exact Same.refl _

/-! ## Contexts -/

/-- What happens to a filter under `$not`, given what happens to the filter alone. -/
theorem same_negation (hd : d ∈ library) {v v' : Value}
    (h : ∀ combinator, d.Same (condition (d.context combinator) v none)
      (condition (d.context combinator) v' none)) (node : Fields) (parent : Option Combinator) :
    d.Same (conditionEntry (d.context combinator) node "$not" v parent)
      (conditionEntry (d.context combinator) node "$not" v' parent) := by
  have hnot : d.registry.find? "$not" = some Operator.negation := find?_of_ansi hd rfl rfl rfl
  have hpredicate : (d.context combinator).isPredicate "$not" = true := by
    change d.predicates.contains "$not" = true
    rw [(settled_of_mem hd).predicates]
    rfl
  have hentry : ∀ w, conditionEntry (d.context combinator) node "$not" w parent =
      .invoke ⟨"$not", w, node, none, parent⟩ := by
    intro w
    rw [conditionEntry_of_other rfl, hpredicate]
    rfl
  rw [hentry, hentry, Same, Rendering.run_invoke, Rendering.run_invoke, respond_eq hd,
    respond_eq hd, hnot]
  exact (h parent).bind fun text => Same.refl _

theorem same_item {kind : Combinator} (hkind : kind.IsConnective) {v v' : Value}
    (h : d.Same (condition (d.context combinator) v (some kind))
      (condition (d.context combinator) v' (some kind))) (first rest : List Value) (node : Fields)
    (parent : Option Combinator) :
    d.Same
      (conditionEntry (d.context combinator) node kind.key (.list (first ++ v :: rest)) parent)
      (conditionEntry (d.context combinator) node kind.key (.list (first ++ v' :: rest))
        parent) := by
  rw [conditionEntry_connective hkind, conditionEntry_connective hkind, combine_list, combine_list,
    if_neg (by simp), if_neg (by simp)]
  exact (Same.each_replace (fun _ => Same.refl _) h first rest).bind fun parts => Same.refl _

/-- **A filter is rendered as the one that it desugars to**, wherever a step is made in it. -/
theorem same_condition (hd : d ∈ library) {f f' : Value} (h : Desugars f f')
    (combinator parent : Option Combinator) :
    d.Same (condition (d.context combinator) f parent)
      (condition (d.context combinator) f' parent) := by
  induction h generalizing combinator parent with
  | conjunction hfields => exact same_conjunction hd hfields
  | tests hcolumn hfields htests => exact same_tests hd hcolumn hfields htests
  | entry h => exact same_condition_entry hd (same_shorthand hd h) _ _
  | item hkind _ ih =>
    exact same_condition_entry hd (fun node _ => same_item hkind (ih _ _) _ _ node _) _ _
  | negation _ ih =>
    exact same_condition_entry hd (same_negation hd fun combinator => ih combinator none) _ _

end Dialect

/-- **Writing out a short form of a filter changes nothing**: the text, the values that it binds
after those bound before, and the fault of a filter that is refused are the same. -/
theorem Desugars.condition_eq {d : Dialect} (hd : d ∈ Dialect.library) {f f' : Value}
    (h : Desugars f f') (combinator parent : Option Combinator) (bound : Array Value) :
    (d.runFor f (Filter.condition (d.context combinator) f parent)).run.run bound =
      (d.runFor f' (Filter.condition (d.context combinator) f' parent)).run.run bound := by
  rw [Dialect.runFor_eq hd (Filter.condition_orderly f parent),
    Dialect.runFor_eq hd (Filter.condition_orderly f' parent)]
  exact congrArg (fun m => m.run.run bound) (Dialect.same_condition hd h combinator parent)

/-- A list under `$and` inside another one, under `$not` and `$or`. -/
theorem Desugars.postgres_condition_eq_nested :
    let a : Value := .object [("a", .int 1)]
    let b : Value := .object [("b", .null)]
    let c : Value := .object [("c.d", .list [.int 2, .str "x"])]
    let f : Value := .object [("$or", .list [a, .object [("$not", .object [("$and",
      .list [b, .object [("$and", .list [c, a])]])])]])]
    let f' : Value := .object [("$or", .list [a, .object [("$not", .object [("$and",
      .list [b, c, a])])]])]
    Dialect.postgres ∈ Dialect.library ∧ Desugars f f' ∧
      (Dialect.postgres.runFor f
          (Filter.condition (Dialect.postgres.context none) f (some .and))).run.run #[] =
        (Dialect.postgres.runFor f'
          (Filter.condition (Dialect.postgres.context none) f' (some .and))).run.run #[] := by
  intro a b c f f'
  have hd : Dialect.postgres ∈ Dialect.library := by simp [Dialect.library]
  have hflat : Shorthand ("$and", .list [b, .object [("$and", .list [c, a])]])
      ("$and", .list [b, c, a]) :=
    @Shorthand.flattening .and (.inl rfl) [b] [c, a] [] (by simp) (by simp)
  have hnot := @Desugars.negation [] [] _ _ (@Desugars.entry [] [] _ _ hflat)
  have hf : Desugars f f' := @Desugars.item [] [] .or (.inr rfl) [a] [] _ _ hnot
  exact ⟨hd, hf, condition_eq hd hf none (some .and) #[]⟩

end QueryTree
