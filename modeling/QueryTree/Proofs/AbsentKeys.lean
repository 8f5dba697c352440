import QueryTree.Proofs.Bodies
import QueryTree.Proofs.Settings

/-!
# Keys that are not present

A group of a template is switched on by a guard that is present: `null`, `false`, an empty text and
an empty list or object switch it off.  An operator that looks a key up next to itself asks whether
it is `null`, so that the other four count as given.  A key that only guards groups can be left out
wherever it is not present, unless such an operator overlooks that it is not.

* `Template.IsGuardOnly` : the key is referred to only in groups that it guards.
* `Overlooked` : the key is not present, but an operator that is present takes it as given.
* **`Dialect.absent_key_outcome`** : leaving the key out changes the outcome exactly if it is
  overlooked and one of the two bodies can be rendered.  A `$select` has an `OFFSET` without a
  `LIMIT` exactly if its `$limit` is overlooked.
-/

namespace QueryTree

open Rendering (Compile Traces)
open Template (clauseNode)

namespace Fields

/-- The entries with other keys than the given ones. -/
def without (fields : Fields) (keys : List String) : Fields :=
  fields.filter fun entry => !keys.contains entry.1

/-- Keys that are taken away have no value, the others keep theirs. -/
theorem get?_without (fields : Fields) (keys : List String) (key : String) :
    (fields.without keys).get? key = if key ∈ keys then none else fields.get? key := by
  unfold without
  induction fields with
  | nil => simp [get?_nil]
  | cons entry rest ih =>
    obtain ⟨k, v⟩ := entry
    rw [List.filter_cons, get?_cons]
    by_cases hk : k ∈ keys
    · rw [if_neg (by simpa using hk), ih]
      split
      · rfl
      · rename_i hkey
        have hne : key ≠ k := fun heq => hkey (heq ▸ hk)
        rw [if_neg hne]
    · rw [if_pos (by simpa using hk), get?_cons, ih]
      by_cases hkey : key = k
      · rw [if_pos hkey, if_pos hkey, if_neg (hkey ▸ hk)]
      · rw [if_neg hkey, if_neg hkey]

/-- A key that is taken away reads as `null`. -/
theorem valueOf_without_of_mem {keys : List String} {key : String} (h : key ∈ keys)
    (fields : Fields) : (fields.without keys).valueOf key = .null := by
  rw [valueOf_eq, get?_without, if_pos h, Option.getD_none]

theorem valueOf_without_of_not_mem {keys : List String} {key : String} (h : key ∉ keys)
    (fields : Fields) : (fields.without keys).valueOf key = fields.valueOf key := by
  rw [valueOf_eq, get?_without, if_neg h, valueOf_eq]

theorem mem_keys_without {fields : Fields} {keys : List String} {key : String} :
    key ∈ (fields.without keys).keys ↔ key ∈ fields.keys ∧ key ∉ keys := by
  simp [Fields.keys, without]

/-- Defaults leave every other key alone. -/
theorem valueOf_withDefaults_of_not_mem {key : String} {defaults : Fields}
    (hkey : key ∉ defaults.keys) (fields : Fields) :
    (fields.withDefaults defaults).valueOf key = fields.valueOf key := by
  rw [valueOf_eq, get?_withDefaults_of_not_mem hkey, valueOf_eq]

/-- A key with a value is one of the keys. -/
theorem mem_keys_of_not_isNull {fields : Fields} {key : String}
    (h : (fields.valueOf key).isNull = false) : key ∈ fields.keys := by
  rw [← get?_isSome_iff]
  rw [valueOf_eq] at h
  cases hget : fields.get? key with
  | none =>
    rw [hget] at h
    cases h
  | some v => rfl

end Fields

/-- A program that cannot do without a call fails if the call is refused. -/
theorem Rendering.Traces.not_ok {α : Type} {x : Rendering α} {request : Call}
    (h : x.Traces fun _ calls => request ∈ calls) {placeholder : Nat → String}
    {answer : Call → Compile String} (hrefused : ∃ fault, answer request = throw fault)
    {s s' : Array Value} {a : α} :
    (x.run placeholder answer).run.run s ≠ (.ok a, s') := by
  induction x generalizing s with
  | done result => cases h
  | refuse fault =>
    intro hrun
    cases hrun
  | bind value next ih => exact ih _ (h _)
  | call other next ih =>
    intro hrun
    obtain ⟨text, s₁, hreply, hnext⟩ := bind_eq_ok_iff.1 hrun
    have hne : request ≠ other := by
      rintro rfl
      obtain ⟨fault, hfault⟩ := hrefused
      rw [hfault] at hreply
      cases hreply
    exact ih text ((h text).mono fun _ _ hmem => List.mem_of_ne_of_mem hne hmem) hnext
  | count next ih => exact ih _ (h _)

/-- The run ends with a refusal. -/
def Fails (r : Except Fault String × Array Value) : Prop :=
  ∀ text values, r ≠ (.ok text, values)

/-- All refusals count as the same outcome. -/
theorem SameOutcome.of_fails {r r' : Except Fault String × Array Value} (h : Fails r)
    (h' : Fails r') : SameOutcome r r' := fun text values =>
  iff_of_false (h text values) (h' text values)

theorem SameOutcome.fails_iff {r r' : Except Fault String × Array Value} (h : SameOutcome r r') :
    Fails r ↔ Fails r' :=
  forall_congr' fun text => forall_congr' fun values => not_congr (h text values)

/-! ## Which keys can be left out -/

namespace Template

/-- The key is a reference, and it is referred to only in groups that it guards. -/
def IsGuardOnly (t : Template) (key : String) : Prop :=
  key ∈ t.keys ∧ ∀ r ∈ t.references, r.key = key → key ∈ r.guards

instance (t : Template) (key : String) : Decidable (t.IsGuardOnly key) :=
  inferInstanceAs (Decidable (_ ∧ _))

/-- Leaving out references does not matter to the check of the keys. -/
theorem admits_without {t : Template} {keys : List String} {body : Fields}
    (hkeys : ∀ key ∈ keys, isOperatorKey key = true ∧ key ∈ t.keys) :
    t.Admits (body.without keys) ↔ t.Admits body := by
  constructor
  · intro h key hkey
    by_cases hmem : key ∈ keys
    · exact hkeys key hmem
    · exact h key (Fields.mem_keys_without.2 ⟨hkey, hmem⟩)
  · intro h key hkey
    exact h key (Fields.mem_keys_without.1 hkey).1

end Template

/-- The keys that operators look up next to themselves, and the operators that do so. -/
def neighbours : List String := ["$from", "$table", "$limit", "$offset"]

/-- Only a few operators look at their neighbours, and only at each other. -/
theorem mem_neighbours_of_watched {operator key : String} (h : key ∈ watchedKeys operator) :
    operator ∈ nodeReaders ∧ operator ∈ neighbours ∧ key ∈ neighbours := by
  unfold watchedKeys at h
  split at h
  · rename_i htables
    rcases htables with rfl | rfl <;> exact ⟨by decide, by decide, by revert key; decide⟩
  · split at h
    · rename_i hoffset
      subst hoffset
      exact ⟨by decide, by decide, by revert key; decide⟩
    · cases h

/-- What the templates of the dialects have in common. -/
structure Template.Regular (t : Template) (defaults : Fields) : Prop where
  /-- No operator watches a key that only guards groups, unless it stands in its own group. -/
  watcher : ∀ r ∈ t.references, ∀ key ∈ watchedKeys r.key, t.IsGuardOnly key → r.key ∈ r.guards
  default : ∀ key ∈ defaults.keys, key ∉ neighbours ∧ ¬ t.IsGuardOnly key
  single : ∀ r ∈ t.references, r.key ∈ nodeReaders → r.series = false

/-- The templates of the library are regular, each with its defaults. -/
theorem regular_of_mem_templated {entry : Template × Fields} (h : entry ∈ templatedOperators) :
    entry.1.Regular entry.2 := by
  have hall : ∀ entry ∈ templatedOperators,
      (∀ r ∈ entry.1.references, ∀ key ∈ watchedKeys r.key,
        entry.1.IsGuardOnly key → r.key ∈ r.guards) ∧
      (∀ key ∈ entry.2.keys, key ∉ neighbours ∧ ¬ entry.1.IsGuardOnly key) ∧
      ∀ r ∈ entry.1.references, r.key ∈ nodeReaders → r.series = false := by
    decide
  obtain ⟨hwatcher, hdefault, hsingle⟩ := hall entry h
  exact ⟨hwatcher, hdefault, hsingle⟩

/-- The key is not present, but an operator that is present takes it as given. -/
def Overlooked (body : Fields) (key : String) : Prop :=
  (body.valueOf key).isPresent = false ∧ (body.valueOf key).isNull = false ∧
    ∃ operator, key ∈ watchedKeys operator ∧ (body.valueOf operator).isPresent = true

namespace Dialect

variable {d : Dialect} {t : Template} {defaults body : Fields} {key : String}

/-- Without a key that is not present and not overlooked, a body is rendered alike. -/
theorem agree_without (hd : d ∈ library) (ht : t.Regular defaults) (hguard : t.IsGuardOnly key)
    (habsent : (body.valueOf key).isPresent = false) (hkey : ¬ Overlooked body key) (ctx : Context)
    (column : Option String) :
    Template.Agree d ctx column column (body.withDefaults defaults)
      ((body.without [key]).withDefaults defaults) (Template.lookupsOf t.nodes) t.references := by
  have hdefault : key ∉ defaults.keys := fun hmem => (ht.default key hmem).2 hguard
  have hgiven : (body.withDefaults defaults).valueOf key = body.valueOf key :=
    Fields.valueOf_withDefaults_of_not_mem hdefault body
  have hremoved : ((body.without [key]).withDefaults defaults).valueOf key = .null := by
    rw [Fields.valueOf_withDefaults_of_not_mem hdefault,
      Fields.valueOf_without_of_mem (List.mem_singleton_self key)]
  have hother : ∀ other, other ≠ key → (body.withDefaults defaults).valueOf other =
      ((body.without [key]).withDefaults defaults).valueOf other := by
    intro other hne
    refine Fields.valueOf_withDefaults_congr ?_ defaults
    rw [Fields.valueOf_without_of_not_mem (by simpa using hne)]
  -- a reference in a group that the key guards is not looked at
  have hguarded : ∀ r : Template.Reference, key ∈ r.guards →
      r.isOn (body.withDefaults defaults) = false := by
    intro r hmem
    refine List.all_eq_false.2 ⟨key, hmem, ?_⟩
    rw [hgiven, habsent]
    exact Bool.false_ne_true
  refine ⟨fun other _ => ?_, fun r hr hon => ?_, fun r hr hreached operand => ?_⟩
  · by_cases heq : other = key
    · rw [heq, hgiven, hremoved, habsent]
      rfl
    · rw [hother other heq]
  · by_cases heq : r.key = key
    · rw [hguarded r (hguard.2 r hr heq)] at hon
      cases hon
    · exact hother r.key heq
  · rw [Same, Context.invoke, Context.invoke, Rendering.run_invoke, Rendering.run_invoke]
    refine respond_node_congr hd (fun other hwatched => ?_) operand column _
    by_cases heq : other = key
    · subst heq
      rw [hgiven, hremoved]
      by_contra hnull
      -- the operator is present, so the key would be overlooked
      have hmem := ht.watcher r hr other hwatched hguard
      have hon : r.isOn (body.withDefaults defaults) = true := (Bool.and_eq_true_iff.1 hreached).1
      have hpresent := List.all_eq_true.1 hon r.key hmem
      have hneighbour := (mem_neighbours_of_watched hwatched).2.1
      rw [Fields.valueOf_withDefaults_of_not_mem
        fun hdefaults => (ht.default r.key hdefaults).1 hneighbour] at hpresent
      exact hkey ⟨habsent, by simpa [Value.isNull] using hnull, r.key, hwatched, hpresent⟩
    · rw [hother other heq]

/-! ## Operators that refuse -/

/-- Two ways to name a table at once are refused, by either of them. -/
theorem respond_tables_refused (hd : d ∈ library) {operator : String}
    (hoperator : operator = "$from" ∨ operator = "$table") {node : Fields}
    (hfrom : (node.valueOf "$from").isNull = false)
    (htable : (node.valueOf "$table").isNull = false) (operand : Value) (column : Option String)
    (combinator : Option Combinator) :
    d.respond ⟨operator, operand, node, column, combinator⟩ = throw .twoTables := by
  have hfind : d.registry.find? operator = some Operator.tables := by
    rcases hoperator with rfl | rfl <;> exact find?_of_ansi hd rfl rfl rfl
  rw [respond_eq hd]
  simp only [hfind, Operator.tables, hfrom, htable]
  rfl

/-- An offset is refused without a limit. -/
theorem respond_offset_refused (hd : d ∈ library) {node : Fields}
    (hlimit : (node.valueOf "$limit").isNull = true) (operand : Value) (column : Option String)
    (combinator : Option Combinator) :
    d.respond ⟨"$offset", operand, node, column, combinator⟩ = throw .offsetAlone := by
  have hfind : d.registry.find? "$offset" = some Operator.offset := find?_of_ansi hd rfl rfl rfl
  rw [respond_eq hd]
  simp only [hfind, Operator.offset, hlimit]
  rfl

/-- A body that is rendered is admitted, and its template is. -/
theorem admits_of_invocation (hd : d ∈ library) {operator : String}
    (hfind : d.registry.find? operator = some (t.handler defaults))
    {combinator : Option Combinator} {column : Option String} {node : Fields}
    {binder values : Array Value} {text : String}
    (hrun : d.invocation combinator operator (.object body) node column binder =
      (.ok text, values)) :
    t.Admits body ∧
      ((t.render (d.context combinator) (body.withDefaults defaults) column).run d.placeholder
        d.respond).run.run binder = (.ok text, values) := by
  rw [invocation_eq hd] at hrun
  by_cases hadmits : t.Admits body
  · rw [respond_of_admits hd hfind hadmits] at hrun
    exact ⟨hadmits, hrun⟩
  · obtain ⟨fault, hfault⟩ := respond_of_not_admits hd hfind hadmits node column combinator
    rw [hfault] at hrun
    cases hrun

/-- A template that has an operator present which refuses is not rendered. -/
theorem fails_of_refused (hd : d ∈ library) {operator : String} (ht : t.Regular defaults)
    (hfind : d.registry.find? operator = some (t.handler defaults)) {reader : String}
    (hreader : reader ∈ nodeReaders) (hpresent : (body.valueOf reader).isPresent = true)
    {combinator : Option Combinator} {column : Option String}
    (hrefused : ∀ operand, ∃ fault,
      d.respond ⟨reader, operand, body.withDefaults defaults, column, combinator⟩ = throw fault)
    (node : Fields) (binder : Array Value) :
    Fails (d.invocation combinator operator (.object body) node column binder) := by
  intro text values hrun
  obtain ⟨hadmits, hrun⟩ := admits_of_invocation hd hfind hrun
  have hneighbour : ∀ reader ∈ nodeReaders, reader ∈ neighbours := by decide
  have hdefault : reader ∉ defaults.keys := fun hmem =>
    (ht.default reader hmem).1 (hneighbour reader hreader)
  have hkey : reader ∈ t.keys :=
    (hadmits reader (Fields.mem_keys_of_not_isNull (Value.not_isNull_of_isPresent hpresent))).2
  rw [Template.keys, ← Template.map_key_referencesOf []] at hkey
  obtain ⟨r, hr, rfl⟩ := List.mem_map.1 hkey
  have htraces : (t.render (d.context combinator) (body.withDefaults defaults) column).Traces
      fun _ calls => ⟨r.key, (body.withDefaults defaults).valueOf r.key,
        body.withDefaults defaults, column, combinator⟩ ∈ calls := by
    have hon : List.all [] (fun guard =>
      ((body.withDefaults defaults).valueOf guard).isPresent) = true := rfl
    refine (Template.renderNodes_traces hon t.nodes).bind fun _ calls hcalls => .pure ?_
    have hreached := hcalls.reached r hr
      (by rwa [Fields.valueOf_withDefaults_of_not_mem hdefault])
    rw [hcalls.calls_eq, List.append_nil, List.mem_flatMap]
    refine ⟨r, List.mem_filter.2 ⟨hr, hreached⟩, ?_⟩
    simp [Template.Reference.calls, Template.Reference.operands, ht.single r hr hreader, context]
  exact htraces.not_ok (hrefused _) hrun

/-- A key that is overlooked: next to `$offset`, the body without `$limit` is refused, and next to
the tables, the body with them under two keys is. -/
theorem fails_of_overlooked (hd : d ∈ library) {operator : String} (ht : t.Regular defaults)
    (hfind : d.registry.find? operator = some (t.handler defaults)) (h : Overlooked body key)
    (combinator : Option Combinator) (node : Fields) (column : Option String)
    (binder : Array Value) :
    (key = "$limit" ∧ Fails (d.invocation combinator operator (.object (body.without [key])) node
        column binder)) ∨
      ((key = "$from" ∨ key = "$table") ∧
        Fails (d.invocation combinator operator (.object body) node column binder)) := by
  obtain ⟨habsent, hnull, reader, hwatched, hpresent⟩ := h
  obtain ⟨hreader, -, -⟩ := mem_neighbours_of_watched hwatched
  have hdefault : ∀ key ∈ neighbours, key ∉ defaults.keys := fun key hkey hmem =>
    (ht.default key hmem).1 hkey
  have hne : reader ≠ key := by
    rintro rfl
    rw [habsent] at hpresent
    cases hpresent
  unfold watchedKeys at hwatched
  split at hwatched
  · rename_i htables
    have hkey : key = "$from" ∨ key = "$table" := by simpa using hwatched
    refine .inr ⟨hkey, ?_⟩
    refine fails_of_refused hd ht hfind hreader hpresent (fun operand => ?_) node binder
    have hgiven : ∀ other, other = "$from" ∨ other = "$table" →
        ((body.withDefaults defaults).valueOf other).isNull = false := by
      intro other hother
      have hvalue : (body.withDefaults defaults).valueOf other = body.valueOf other := by
        refine Fields.valueOf_withDefaults_of_not_mem (hdefault other ?_) body
        rcases hother with rfl | rfl <;> decide
      rw [hvalue]
      by_cases heq : other = key
      · rwa [heq]
      · have hreads : other = reader := by grind
        rw [hreads]
        exact Value.not_isNull_of_isPresent hpresent
    exact ⟨_, respond_tables_refused hd htables (hgiven _ (.inl rfl)) (hgiven _ (.inr rfl)) operand
      column combinator⟩
  · split at hwatched
    · rename_i hoffset
      subst hoffset
      obtain rfl : key = "$limit" := by simpa using hwatched
      refine .inl ⟨rfl, fails_of_refused hd ht hfind hreader ?_ (fun operand => ?_) node binder⟩
      · rwa [Fields.valueOf_without_of_not_mem (by decide)]
      · refine ⟨_, respond_offset_refused hd ?_ operand column combinator⟩
        rw [Fields.valueOf_withDefaults_of_not_mem (hdefault "$limit" (by decide)),
          Fields.valueOf_without_of_mem (List.mem_singleton_self _)]
        rfl
    · cases hwatched

end Dialect

/-! ## The last clauses of a query -/

/-- The clause of a keyword, after a space, or nothing if the clause is not given. -/
def IsClause (keyword : String) (given : Bool) (text : String) : Prop :=
  if given then ∃ operand, operand ≠ "" ∧ text = " " ++ keyword ++ " " ++ operand else text = ""

/-- A clause is empty exactly if it is not given. -/
theorem IsClause.eq_empty_iff {keyword text : String} {given : Bool}
    (h : IsClause keyword given text) : text = "" ↔ given = false := by
  cases given with
  | false => exact iff_of_true h rfl
  | true =>
    obtain ⟨operand, -, rfl⟩ := h
    exact iff_of_false (by simp [String.append_eq_empty_iff]) Bool.noConfusion

/-- The keys of the clauses that end a query. -/
def pagingKeys : List String := ["$limit", "$offset", "$outfile"]

namespace Template

variable {ctx : Context} {name : String} {body : Fields} {column : Option String}
  {placeholder : Nat → String} {answer : Call → Compile String} {s s' : Array Value}
  {fs : List Fragment}

/-- A group of a keyword and its guard is a clause. -/
theorem isClause_clauseNode {keyword key : String}
    (htext : ∀ operand s text s', (answer ⟨key, operand, body, column, ctx.combinator⟩).run.run s =
      (.ok text, s') → text ≠ "")
    (hrun : ((renderNode ctx name body column (clauseNode [keyword] key)).run placeholder
      answer).run.run s = (.ok fs, s')) :
    IsClause keyword (body.valueOf key).isPresent (fragmentTail fs) := by
  rw [clauseNode, renderNode] at hrun
  unfold IsClause
  split at hrun
  · rename_i hpresent
    rw [if_pos hpresent]
    have hnull := Value.not_isNull_of_isPresent hpresent
    simp only [List.map_cons, List.map_nil, List.cons_append, List.nil_append, renderNodes,
      renderNode, hnull, Bool.false_eq_true, if_false, pure_bind, bind_assoc,
      Rendering.run_andThen] at hrun
    obtain ⟨text, s₁, hreply, hrest⟩ := Rendering.bind_eq_ok_iff.1 hrun
    rw [Context.invoke, Rendering.run_invoke] at hreply
    have hne := htext _ _ _ _ hreply
    refine ⟨text, hne, ?_⟩
    cases hrest
    have hempty : text.isEmpty = false := by simpa [String.isEmpty_iff] using hne
    simp [respace, Fragment.ofText, hempty, fragmentTail, ← String.toList_inj]
  · rename_i hpresent
    rw [if_neg hpresent, Rendering.run_andThen] at *
    obtain ⟨_, _, -, hrest⟩ := Rendering.bind_eq_ok_iff.1 hrun
    cases hrest
    rfl

/-- A group whose only reference is missing renders to nothing. -/
theorem renderNode_clauseNode_of_null {keyword key : String} (h : body.valueOf key = .null) :
    renderNode ctx name body column (clauseNode [keyword] key) = pure [] := by
  simp [clauseNode, renderNode, h, Value.isPresent, keysOf, Node.keys, checkAbsent]

end Template

namespace Dialect

variable {d : Dialect} {t : Template} {defaults body : Fields} {column : Option String}
  {combinator : Option Combinator} {s s' : Array Value}

/-- What comes after the paging of a query: nothing, or the file of a dialect that has files. -/
def IsFilePart (d : Dialect) (t : Template) (tail : List Template.Node) : Prop :=
  tail = [] ∧ "$outfile" ∉ t.keys ∨
    tail = [.inline "$outfile" true] ∧ d.registry.find? "$outfile" = some Operator.outfile

/-- The templates of queries end with the clauses for paging, and in one dialect with a file. -/
theorem select_nodes (hd : d ∈ library) (ht : d.template? "$select" = some t) :
    ∃ head tail : List Template.Node,
      t.nodes = (.word "SELECT" true :: head) ++
        (clauseNode ["LIMIT"] "$limit" :: clauseNode ["OFFSET"] "$offset" :: tail) ∧
      (∀ key ∈ Template.lookupsOf head, key ∉ pagingKeys) ∧
      (∀ r ∈ Template.referencesOf [] head, ∀ key ∈ r.key :: watchedKeys r.key,
        key ∉ pagingKeys) ∧
      d.IsFilePart t tail := by
  simp only [library, List.mem_cons, List.not_mem_nil, or_false] at hd
  rcases hd with rfl | rfl | rfl
  · obtain rfl : Ansi.selectTemplate = t := by
      rw [ansi_eq] at ht
      exact Option.some.inj ht
    exact ⟨(Ansi.selectTemplate.nodes.drop 1).take 8, [], rfl, by decide, by decide,
      .inl ⟨rfl, by decide⟩⟩
  · obtain rfl : Mysql.selectTemplate = t := by
      rw [mysql_eq] at ht
      exact Option.some.inj ht
    refine ⟨(Mysql.selectTemplate.nodes.drop 1).take 10, [.inline "$outfile" true], rfl, by decide,
      by decide, .inr ⟨rfl, ?_⟩⟩
    rw [mysql_eq]
    rfl
  · obtain rfl : Ansi.selectTemplate = t := by
      rw [postgres_eq] at ht
      exact Option.some.inj ht
    exact ⟨(Ansi.selectTemplate.nodes.drop 1).take 8, [], rfl, by decide, by decide,
      .inl ⟨rfl, by decide⟩⟩

theorem placeholder_ne_empty (hd : d ∈ library) (n : Nat) : d.placeholder n ≠ "" := by
  have h := Placeholder.isEmpty_eq_false (settled_of_mem hd).placeholder n
  simpa [String.isEmpty_iff] using h

/-- A value that is bound leaves a text. -/
theorem bound_ne_empty (hd : d ∈ library) {v : Value} {text : String}
    (hrun : ((Rendering.bound v).run d.placeholder d.respond).run.run s = (.ok text, s')) :
    text ≠ "" := by
  rw [Rendering.run_bound] at hrun
  cases hrun
  exact placeholder_ne_empty hd _

/-- So does a limit, also if it is written as a word. -/
theorem limit_ne_empty (hd : d ∈ library) {operand : Value} {node : Fields} {text : String}
    (hrun : (d.respond ⟨"$limit", operand, node, column, combinator⟩).run.run s = (.ok text, s')) :
    text ≠ "" := by
  have hfind : d.registry.find? "$limit" = some Operator.limit := find?_of_ansi hd rfl rfl rfl
  rw [respond_eq hd] at hrun
  simp only [hfind, Operator.limit] at hrun
  split at hrun
  · cases hrun
    have hempty := maxLimit_isEmpty hd
    simpa [String.isEmpty_iff, context] using hempty
  · split at hrun
    · exact bound_ne_empty hd hrun
    · cases hrun

theorem offset_ne_empty (hd : d ∈ library) {operand : Value} {node : Fields} {text : String}
    (hrun : (d.respond ⟨"$offset", operand, node, column, combinator⟩).run.run s = (.ok text, s')) :
    text ≠ "" := by
  have hfind : d.registry.find? "$offset" = some Operator.offset := find?_of_ansi hd rfl rfl rfl
  rw [respond_eq hd] at hrun
  simp only [hfind, Operator.offset] at hrun
  split at hrun
  · cases hrun
  · split at hrun
    · exact bound_ne_empty hd hrun
    · cases hrun

/-- A file and its options. -/
theorem outfile_text (hd : d ∈ library) {operand : Value} {text : String}
    (hrun : ((Operator.outfileClause operand).run d.placeholder d.respond).run.run s =
      (.ok text, s')) : ∃ file, file ≠ "" ∧ text = "OUTFILE " ++ file := by
  unfold Operator.outfileClause at hrun
  split at hrun
  · cases hrun
  · simp only [Rendering.run_andThen] at hrun
    obtain ⟨file, s₁, hfile, hrest⟩ := Rendering.bind_eq_ok_iff.1 hrun
    obtain ⟨fields, s₂, -, hrest⟩ := Rendering.bind_eq_ok_iff.1 hrest
    obtain ⟨lines, s₃, -, hrest⟩ := Rendering.bind_eq_ok_iff.1 hrest
    cases hrest
    refine ⟨" ".intercalate (file :: (fields ++ lines)), ?_, ?_⟩
    · have hne := bound_ne_empty hd hfile
      cases fields ++ lines with
      | nil => rwa [String.intercalate_singleton]
      | cons first rest => simp [String.intercalate_cons_cons, String.append_eq_empty_iff, hne]
    · rw [List.cons_append, List.cons_append, String.intercalate_cons_cons]
      simp

theorem isClause_outfile (hd : d ∈ library)
    (hfind : d.registry.find? "$outfile" = some Operator.outfile) {name : String}
    {fs : List Fragment}
    (hrun : ((Template.renderNode (d.context combinator) name body column
      (.inline "$outfile" true)).run d.placeholder d.respond).run.run s = (.ok fs, s')) :
    IsClause "INTO OUTFILE" (!(body.valueOf "$outfile").isNull) (fragmentTail fs) := by
  rw [Template.renderNode] at hrun
  unfold IsClause
  split at hrun
  · rename_i hnull
    cases hrun
    rw [hnull]
    rfl
  · rename_i hnull
    rw [if_pos (by simpa using hnull)]
    rw [Rendering.run_andThen] at hrun
    obtain ⟨text, s₁, hreply, hrest⟩ := Rendering.bind_eq_ok_iff.1 hrun
    rw [Context.invoke, Rendering.run_invoke, respond_eq hd] at hreply
    simp only [hfind, Operator.outfile, Rendering.run_andThen] at hreply
    obtain ⟨clause, s₂, hclause, hdone⟩ := Rendering.bind_eq_ok_iff.1 hreply
    obtain ⟨file, hne, rfl⟩ := outfile_text hd hclause
    cases hdone
    cases hrest
    refine ⟨file, hne, ?_⟩
    simp [Fragment.ofText, fragmentTail, String.isEmpty_iff, ← String.toList_inj]

theorem IsFilePart.render_of_null {tail : List Template.Node} (h : d.IsFilePart t tail)
    (hnull : body.valueOf "$outfile" = .null) (ctx : Context) (name : String) :
    Template.renderNodes ctx name body column tail = pure [] := by
  rcases h with ⟨rfl, -⟩ | ⟨rfl, -⟩
  · rw [Template.renderNodes]
  · rw [Template.renderNodes_singleton, Template.renderNode, hnull]
    rfl

/-- The clause of a file is there exactly if the file is given. -/
theorem IsFilePart.isClause (hd : d ∈ library) {tail : List Template.Node}
    (h : d.IsFilePart t tail) (hadmits : t.Admits body)
    (hgiven : (body.withDefaults defaults).valueOf "$outfile" = body.valueOf "$outfile")
    {fs : List Fragment}
    (hrun : ((Template.renderNodes (d.context combinator) t.name (body.withDefaults defaults) column
      tail).run d.placeholder d.respond).run.run s = (.ok fs, s')) :
    IsClause "INTO OUTFILE" (!(body.valueOf "$outfile").isNull) (fragmentTail fs) := by
  rcases h with ⟨rfl, hkey⟩ | ⟨rfl, houtfile⟩
  · rw [Template.renderNodes] at hrun
    cases hrun
    have hnull : (body.valueOf "$outfile").isNull = true := by
      by_contra hfile
      exact hkey (hadmits _ (Fields.mem_keys_of_not_isNull (by simpa using hfile))).2
    rw [hnull]
    rfl
  · rw [Template.renderNodes_singleton] at hrun
    rw [← hgiven]
    exact isClause_outfile hd houtfile hrun

/-- Without the keys for paging, the head of a query is what it was. -/
theorem same_head (hd : d ∈ library) {head : List Template.Node}
    (hlookups : ∀ key ∈ Template.lookupsOf head, key ∉ pagingKeys)
    (hreferences : ∀ r ∈ Template.referencesOf [] head, ∀ key ∈ r.key :: watchedKeys r.key,
      key ∉ pagingKeys) (ctx : Context) (name : String) :
    d.Same (Template.renderNodes ctx name (body.withDefaults defaults) column head)
      (Template.renderNodes ctx name ((body.without pagingKeys).withDefaults defaults) column
        head) := by
  have hsame : ∀ key, key ∉ pagingKeys → (body.withDefaults defaults).valueOf key =
      ((body.without pagingKeys).withDefaults defaults).valueOf key := fun key hkey =>
    Fields.valueOf_withDefaults_congr (Fields.valueOf_without_of_not_mem hkey body).symm defaults
  have hon : List.all [] (fun guard =>
    ((body.withDefaults defaults).valueOf guard).isPresent) = true := rfl
  exact Template.same_renderNodes hon head (agree_of_valueOf_eq hd
    (fun key hkey => hsame key (hlookups key hkey))
    (fun r hr key hkey => hsame key (hreferences r hr key hkey)) ctx column)

/-- A selection is rendered as its head, its limit, its offset and its tail. -/
theorem render_of_nodes {head tail : List Template.Node}
    (hnodes : t.nodes = (.word "SELECT" true :: head) ++
      (clauseNode ["LIMIT"] "$limit" :: clauseNode ["OFFSET"] "$offset" :: tail))
    (ctx : Context) (body : Fields) (column : Option String) :
    t.render ctx body column = do
      let fs ← Template.renderNodes ctx t.name body column head
      let limit ← Template.renderNode ctx t.name body column (clauseNode ["LIMIT"] "$limit")
      let offset ← Template.renderNode ctx t.name body column (clauseNode ["OFFSET"] "$offset")
      let file ← Template.renderNodes ctx t.name body column tail
      return joinFragments (⟨"SELECT", true⟩ :: (fs ++ (limit ++ (offset ++ file)))) := by
  rw [Template.render, hnodes, Template.renderNodes_append]
  simp only [Template.renderNodes, Template.renderNode.eq_1, bind_assoc, pure_bind,
    List.cons_append, List.nil_append]

/-- A query is what it is without the keys for paging, and the clauses for those that are given. -/
theorem select_text (hd : d ∈ library) (ht : d.template? "$select" = some t) {node : Fields}
    {binder values : Array Value} {text : String}
    (hrun : d.invocation combinator "$select" (.object body) node column binder =
      (.ok text, values)) :
    ∃ head limit offset file : String, ∃ bound : Array Value,
      text = head ++ limit ++ offset ++ file ∧
      d.invocation combinator "$select" (.object (body.without pagingKeys)) node column binder =
        (.ok head, bound) ∧
      IsClause "LIMIT" (body.valueOf "$limit").isPresent limit ∧
      IsClause "OFFSET" (body.valueOf "$offset").isPresent offset ∧
      IsClause "INTO OUTFILE" (!(body.valueOf "$outfile").isNull) file := by
  obtain ⟨defaults, hmem, hfind⟩ := find?_of_template? hd ht
  obtain ⟨head, tail, hnodes, hlookups, hreferences, htail⟩ := select_nodes hd ht
  have hdefaults : ∀ entry ∈ templatedOperators, ∀ key ∈ pagingKeys, key ∉ entry.2.keys := by decide
  have hgiven : ∀ key ∈ pagingKeys, (body.withDefaults defaults).valueOf key = body.valueOf key :=
    fun key hkey => Fields.valueOf_withDefaults_of_not_mem (hdefaults _ hmem key hkey) body
  have hremoved : ∀ key ∈ pagingKeys,
      ((body.without pagingKeys).withDefaults defaults).valueOf key = .null := by
    intro key hkey
    rw [Fields.valueOf_withDefaults_of_not_mem (hdefaults _ hmem key hkey),
      Fields.valueOf_without_of_mem hkey]
  obtain ⟨hadmits, hrun⟩ := admits_of_invocation hd hfind hrun
  have hadmits' : t.Admits (body.without pagingKeys) := fun key hkey =>
    hadmits key (Fields.mem_keys_without.1 hkey).1
  rw [render_of_nodes hnodes] at hrun
  simp only [Rendering.run_andThen] at hrun
  obtain ⟨fs, s₁, hhead, hrest⟩ := Rendering.bind_eq_ok_iff.1 hrun
  obtain ⟨limit, s₂, hlimit, hrest⟩ := Rendering.bind_eq_ok_iff.1 hrest
  obtain ⟨offset, s₃, hoffset, hrest⟩ := Rendering.bind_eq_ok_iff.1 hrest
  obtain ⟨file, s₄, hfile, hrest⟩ := Rendering.bind_eq_ok_iff.1 hrest
  have hlimit' := Template.isClause_clauseNode (fun _ _ _ _ h => limit_ne_empty hd h) hlimit
  have hoffset' := Template.isClause_clauseNode (fun _ _ _ _ h => offset_ne_empty hd h) hoffset
  rw [hgiven _ (by decide)] at hlimit' hoffset'
  refine ⟨joinFragments (⟨"SELECT", true⟩ :: fs), fragmentTail limit, fragmentTail offset,
    fragmentTail file, s₁, ?_, ?_, hlimit', hoffset',
    htail.isClause hd hadmits (hgiven _ (by decide)) hfile⟩
  · cases hrest
    simp only [joinFragments, Sql.Strung.fragmentTail_append, String.append_assoc]
  · rw [invocation_eq hd, respond_of_admits hd hfind hadmits', render_of_nodes hnodes]
    rw [Template.renderNode_clauseNode_of_null (hremoved "$limit" (by decide)),
      Template.renderNode_clauseNode_of_null (hremoved "$offset" (by decide)),
      htail.render_of_null (hremoved "$outfile" (by decide)),
      Rendering.run_andThen, ← same_head hd hlookups hreferences]
    refine Rendering.bind_eq_ok_iff.2 ⟨fs, s₁, hhead, ?_⟩
    simp only [pure_bind, List.append_nil]
    rfl

/-- Where rows are skipped without a limit, the limit is overlooked. -/
theorem overlooked_limit_iff (hd : d ∈ library) {operator : String}
    (ht : d.template? operator = some t) {node : Fields} {binder values : Array Value}
    {text : String}
    (hrun : d.invocation combinator operator (.object body) node column binder =
      (.ok text, values)) :
    Overlooked body "$limit" ↔
      (body.valueOf "$offset").isPresent = true ∧ (body.valueOf "$limit").isPresent = false := by
  constructor
  · rintro ⟨habsent, -, reader, hwatched, hpresent⟩
    obtain rfl : reader = "$offset" := by
      unfold watchedKeys at hwatched
      split at hwatched
      · simp at hwatched
      · split at hwatched
        · assumption
        · cases hwatched
    exact ⟨hpresent, habsent⟩
  · rintro ⟨hpresent, habsent⟩
    obtain ⟨defaults, hmem, hfind⟩ := find?_of_template? hd ht
    have hregular := regular_of_mem_templated hmem
    refine ⟨habsent, ?_, "$offset", by simp [watchedKeys], hpresent⟩
    by_contra hnull
    refine fails_of_refused hd hregular hfind (by decide) hpresent (fun operand => ?_) node binder
      text values hrun
    refine ⟨_, respond_offset_refused hd ?_ operand column combinator⟩
    rw [Fields.valueOf_withDefaults_of_not_mem
      fun hdefaults => (hregular.default _ hdefaults).1 (by decide)]
    simpa using hnull

/-- **What is not present can be left out, if nothing overlooks it.**  For a key that only guards
groups and is not present, the body with the key and the body without it have the same outcome,
except that the key is overlooked and one of them is rendered.  `$limit` is overlooked by `$offset`,
which is then refused only without the key; `$from` and `$table` are overlooked by each other, and
then refused only with the key.

A query is what it is without paging, then a `LIMIT` exactly if `$limit` is present and an `OFFSET`
exactly if `$offset` is, and it has the second without the first exactly if `$limit` is
overlooked. -/
theorem absent_key_outcome (hd : d ∈ library) {operator : String}
    (ht : d.template? operator = some t) (combinator : Option Combinator) (body node : Fields)
    (column : Option String) (binder : Array Value) :
    let run (body : Fields) := d.invocation combinator operator (.object body) node column binder
    (∀ key, t.IsGuardOnly key → (body.valueOf key).isPresent = false →
      (SameOutcome (run body) (run (body.without [key])) ↔
        (Overlooked body key → Fails (run body) ∧ Fails (run (body.without [key])))) ∧
      (Overlooked body key →
        (key = "$limit" ∧ Fails (run (body.without [key]))) ∨
          ((key = "$from" ∨ key = "$table") ∧ Fails (run body)))) ∧
    (operator = "$select" → ∀ text values, run body = (.ok text, values) →
      ∃ head limit offset file : String, ∃ bound : Array Value,
        text = head ++ limit ++ offset ++ file ∧ run (body.without pagingKeys) = (.ok head, bound) ∧
        IsClause "LIMIT" (body.valueOf "$limit").isPresent limit ∧
        IsClause "OFFSET" (body.valueOf "$offset").isPresent offset ∧
        IsClause "INTO OUTFILE" (!(body.valueOf "$outfile").isNull) file ∧
        (offset ≠ "" ∧ limit = "" ↔ Overlooked body "$limit")) := by
  intro run
  obtain ⟨defaults, hmem, hfind⟩ := find?_of_template? hd ht
  have hregular := regular_of_mem_templated hmem
  refine ⟨fun key hguard habsent => ?_, ?_⟩
  · have hfails : Overlooked body key → _ := fun h =>
      fails_of_overlooked hd hregular hfind h combinator node column binder
    refine ⟨⟨fun hsame hkey => ?_, fun h => ?_⟩, hfails⟩
    · rcases hfails hkey with ⟨-, hwithout⟩ | ⟨-, hbody⟩
      · exact ⟨hsame.fails_iff.2 hwithout, hwithout⟩
      · exact ⟨hbody, hsame.fails_iff.1 hbody⟩
    · by_cases hkey : Overlooked body key
      · exact .of_fails (h hkey).1 (h hkey).2
      · have hreference : ∀ other ∈ [key], isOperatorKey other = true ∧ other ∈ t.keys :=
          List.forall_mem_singleton.2
            ⟨isOperatorKey_of_mem_templated hmem key hguard.1, hguard.1⟩
        exact sameOutcome_of_agree hd hfind (Template.admits_without hreference).symm
          (agree_without hd hregular hguard habsent hkey _ column) node node binder
  · rintro rfl text values hrun
    obtain ⟨head, limit, offset, file, bound, htext, hhead, hlimit, hoffset, hfile⟩ :=
      select_text hd ht hrun
    refine ⟨head, limit, offset, file, bound, htext, hhead, hlimit, hoffset, hfile, ?_⟩
    rw [overlooked_limit_iff hd ht hrun, ne_eq, hlimit.eq_empty_iff, hoffset.eq_empty_iff,
      Bool.not_eq_false]

/-- A query that skips rows and has an empty text for its limit. -/
def skippingBody : Fields :=
  [("$from", .str "t"), ("$groupBy", .list []), ("$limit", .str ""), ("$offset", .int 5)]

set_option maxRecDepth 4000 in
/-- An empty text is enough of a limit for the offset, though no LIMIT is written. -/
theorem invocation_skippingBody :
    ansi.invocation none "$select" (.object skippingBody) [] none #[] =
      (.ok "SELECT * FROM `t` OFFSET ?", #[.int 5]) := by
  rw [ansi_eq]
  rfl

/-- The grouping can be left out, the limit cannot. -/
theorem absent_key_outcome_skippingBody :
    let run (body : Fields) := ansi.invocation none "$select" (.object body) [] none #[]
    ansi ∈ library ∧ ansi.template? "$select" = some Ansi.selectTemplate ∧
      run skippingBody = (.ok "SELECT * FROM `t` OFFSET ?", #[.int 5]) ∧
      SameOutcome (run skippingBody) (run (skippingBody.without ["$groupBy"])) ∧
      ¬ SameOutcome (run skippingBody) (run (skippingBody.without ["$limit"])) := by
  intro run
  have hd : ansi ∈ library := by simp [library]
  have ht : ansi.template? "$select" = some Ansi.selectTemplate := by
    rw [ansi_eq]
    rfl
  obtain ⟨hkeys, -⟩ := absent_key_outcome hd ht none skippingBody [] none #[]
  refine ⟨hd, ht, invocation_skippingBody, ?_, fun hsame => ?_⟩
  · refine (hkeys "$groupBy" (by decide) (by decide)).1.2 fun hoverlooked => ?_
    rcases (hkeys "$groupBy" (by decide) (by decide)).2 hoverlooked with ⟨hkey, -⟩ | ⟨hkey, -⟩
    · exact absurd hkey (by decide)
    · exact absurd hkey (by decide)
  · have hlimit : Overlooked skippingBody "$limit" :=
      ⟨by decide, by decide, "$offset", by decide, by decide⟩
    have hfails := (hkeys "$limit" (by decide) (by decide)).1.1 hsame hlimit
    exact hfails.1 _ _ invocation_skippingBody

end Dialect

end QueryTree
