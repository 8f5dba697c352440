import QueryTree.Proofs.Bodies
import QueryTree.Proofs.MissingNames

/-!
# Clauses that make no calls

Most clauses are rendered without calls to other operators.  They have no gap unless they are bare:
an empty object stands where a list of names is expected, there is nothing to sort by, or the
storage of a table has no option.

* `Call.IsBare` : a call with nothing in it where something is expected.
* `leafOperators` : the operators that make no calls, switches and values apart.
* **`Sql.leaf_fills`** : they have no gap unless they are bare.
* **`Dialect.gapless_iff_of_replies`** : five clauses have no gap exactly if they are not bare.
-/

namespace QueryTree

/-! ## Bare calls -/

namespace Call

/-- The lists of names that a call renders. -/
def nameLists (call : Call) : List Value :=
  if call.operator ∈ ["$from", "$table", "$groupBy"] then [call.operand]
  else
    match call.operator, call.operand with
    | "$references", .object fields => [Fields.valueOf fields "$columns"]
    | "$constraint", .object fields => fields.flatMap Sql.constraintLists
    | _, _ => []

/-- A call with nothing in it where something is expected: a list of names, the columns that rows
are sorted by, or the options of the storage of a table. -/
def IsBare (call : Call) : Prop :=
  (∃ v ∈ call.nameLists, LacksNames v) ∨
    (call.operator = "$sort" ∧ Sql.LacksColumns call.operand) ∨
      call.operator = "$with" ∧ ∃ fields, call.operand = .object fields ∧
        (Fields.valueOf fields "$oids").isNull = true

end Call

namespace Sql

/-- Lists of names are bare if names are missing. -/
theorem isBare_iff_of_names {call : Call} (h : call.operator ∈ ["$from", "$table", "$groupBy"]) :
    call.IsBare ↔ LacksNames call.operand := by
  have hother : call.operator ≠ "$sort" ∧ call.operator ≠ "$with" := by
    constructor <;> intro heq <;> rw [heq] at h <;> exact absurd h (by decide)
  rw [Call.IsBare, Call.nameLists, if_pos h]
  simp [hother]

/-- A sorting is bare if it has no columns. -/
theorem isBare_sort_iff {call : Call} (h : call.operator = "$sort") :
    call.IsBare ↔ LacksColumns call.operand := by
  simp [Call.IsBare, Call.nameLists, h]

/-- Storage options are bare without the one option that there is. -/
theorem isBare_with_iff {call : Call} (h : call.operator = "$with") :
    call.IsBare ↔ ∃ fields, call.operand = .object fields ∧
      (Fields.valueOf fields "$oids").isNull = true := by
  simp [Call.IsBare, Call.nameLists, h]

theorem not_lacksNames {call : Call} (hbare : ¬ call.IsBare) {v : Value} (hv : v ∈ call.nameLists) :
    ¬ LacksNames v :=
  fun hlacks => hbare (.inl ⟨v, hv, hlacks⟩)

/-! ## Operators that make no calls -/

/-- The operators that make no calls, switches and values apart. -/
def leafOperators : List (String × Handler) :=
  [("$from", Operator.tables), ("$table", Operator.tables), ("$groupBy", Operator.grouping),
    ("$sort", Operator.sorting), ("$limit", Operator.limit), ("$offset", Operator.offset),
    ("$constraint", Operator.constraints), ("$type", Operator.columnType),
    ("$length", Operator.columnLength), ("$into", Operator.target),
    ("$outfile", Operator.outfile), ("$comment", Operator.columnComment),
    ("$collate", Operator.collation), ("$references", Operator.reference),
    ("$oids", Operator.objectIds), ("$tablespace", Operator.tablespace)]

/-- Their names. -/
def leafNames : List String := leafOperators.map Prod.fst

/-- The operators of some names, if they are the same in all dialects that have them. -/
theorem mem_of_names {names : List String} {part : List (String × Handler)}
    (hpart : (Ansi.table ++ Mysql.table ++ Postgres.table).filter
      (fun entry => names.contains entry.1) = part) {entry : String × Handler}
    (h : entry ∈ Ansi.table ++ Mysql.table ++ Postgres.table) (hname : entry.1 ∈ names) :
    entry ∈ part := by
  rw [← hpart]
  exact List.mem_filter.2 ⟨h, List.contains_iff_mem.2 hname⟩

/-- Operators of these names make no call. -/
theorem mem_leafOperators {entry : String × Handler}
    (h : entry ∈ Ansi.table ++ Mysql.table ++ Postgres.table) (hname : entry.1 ∈ leafNames) :
    entry ∈ leafOperators :=
  mem_of_names rfl h hname

variable {S : Scheme} {ctx : Context} {replies : ReplyRel}

/-- An operator that makes no calls has no gap unless its call is bare. -/
theorem leaf_fills (h : Styled S ctx) : ∀ entry ∈ leafOperators, ∀ call : Call,
    call.operator = entry.1 → ¬ call.IsBare → Fills S replies (entry.2.render ctx call) := by
  have htables : ∀ name ∈ ["$from", "$table", "$groupBy"], ∀ call : Call, call.operator = name →
      ¬ call.IsBare → ¬ LacksNames call.operand := by
    intro name hname call hcall hbare
    rwa [isBare_iff_of_names (hcall ▸ hname)] at hbare
  simp only [leafOperators, List.forall_mem_cons]
  refine ⟨?_, ?_, ?_, ?_, ?_, ?_, ?_, ?_, ?_, ?_, ?_, ?_, ?_, ?_, ?_, ?_, by simp⟩
  · exact fun call hcall hbare => tables_fills h.mark (htables _ (by simp) call hcall hbare)
  · exact fun call hcall hbare => tables_fills h.mark (htables _ (by simp) call hcall hbare)
  · exact fun call hcall hbare => nameList_fills h.mark _ (htables _ (by simp) call hcall hbare)
  · intro call hcall hbare
    rw [isBare_sort_iff hcall] at hbare
    exact sortColumns_fills h.mark hbare
  · exact fun call _ _ => limit_fills h call
  · exact fun call _ _ => offset_fills h call
  · intro call hcall hbare
    refine constraints_fills h fun fields hoperand entry hentry list hlist => ?_
    refine not_lacksNames hbare ?_
    simp only [Call.nameLists, hoperand, hcall]
    simpa using ⟨entry.1, entry.2, hentry, hlist⟩
  · exact fun call _ _ => columnType_fills call
  · exact fun call _ _ => columnLength_fills call
  · exact fun call _ _ => target_fills h call
  · exact fun call _ _ => outfile_fills h call
  · exact fun call _ _ => columnComment_fills h call
  · exact fun call _ _ => collation_fills h call
  · intro call hcall hbare
    refine reference_fills h fun fields hoperand => not_lacksNames hbare ?_
    simp [Call.nameLists, hoperand, hcall]
  · exact fun call _ _ => objectIds_fills call
  · exact fun call _ _ => tablespace_fills h call

/-! ## The storage of a table -/

theorem joinFragments_ofText (text : String) (spaced : Bool) :
    joinFragments (Fragment.ofText text spaced) = text := by
  unfold Fragment.ofText
  split
  · rename_i hempty
    exact (String.isEmpty_iff.1 hempty).symm
  · rw [joinFragments, fragmentTail, String.append_empty]

/-- The storage of a table has the text of its only option. -/
theorem yields_storage {ctx : Context} {replies : ReplyRel} {token : Nat → String} {call : Call}
    {n : Nat} {t : String} {vs : List Value}
    (h : ((Postgres.storageTemplate.handler []).render ctx call).Yields token replies n t vs) :
    ∃ fields, call.operand = .object fields ∧
      (((Fields.valueOf fields "$oids").isNull = true ∧ t = "") ∨
        (Fields.valueOf fields "$oids").isNull = false ∧
          ∃ m us, replies ⟨"$oids", Fields.valueOf fields "$oids", fields, call.column,
            ctx.combinator⟩ m t us) := by
  unfold Template.handler at h
  dsimp only at h
  split at h
  · rename_i fields hoperand
    refine ⟨fields, hoperand, ?_⟩
    obtain ⟨_, us, ws, -, hrender, rfl⟩ := Rendering.yields_bind.1 h
    obtain ⟨fs, _, _, hnodes, hpure, -⟩ := Rendering.yields_bind.1 hrender
    obtain ⟨rfl, -⟩ := Rendering.yields_pure.1 hpure
    simp only [Postgres.storageTemplate, Template.renderNodes] at hnodes
    obtain ⟨first, _, _, hfirst, hrest, -⟩ := Rendering.yields_bind.1 hnodes
    obtain ⟨others, _, _, hothers, hpure, -⟩ := Rendering.yields_bind.1 hrest
    obtain ⟨rfl, -⟩ := Rendering.yields_pure.1 hothers
    obtain ⟨rfl, -⟩ := Rendering.yields_pure.1 hpure
    rw [Template.renderNode] at hfirst
    split at hfirst
    · rename_i hnull
      obtain ⟨rfl, -⟩ := Rendering.yields_pure.1 hfirst
      exact .inl ⟨hnull, rfl⟩
    · rename_i hnull
      obtain ⟨text, us, _, htext, hpure, -⟩ := Rendering.yields_bind.1 hfirst
      obtain ⟨rfl, -⟩ := Rendering.yields_pure.1 hpure
      rw [List.append_nil, joinFragments_ofText]
      rw [Bool.not_eq_true] at hnull
      exact .inr ⟨hnull, _, us, Rendering.yields_invoke.1 htext⟩
  · exact (Rendering.yields_refuse.1 h).elim

end Sql

/-! ## Dialects -/

namespace Dialect

open Sql

variable {d : Dialect}

/-- The word for no limit is not empty. -/
theorem maxLimit_filled (hd : d ∈ library) : Filled d.quoting.mark d.maxLimit := by
  simp only [library, List.mem_cons, List.not_mem_nil, or_false] at hd
  rcases hd with rfl | rfl | rfl
  · rw [ansi_eq]
    decide
  · rw [mysql_eq]
    decide
  · rw [postgres_eq]
    decide

/-- A placeholder is never empty. -/
theorem placeholder_filled {S : Scheme} (h : S.text = .question ∨ S.text = .numbered) (n : Nat) :
    Filled S.mark (S.text n) := by
  rcases h with h | h
  · rw [h]
    have hquestion : Stands "?" := by decide
    exact hquestion.filled
  · rw [h]
    exact (filled_digits n).lead (by decide)

/-- The texts of its own of a dialect of the library are filled. -/
theorem styled (hd : d ∈ library) {S : Scheme} (hmark : d.quoting.mark = S.mark)
    (htext : d.placeholder = S.text) (combinator : Option Combinator) :
    Styled S (d.context combinator) where
  mark := hmark
  maxLimit := hmark ▸ maxLimit_filled hd
  slots := placeholder_filled (htext ▸ (settled_of_mem hd).placeholder)

/-- Calls to operators that make no calls are answered without a gap unless they are bare. -/
theorem filled_of_leaf (hd : d ∈ library) {S : Scheme} (hmark : d.quoting.mark = S.mark)
    (htext : d.placeholder = S.text) {depth : Nat} {call : Call} {n : Nat} {t : String}
    {vs : List Value} (h : d.replies depth call n t vs) (hname : call.operator ∈ leafNames)
    (hbare : ¬ call.IsBare) : Filled S.mark t := by
  cases depth with
  | zero => exact h.elim
  | succ depth =>
    obtain ⟨handler, hfind, hyields⟩ := h
    rw [htext] at hyields
    exact leaf_fills (styled hd hmark htext call.combinator) _
      (mem_leafOperators (find?_mem hd hfind) hname) call rfl hbare n t vs hyields

theorem find?_with (hd : d ∈ library) {handler : Handler}
    (h : d.registry.find? "$with" = some handler) :
    handler = Postgres.storageTemplate.handler [] := by
  simp only [library, List.mem_cons, List.not_mem_nil, or_false] at hd
  rcases hd with rfl | rfl | rfl
  · rw [ansi_eq] at h
    cases h
  · rw [mysql_eq] at h
    cases h
  · rw [postgres_eq] at h
    cases h
    rfl

/-- The clauses of names, of columns to sort by and of the options of a storage. -/
def plainClauses : List String := ["$from", "$table", "$groupBy", "$sort", "$with"]

/-- The operator of a clause that all dialects share. -/
theorem yields_of_ansi (hd : d ∈ library) {depth : Nat} {call : Call} {n : Nat} {t : String}
    {vs : List Value} (h : d.replies depth call n t vs) {handler : Handler}
    (hansi : Ansi.table.lookup call.operator = some handler)
    (hmysql : Mysql.table.lookup call.operator = none)
    (hpostgres : Postgres.table.lookup call.operator = none) :
    ∃ replies, (handler.render (d.context call.combinator) call).Yields d.placeholder replies n t
      vs := by
  cases depth with
  | zero => exact h.elim
  | succ depth =>
    obtain ⟨handler', hfind, hyields⟩ := h
    rw [find?_of_ansi hd hansi hmysql hpostgres, Option.some.injEq] at hfind
    exact ⟨_, hfind ▸ hyields⟩

/-- The storage of a table has no gap exactly if it has an option. -/
theorem storage_gapless_iff (hd : d ∈ library) {S : Scheme} (hmark : d.quoting.mark = S.mark)
    (htext : d.placeholder = S.text) {depth : Nat} {call : Call} (hname : call.operator = "$with")
    {n : Nat} {t : String} {vs : List Value} (h : d.replies depth call n t vs) :
    Gapless S.mark t ↔ ¬ call.IsBare := by
  cases depth with
  | zero => exact h.elim
  | succ depth =>
    obtain ⟨handler, hfind, hyields⟩ := h
    rw [hname] at hfind
    rw [find?_with hd hfind] at hyields
    obtain ⟨fields, hoperand, hoption⟩ := yields_storage hyields
    have hbare : call.IsBare ↔ (Fields.valueOf fields "$oids").isNull = true := by
      simp [isBare_with_iff hname, hoperand]
    rw [hbare]
    rcases hoption with ⟨hnull, rfl⟩ | ⟨hnull, m, us, hreply⟩
    · exact iff_of_false (fun hgapless => hgapless.nonempty rfl) (not_not_intro hnull)
    · have hoids : "$oids" ∈ leafNames := by decide
      refine iff_of_true (filled_of_leaf hd hmark htext hreply hoids ?_).gapless (by simp [hnull])
      simp [Call.IsBare, Call.nameLists]

/-- These clauses have no gap exactly if they are not bare. -/
theorem gapless_iff_of_replies (hd : d ∈ library) {S : Scheme} (hmark : d.quoting.mark = S.mark)
    (htext : d.placeholder = S.text) {depth : Nat} {call : Call} {n : Nat} {t : String}
    {vs : List Value} (h : d.replies depth call n t vs) (hname : call.operator ∈ plainClauses) :
    Gapless S.mark t ↔ ¬ call.IsBare := by
  obtain ⟨operator, operand, node, column, combinator⟩ := call
  simp only [plainClauses, List.mem_cons, List.not_mem_nil, or_false] at hname
  rcases hname with rfl | rfl | rfl | rfl | rfl
  · obtain ⟨replies, hyields⟩ := yields_of_ansi hd h rfl rfl rfl
    rw [htext] at hyields
    rw [isBare_iff_of_names (by simp)]
    exact tables_gapless_iff hmark _ _ _ _ hyields
  · obtain ⟨replies, hyields⟩ := yields_of_ansi hd h rfl rfl rfl
    rw [htext] at hyields
    rw [isBare_iff_of_names (by simp)]
    exact tables_gapless_iff hmark _ _ _ _ hyields
  · obtain ⟨replies, hyields⟩ := yields_of_ansi hd h rfl rfl rfl
    rw [htext] at hyields
    rw [isBare_iff_of_names (by simp)]
    exact nameList_gapless_iff hmark _ _ _ _ _ hyields
  · obtain ⟨replies, hyields⟩ := yields_of_ansi hd h rfl rfl rfl
    rw [htext] at hyields
    rw [isBare_sort_iff rfl]
    exact sortColumns_gapless_iff hmark _ _ _ _ hyields
  · exact storage_gapless_iff hd hmark htext rfl h

end Dialect

end QueryTree
