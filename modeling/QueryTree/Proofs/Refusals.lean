import QueryTree.Proofs.Descent
import QueryTree.Session

/-!
# Refusals

A query is compiled or refused, and a refusal is always of one of three classes, each with its code.
The faults without a class are those of a connective that has no joining word, of a lookup that
finds nothing and of the bound of nested calls.  They go by untold.  No program of the library
refuses with one of the first two, and the bound is not reached.

* `Rendering.Compile.Classified` : a run that fails does so with a fault that has a class.
* **`Dialect.respond_classified`** : no call is answered with a fault that has no class.
* `Dialect.start_of_mem` : a session for a dialect of the library is opened by its name.
* **`Dialect.compile_or_refusal`** : what becomes of a query in such a session, and that exactly one
  event tells it.
-/

namespace QueryTree

namespace Rendering

variable {α β : Type}

/-- The faults that a run can end with have a class. -/
def Compile.Classified (m : Compile α) : Prop :=
  ∀ values values' fault, m.run.run values = (.error fault, values') → fault.isClassified = true

namespace Compile.Classified

theorem pure (a : α) : Classified (Pure.pure a : Compile α) := by
  intro values values' fault h
  cases h

/-- A run that fails at once, with a fault that has a class. -/
theorem throw {fault : Fault} (hfault : fault.isClassified = true) :
    Classified (MonadExcept.throw fault : Compile α) := by
  intro values values' fault' h
  cases h
  exact hfault

/-- One run after another. -/
theorem bind {m : Compile α} {f : α → Compile β} (hm : m.Classified)
    (hf : ∀ a, (f a).Classified) : (m >>= f).Classified := by
  intro values values' fault h
  rw [ExceptT.run_bind, StateT.run_bind] at h
  cases hrun : m.run.run values with
  | mk result values₁ =>
    rw [hrun] at h
    cases result with
    | ok a => exact hf a _ _ _ h
    | error fault' =>
      cases h
      exact hm _ _ _ hrun

theorem bindValue (placeholder : Nat → String) (v : Value) :
    Classified (bindValue placeholder v) := by
  intro values values' fault h
  cases h

end Compile.Classified

/-- A run is classified if the answers to the calls of the program are. -/
theorem Orderly.run_classified {asks : Call → Prop} {token : Nat → String}
    {answer : Call → Compile String} (hanswer : ∀ c, asks c → (answer c).Classified)
    {x : Rendering α} (hx : x.Orderly asks) : (x.run token answer).Classified := by
  induction x with
  | done a => exact .pure a
  | refuse fault => exact .throw hx
  | bind v next ih => exact (Compile.Classified.bindValue token v).bind fun t => ih t (hx t)
  | call c next ih => exact (hanswer c hx.1).bind fun t => ih t (hx.2 t)
  | count next _ => exact hx.elim

end Rendering

open Rendering (Orderly)

/-- A query calls for its statement, or is refused by its class. -/
theorem rootStatement_orderly {ctx : Context} (query : Value) :
    (rootStatement ctx query).Orderly (Call.Below query.size) := by
  unfold rootStatement
  split
  · rename_i name body
    split
    · exact .invoke (Value.size_lt_of_mem_fields (List.mem_singleton_self (name, body)))
    · exact .refuse rfl
  · exact .refuse rfl
  · exact .refuse rfl

/-- The classes of refused queries, each with its code. -/
def refusalCodes : List (Refusal × String) :=
  [(.invalidOperand, "INVALID_OPERAND"), (.unknownOperator, "UNKNOWN_OPERATOR"),
    (.missingField, "MISSING_REQUIRED_FIELD")]

/-- A fault that has a class is reported by it. -/
theorem Fault.report_of_isClassified {fault : Fault} (h : fault.isClassified = true) :
    ∃ kind message code details, fault.report = .refusal kind message code details ∧
      (kind, code) ∈ refusalCodes := by
  cases fault with
  | unknownCombinator kind | missingKey key | tooDeep => cases h
  | _ => exact ⟨_, _, _, _, rfl, by simp [refusalCodes]⟩

namespace Dialect

variable {d : Dialect}

/-- **No call is answered with a fault that has no class.**  The induction is on the reach of the
operand, which goes down with every nested call. -/
theorem respond_classified (hd : d ∈ library) (call : Call) : (d.respond call).Classified := by
  induction hn : call.operand.reach using Nat.strongRecOn generalizing call with
  | ind n ih =>
    rw [respond_eq hd]
    cases hfind : d.registry.find? call.operator with
    | none => exact .throw rfl
    | some handler =>
      refine (descends_of_mem hd hfind _ call).run_classified fun c hc => ?_
      exact ih c.operand.reach (hn ▸ hc) c rfl

/-- **A query that is not compiled is refused by its class.** -/
theorem isClassified_of_compile (hd : d ∈ library) {query : Value} {fault : Fault}
    (h : d.compile query = .error fault) : fault.isClassified = true := by
  have hroot : (rootStatement (d.context none) query).Orderly (Call.Below query.size) :=
    rootStatement_orderly query
  unfold compile at h
  rw [runFor_eq hd hroot] at h
  split at h
  · cases h
  · rename_i hrun
    cases h
    exact hroot.run_classified (fun c _ => respond_classified hd c) _ _ _ hrun

end Dialect

/-! ## Sessions -/

/-- A session for a dialect that is in the catalog. -/
theorem Session.start_of_find? {catalog : Catalog} {dialect : Option Value}
    {settings chosen : Settings} {d : Dialect}
    (hsettings : settingsFor settings dialect = .ok chosen)
    (hfind : catalog.find? (.str chosen.dialect) = some d) :
    Session.start catalog dialect settings = (.ok ⟨chosen, d⟩, []) := by
  rw [start, hsettings]
  dsimp only
  rw [resolve, Catalog.find, hfind]

namespace Dialect

theorem name_ansi : ansi.name = "ansi" := by
  rw [ansi_eq]
  rfl

theorem name_mysql : mysql.name = "mysql" := by
  rw [mysql_eq]

theorem name_postgres : postgres.name = "postgresql" := by
  rw [postgres_eq]

end Dialect

/-- The names of the library are in small letters. -/
theorem Text.lower_dialectName :
    lower "ansi" = "ansi" ∧ lower "mysql" = "mysql" ∧ lower "postgresql" = "postgresql" ∧
      lower "postgres" = "postgres" := by decide

/-- The names that the dialects of the library are found by. -/
theorem Catalog.entries_builtin :
    Catalog.builtin.entries =
      [("ansi", .ansi), ("mysql", .mysql), ("postgresql", .postgres), ("postgres", .postgres)] := by
  simp only [builtin, register, Dialect.name_ansi, Dialect.name_mysql, Dialect.name_postgres,
    List.foldl_cons, List.foldl_nil, Text.lower_dialectName]
  simp [setEntry]

namespace Dialect

variable {d : Dialect}

/-- The names of the library pass the check of the settings. -/
theorem settingsFor_name (hd : d ∈ library) :
    Session.settingsFor {} (some (.str d.name)) = .ok ⟨d.name, false⟩ := by
  simp only [library, List.mem_cons, List.not_mem_nil, or_false] at hd
  rcases hd with rfl | rfl | rfl
  · rw [name_ansi]
    rfl
  · rw [name_mysql]
    rfl
  · rw [name_postgres]
    rfl

/-- They are found in the catalog. -/
theorem find?_builtin (hd : d ∈ library) : Catalog.builtin.find? (.str d.name) = some d := by
  rw [Catalog.find?, Catalog.entries_builtin]
  simp only [library, List.mem_cons, List.not_mem_nil, or_false] at hd
  rcases hd with rfl | rfl | rfl
  · simp [name_ansi, Text.lower_dialectName]
  · simp [name_mysql, Text.lower_dialectName, List.lookup_cons]
  · simp [name_postgres, Text.lower_dialectName, List.lookup_cons]

/-- A session for a dialect of the library is opened by its name, and nothing is told. -/
theorem start_of_mem (hd : d ∈ library) :
    Session.start .builtin (some (.str d.name)) {} = (.ok ⟨⟨d.name, false⟩, d⟩, []) :=
  Session.start_of_find? (settingsFor_name hd) (find?_builtin hd)

/-- **A query is compiled or refused by its class, and exactly one event tells which.** -/
theorem compile_or_refusal (hd : d ∈ library) (query : Value) :
    ∃ session, Session.start .builtin (some (.str d.name)) {} = (.ok session, []) ∧
      ((∃ statement,
          compileFor .builtin (some (.str d.name)) query = .ok statement ∧
          session.compile query =
            (.ok statement, [.compiled d.name statement.values.length])) ∨
        ∃ fault kind message code details,
          compileFor .builtin (some (.str d.name)) query = .error (.query fault) ∧
          session.compile query = (.error fault, [.compileFailed d.name fault]) ∧
          (Failure.query fault).report = .refusal kind message code details ∧
          (kind, code) ∈ refusalCodes) := by
  refine ⟨_, start_of_mem hd, ?_⟩
  rw [compileFor, start_of_mem hd]
  dsimp only [Session.compile, compileLogged]
  cases hcompile : d.compile query with
  | ok statement => exact .inl ⟨statement, rfl, rfl⟩
  | error fault =>
    have hclass := isClassified_of_compile hd hcompile
    obtain ⟨kind, message, code, details, hreport, hcode⟩ := Fault.report_of_isClassified hclass
    have hevents : d.compileEvents (.error fault) = [.compileFailed d.name fault] := by
      rw [compileEvents, if_pos hclass]
    exact .inr ⟨fault, kind, message, code, details, rfl, by rw [hevents], hreport, hcode⟩

/-- A deletion by a connective that does not exist, under `$not`. -/
def unknownConnective : Value :=
  .object [("$delete", .object [("$table", .str "t"),
    ("$where", .object [("$not", .object [("$xor", .list [.null])])])])]

set_option maxRecDepth 4000 in
example :
    let fault : Fault := .unknownOperator "$xor" "mysql" .notAFilter
    mysql.compileLogged unknownConnective = (.error fault, [.compileFailed "mysql" fault]) ∧
      fault.report = .refusal .unknownOperator
        "Unknown operator '$xor' for dialect 'mysql'. Not a filter operator." "UNKNOWN_OPERATOR"
        [("operator", .value (.str "$xor")), ("dialect", .value (.str "mysql"))] := by
  rw [mysql_eq]
  exact ⟨rfl, rfl⟩

end Dialect

end QueryTree
