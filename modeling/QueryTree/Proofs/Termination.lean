import Mathlib.Data.List.Chain
import QueryTree.Proofs.EarlierValues
import QueryTree.Proofs.Refusals

/-!
# Compilation comes to an end

A call is answered by an operator that may call others.  In the dialects of the library each of
these calls is at an operand of smaller reach, so calls nest no deeper than the query is large.
Between two calls an operator only recurses into the parts of its operand, so nothing but the calls
needs a bound.

* `Rendering.Asks` : the calls that a program can make, and `Dialect.Nests` : those that are made
  for another call.  **`Dialect.length_le_of_nests`** bounds a chain of them by the size of a query.
* `Compile.Extends` : the same run, unless the first one gives up at its bound.
  **`Dialect.answer_extends`** : a larger bound only adds answers, in any dialect.
* `Dialect.compileWithin` and `Dialect.outcomeWithin` compile a query and render a part of one with
  calls that nest no deeper than a bound.
* **`Dialect.compile_terminates`** : the size of a query is a bound that is never exceeded, and a
  larger one changes nothing.
-/

namespace QueryTree

namespace Rendering

variable {α β : Type}

/-! ## Calls that a program can make -/

/-- The program can make the call, with some placeholders and answers to the calls before it. -/
inductive Asks : Rendering α → Call → Prop where
  | here {request : Call} {next : String → Rendering α} : Asks (.call request next) request
  | afterCall {request call : Call} {next : String → Rendering α} {text : String}
      (later : Asks (next text) call) : Asks (.call request next) call
  | afterBind {value : Value} {call : Call} {next : String → Rendering α} {token : String}
      (later : Asks (next token) call) : Asks (.bind value next) call
  | afterCount {call : Call} {next : Nat → Rendering α} {n : Nat}
      (later : Asks (next n) call) : Asks (.count next) call

theorem Orderly.of_asks {asks : Call → Prop} {x : Rendering α} (hx : x.Orderly asks) {call : Call}
    (h : x.Asks call) : asks call := by
  induction h with
  | here => exact hx.1
  | afterCall later ih => exact ih (hx.2 _)
  | afterBind later ih => exact ih (hx _)
  | afterCount later ih => exact hx.elim

/-! ## Runs that give up -/

/-- Where the first run does not give up at the bound of nested calls, the second is the same. -/
def Compile.Extends (m m' : Compile α) : Prop :=
  ∀ values, (m.run.run values).1 ≠ .error .tooDeep → m'.run.run values = m.run.run values

namespace Compile.Extends

theorem refl (m : Compile α) : Extends m m := fun _ _ => rfl

theorem bind {m m' : Compile α} {f f' : α → Compile β} (hm : Extends m m')
    (hf : ∀ a, Extends (f a) (f' a)) : Extends (m >>= f) (m' >>= f') := by
  intro values h
  rw [ExceptT.run_bind, StateT.run_bind] at h ⊢
  rw [ExceptT.run_bind, StateT.run_bind]
  cases hrun : m.run.run values with
  | mk result values₁ =>
    rw [hrun] at h
    cases result with
    | error fault =>
      have hne : (m.run.run values).1 ≠ .error .tooDeep := by
        rw [hrun]
        rintro ⟨⟩
        exact h rfl
      rw [hm values hne, hrun]
      rfl
    | ok a =>
      have hne : (m.run.run values).1 ≠ .error .tooDeep := by
        rw [hrun]
        rintro ⟨⟩
      rw [hm values hne, hrun]
      exact hf a values₁ h

end Compile.Extends

/-- A program whose calls are answered in more cases. -/
theorem run_extends {token : Nat → String} {answer answer' : Call → Compile String}
    (hanswer : ∀ c, Compile.Extends (answer c) (answer' c)) (x : Rendering α) :
    Compile.Extends (x.run token answer) (x.run token answer') := by
  induction x with
  | done a => exact .refl _
  | refuse fault => exact .refl _
  | bind v next ih => exact (Compile.Extends.refl _).bind ih
  | call c next ih => exact (hanswer c).bind ih
  | count next ih => exact (Compile.Extends.refl _).bind fun values => ih values.size

end Rendering

open Rendering (Compile)

namespace Dialect

variable {d : Dialect}

/-- A larger bound only adds answers. -/
theorem answer_extends (d : Dialect) {depth depth' : Nat} (h : depth ≤ depth') (call : Call) :
    Compile.Extends (d.answer depth call) (d.answer depth' call) := by
  induction depth generalizing depth' call with
  | zero => exact fun _ hne => absurd rfl hne
  | succ depth ih =>
    obtain ⟨depth', rfl⟩ : ∃ k, depth' = k + 1 := Nat.exists_eq_add_one.2 (by omega)
    rw [answer, answer]
    cases d.registry.find? call.operator with
    | none => exact .refl _
    | some handler => exact Rendering.run_extends (fun c => ih (by omega) c) _

/-! ## Calls that are made for others -/

/-- The call `inner` can be made for the answer to `call`. -/
def Nests (d : Dialect) (call inner : Call) : Prop :=
  ∃ handler, d.registry.find? call.operator = some handler ∧
    (handler.render (d.context call.combinator) call).Asks inner

theorem Nests.reach_lt (hd : d ∈ library) {call inner : Call} (h : d.Nests call inner) :
    inner.operand.reach < call.operand.reach := by
  obtain ⟨handler, hfind, hasks⟩ := h
  exact (descends_of_mem hd hfind _ call).of_asks hasks

/-- A chain of nested calls is no longer than its first operand reaches. -/
theorem length_le_reach (hd : d ∈ library) {call : Call} {calls : List Call}
    (h : (call :: calls).IsChain d.Nests) : (call :: calls).length ≤ call.operand.reach := by
  induction calls generalizing call with
  | nil => exact call.operand.reach_pos
  | cons inner calls ih =>
    rw [List.isChain_cons_cons] at h
    have hlt := h.1.reach_lt hd
    have hle := ih h.2
    rw [List.length_cons]
    omega

/-- **Calls nest no deeper than the query is large.** -/
theorem length_le_of_nests (hd : d ∈ library) {query : Value} {calls : List Call}
    (hroot : ∀ call ∈ calls.head?, (rootStatement (d.context none) query).Asks call)
    (h : calls.IsChain d.Nests) : calls.length ≤ query.size := by
  cases calls with
  | nil => exact Nat.zero_le _
  | cons call calls =>
    have hsize : call.operand.size < query.size :=
      (rootStatement_orderly query).of_asks (hroot call rfl)
    have hlength := length_le_reach hd h
    have hreach := call.operand.reach_le
    omega

/-! ## Compiling within a bound -/

/-- Compile a query with calls that nest at most `depth` deep. -/
def compileWithin (d : Dialect) (depth : Nat) (query : Value) : Except Fault Statement :=
  let outcome :=
    ((rootStatement (d.context none) query).run d.placeholder (d.answer depth)).run.run #[]
  outcome.1.map fun sql => ⟨sql, outcome.2.toList, d.name⟩

theorem compile_eq_compileWithin (d : Dialect) (query : Value) :
    d.compile query = d.compileWithin (d.callBound query) query := by
  unfold compile compileWithin runFor
  split
  · rename_i hrun
    rw [hrun]
    rfl
  · rename_i hrun
    rw [hrun]
    rfl

/-- Only a run that gives up makes the compilation give up. -/
theorem compileWithin_eq_tooDeep_iff {depth : Nat} {query : Value} :
    d.compileWithin depth query = .error .tooDeep ↔
      (((rootStatement (d.context none) query).run d.placeholder (d.answer depth)).run.run #[]).1 =
        .error .tooDeep := by
  unfold compileWithin
  rcases ((rootStatement (d.context none) query).run d.placeholder (d.answer depth)).run.run #[]
    with ⟨fault | sql, values⟩
  · simp [Except.map]
  · simp [Except.map]

/-- What comes of a part of a query with calls that nest at most `depth` deep. -/
def outcomeWithin (d : Dialect) (depth : Nat) (part : Part) (combinator : Option Combinator)
    (binder : Array Value) : Except Fault String × Array Value :=
  ((part.program (d.context combinator)).run d.placeholder (d.answer depth)).run.run binder

/-- A run with enough room for the calls of its program is the one without a bound, and it does not
give up. -/
theorem run_answer (hd : d ∈ library) {α : Type} {depth : Nat} {program : Rendering α}
    (h : program.Orderly fun call => call.operand.reach ≤ depth) :
    program.run d.placeholder (d.answer depth) = program.run d.placeholder d.respond ∧
      ∀ binder, ((program.run d.placeholder (d.answer depth)).run.run binder).1 ≠
        .error .tooDeep := by
  have hrun : program.run d.placeholder (d.answer depth) = program.run d.placeholder d.respond :=
    h.run_congr fun c hc => answer_eq_respond hd hc
  refine ⟨hrun, fun binder hdeep => ?_⟩
  rw [hrun] at hdeep
  have hclass := h.run_classified (fun c _ => respond_classified hd c) binder _ .tooDeep
    (Prod.ext hdeep rfl)
  cases hclass

theorem rootStatement_reach {ctx : Context} {query : Value} {depth : Nat}
    (h : query.size ≤ depth) :
    (rootStatement ctx query).Orderly fun call => call.operand.reach ≤ depth := by
  refine (rootStatement_orderly query).mono fun c hc => ?_
  have hsize : c.operand.size < query.size := hc
  have hreach := c.operand.reach_le
  omega

/-- The size of a query is room enough. -/
theorem compileWithin_eq (hd : d ∈ library) {query : Value} {depth : Nat}
    (h : query.size ≤ depth) :
    d.compileWithin depth query = d.compile query ∧
      d.compileWithin depth query ≠ .error .tooDeep := by
  have hbound : query.size ≤ d.callBound query := by
    rw [callBound]
    omega
  obtain ⟨hrun, hdeep⟩ := run_answer hd (rootStatement_reach h)
  obtain ⟨hcompile, -⟩ := run_answer hd (rootStatement_reach hbound)
  constructor
  · rw [compile_eq_compileWithin, compileWithin, compileWithin, hrun, hcompile]
  · exact mt compileWithin_eq_tooDeep_iff.1 (hdeep #[])

/-- A bound at which a query is not given up can be raised. -/
theorem compileWithin_mono (d : Dialect) {query : Value} {depth depth' : Nat}
    (h : depth ≤ depth') (hdeep : d.compileWithin depth query ≠ .error .tooDeep) :
    d.compileWithin depth' query = d.compileWithin depth query := by
  have hrun := Rendering.run_extends (fun c => d.answer_extends h c)
    (rootStatement (d.context none) query) #[] (mt compileWithin_eq_tooDeep_iff.2 hdeep)
  rw [compileWithin, hrun, compileWithin]

end Dialect

/-- The calls of a part are within its size. -/
theorem Part.program_reach (ctx : Context) (part : Part) :
    (part.program ctx).Orderly fun call => call.operand.reach ≤ part.source.size + 1 := by
  have hbelow : ∀ {v : Value} {x : Rendering String}, x.Orderly (Call.Below v.size) →
      x.Orderly fun call => call.operand.reach ≤ v.size + 1 := by
    intro v x hx
    refine hx.mono fun c hc => ?_
    have hsize : c.operand.size < v.size := hc
    have hreach := c.operand.reach_le
    omega
  cases part with
  | call operator v node column => exact .invoke v.reach_le
  | filter v parent => exact hbelow (Filter.condition_orderly v parent)
  | columns v => exact hbelow (projection_orderly v)
  | operand operator v => exact hbelow (valueExpression_orderly operator v)
  | names operator v => exact nameList_orderly operator v
  | template t body column =>
    refine ((Template.renderNodes_orderly t.name body column t.nodes).mono ?_).map _
    rintro c ⟨key, hc⟩
    have hvalue : (body.valueOf key).size ≤ (Value.object body).size := by
      rw [Fields.valueOf_eq]
      cases hget : body.get? key with
      | none => exact (Value.object body).size_pos
      | some v => exact Nat.le_of_lt (Value.size_lt_of_get? hget)
    have hoperand : c.operand.size ≤ (body.valueOf key).size := by
      rcases hc with hc | hc
      · rw [hc]
      · rcases Template.size_seriesItems hc with heq | ⟨-, hle⟩
        · rw [heq]
        · exact hle
    exact Nat.le_trans c.operand.reach_le (by simpa [source] using Nat.le_trans hoperand hvalue)

namespace Dialect

variable {d : Dialect}

/-- So is the size of a part of a query. -/
theorem outcomeWithin_eq (hd : d ∈ library) {part : Part} {depth : Nat}
    (h : part.source.size < depth) (combinator : Option Combinator) (binder : Array Value) :
    d.outcomeWithin depth part combinator binder = d.outcome part combinator binder ∧
      (d.outcomeWithin depth part combinator binder).1 ≠ .error .tooDeep := by
  have hbound : part.source.size < d.callBound part.source := by
    rw [callBound]
    omega
  have hreach : ∀ depth, part.source.size < depth →
      (part.program (d.context combinator)).Orderly fun call => call.operand.reach ≤ depth :=
    fun depth hlt => (part.program_reach _).mono fun c hc => Nat.le_trans hc hlt
  obtain ⟨hrun, hdeep⟩ := run_answer hd (hreach depth h)
  obtain ⟨houtcome, -⟩ := run_answer hd (hreach _ hbound)
  refine ⟨?_, hdeep binder⟩
  rw [outcomeWithin, outcome, runFor, hrun, houtcome]

/-- **Compilation comes to an end.**  Every call that is made for another one is at an operand of
smaller reach, so that a chain of nested calls is no longer than the query is large.  With its size,
or any larger number, as the bound of nested calls, a query is never given up and has the same
statement or fault; whatever the bound, raising it changes nothing for a query that is not given up.
The size of a part of a query bounds its calls in the same way. -/
theorem compile_terminates (hd : d ∈ library) :
    (∀ call inner, d.Nests call inner → inner.operand.reach < call.operand.reach) ∧
      (∀ query,
        (∀ calls : List Call, calls.IsChain d.Nests →
          (∀ call ∈ calls.head?, (rootStatement (d.context none) query).Asks call) →
            calls.length ≤ query.size) ∧
        (∀ depth, query.size ≤ depth →
          d.compileWithin depth query = d.compile query ∧
            d.compileWithin depth query ≠ .error .tooDeep) ∧
        ∀ depth depth', depth ≤ depth' → d.compileWithin depth query ≠ .error .tooDeep →
          d.compileWithin depth' query = d.compileWithin depth query) ∧
      ∀ (part : Part) combinator binder depth, part.source.size < depth →
        d.outcomeWithin depth part combinator binder = d.outcome part combinator binder ∧
          (d.outcomeWithin depth part combinator binder).1 ≠ .error .tooDeep := by
  refine ⟨fun call inner h => h.reach_lt hd, fun query => ⟨?_, ?_, ?_⟩, ?_⟩
  · exact fun calls hchain hroot => length_le_of_nests hd hroot hchain
  · exact fun depth h => compileWithin_eq hd h
  · exact fun depth depth' h hdeep => d.compileWithin_mono h hdeep
  · exact fun part combinator binder depth h => outcomeWithin_eq hd h combinator binder

/-- A deletion by a filter with a nested query, whose columns are supplied by the dialect. -/
def nestedDeletion : Value :=
  .object [("$delete", .object [("$table", .str "t"), ("$where", .object [("a",
    .object [("$in", .object [("$select", .object [("$from", .str "u")])])])])])]

/-- The statement of `nestedDeletion`. -/
def nestedDeletionStatement : Statement :=
  ⟨"DELETE FROM `t` WHERE `a` IN (SELECT * FROM `u`)", [], "mysql"⟩

set_option maxRecDepth 4000 in
theorem compile_nestedDeletion : mysql.compile nestedDeletion = .ok nestedDeletionStatement := by
  rw [mysql_eq]
  rfl

set_option maxRecDepth 4000 in
theorem compileWithin_four_nestedDeletion :
    mysql.compileWithin 4 nestedDeletion = .error .tooDeep := by
  rw [mysql_eq]
  rfl

/-- Five calls are nested here, so that a bound of four is too small; the size is large enough. -/
theorem compile_terminates_nestedDeletion :
    mysql ∈ library ∧ nestedDeletion.size = 15 ∧
      mysql.compileWithin 4 nestedDeletion = .error .tooDeep ∧
      ∀ depth, 15 ≤ depth →
        mysql.compileWithin depth nestedDeletion = .ok nestedDeletionStatement := by
  have hd : mysql ∈ library := by simp [library]
  have hsize : nestedDeletion.size = 15 := rfl
  refine ⟨hd, hsize, compileWithin_four_nestedDeletion, fun depth h => ?_⟩
  obtain ⟨-, hqueries, -⟩ := compile_terminates hd
  rw [((hqueries nestedDeletion).2.1 depth (by omega)).1, compile_nestedDeletion]

end Dialect

end QueryTree
