import QueryTree.Expression.Columns
import QueryTree.Proofs.Equations
import QueryTree.Proofs.Leaves
import QueryTree.Proofs.Outcome
import QueryTree.Proofs.Phrases

/-!
# Expressions render clauses

Names, operands, lists of names, columns and filters render clauses, given that the calls they make
are answered with clauses.  The values that they bind are leaves of what they render.

* `Sql.Answered` is what is asked of the answer to a call, and `Sql.Setting` of the context that a
  program is rendered in.
* `Sql.Ensures` : whatever a program yields has a property; `Ensures.map` and `Ensures.map₂` carry
  properties through a program step by step.  `Sql.Renders` and `Sql.RendersAll` are the two uses of
  it, for a clause and for a list of clauses.
* `Clause.segments` : quoted names are clauses.
* **`valueExpression_renders`**, **`nameList_renders`**, **`projection_renders`**,
  **`condition_renders`** : the four kinds of expression.
-/

namespace QueryTree

namespace Sql

open Rendering (Yields)

/-! ## Programs that render clauses -/

/-- What is asked of the answer to a call: a clause that binds leaves of the operand.  The sizes of
a type come in parentheses, and a single name binds nothing. -/
structure Answered (S : Scheme) (call : Call) (n : Nat) (text : String) (values : List Value) :
    Prop where
  clause : Clause S call.operand.leaves n text values
  sizes : call.operator = "$length" → text.toList.head? = some '('
  names : call.operator = "$columns" → ∀ name, call.operand = .str name → values = []

/-- A context of a scheme, with answers to the calls that are made there. -/
structure Setting (S : Scheme) (ctx : Context) (replies : ReplyRel) : Prop where
  mark : ctx.quoting.mark = S.mark
  maxLimit : IsKeyword ctx.maxLimit
  answered : ∀ call n t vs, replies call n t vs → Answered S call n t vs

/-- Whatever the program yields after `n` bound values has the property `Q`. -/
def Ensures {α : Type} (S : Scheme) (replies : ReplyRel) (Q : Nat → α → List Value → Prop)
    (x : Rendering α) : Prop :=
  ∀ n a vs, x.Yields S.text replies n a vs → Q n a vs

/-- Whatever the program yields is a clause. -/
abbrev Renders (S : Scheme) (replies : ReplyRel) (admissible : List Value) :
    Rendering String → Prop :=
  Ensures S replies (Clause S admissible)

/-- Whatever the program yields are clauses in a row. -/
abbrev RendersAll (S : Scheme) (replies : ReplyRel) (admissible : List Value) :
    Rendering (List String) → Prop :=
  Ensures S replies (Clauses S admissible)

section Programs

variable {S : Scheme} {replies : ReplyRel} {F F' : List Value} {α β γ : Type}

namespace Ensures

variable {Q : Nat → α → List Value → Prop} {Q' : Nat → β → List Value → Prop}
  {R : Nat → γ → List Value → Prop}

/-- A program that refuses ensures anything. -/
theorem refuse (fault : Fault) : Ensures S replies Q (.refuse fault) := by
  intro n a vs h
  exact (Rendering.yields_refuse.1 h).elim

/-- A result that is there at once binds no values. -/
theorem pure {a : α} (ha : ∀ n, Q n a []) : Ensures S replies Q (pure a) := by
  intro n a vs h
  obtain ⟨rfl, rfl⟩ := Rendering.yields_pure.1 h
  exact ha n

/-- A program that refuses in the end ensures anything, too. -/
theorem andRefuse {x : Rendering α} {fault : α → Fault} :
    Ensures S replies R (x >>= fun a => .refuse (fault a)) := by
  intro n c vs h
  obtain ⟨a, us, ws, -, hrefuse, -⟩ := Rendering.yields_bind.1 h
  exact (Rendering.yields_refuse.1 hrefuse).elim

/-- What is made of a result is ensured if it follows from the result. -/
theorem map {x : Rendering α} {f : α → γ} (hx : Ensures S replies Q x)
    (hf : ∀ {n a vs}, Q n a vs → R n (f a) vs) :
    Ensures S replies R (do let a ← x; return f a) := by
  intro n c vs h
  obtain ⟨a, us, _, ha, hpure, rfl⟩ := Rendering.yields_bind.1 h
  obtain ⟨rfl, rfl⟩ := Rendering.yields_pure.1 hpure
  rw [List.append_nil]
  exact hf (hx n a us ha)

/-- Two programs whose results are put together in order. -/
theorem map₂ {x : Rendering α} {y : Rendering β} {f : α → β → γ} (hx : Ensures S replies Q x)
    (hy : Ensures S replies Q' y)
    (hf : ∀ {n a us b ws}, Q n a us → Q' (n + us.length) b ws → R n (f a b) (us ++ ws)) :
    Ensures S replies R (do let a ← x; let b ← y; return f a b) := by
  intro n c vs h
  obtain ⟨a, us, _, ha, hrest, rfl⟩ := Rendering.yields_bind.1 h
  obtain ⟨b, ws, _, hb, hpure, rfl⟩ := Rendering.yields_bind.1 hrest
  obtain ⟨rfl, rfl⟩ := Rendering.yields_pure.1 hpure
  rw [List.append_nil]
  exact hf (hx n a us ha) (hy _ b ws hb)

/-- Three programs whose results are put together in order. -/
theorem map₃ {δ : Type} {R' : Nat → δ → List Value → Prop} {x : Rendering α} {y : Rendering β}
    {z : Rendering γ} {f : α → β → γ → δ} (hx : Ensures S replies Q x)
    (hy : Ensures S replies Q' y) (hz : Ensures S replies R z)
    (hf : ∀ {n a us b ws c vs}, Q n a us → Q' (n + us.length) b ws →
      R (n + us.length + ws.length) c vs → R' n (f a b c) (us ++ (ws ++ vs))) :
    Ensures S replies R' (do let a ← x; let b ← y; let c ← z; return f a b c) := by
  intro n d vs h
  obtain ⟨a, us, _, ha, hrest, rfl⟩ := Rendering.yields_bind.1 h
  obtain ⟨b, ws, _, hb, hlast, rfl⟩ := Rendering.yields_bind.1 hrest
  obtain ⟨c, vs, _, hc, hpure, rfl⟩ := Rendering.yields_bind.1 hlast
  obtain ⟨rfl, rfl⟩ := Rendering.yields_pure.1 hpure
  rw [List.append_nil]
  exact hf (hx n a us ha) (hy _ b ws hb) (hz _ c vs hc)

end Ensures

/-- More values may be allowed to be bound. -/
theorem Renders.mono (hF : F ⊆ F') {x : Rendering String} (hx : Renders S replies F x) :
    Renders S replies F' x :=
  fun n t vs h => (hx n t vs h).mono hF

theorem RendersAll.mono (hF : F ⊆ F') {x : Rendering (List String)}
    (hx : RendersAll S replies F x) : RendersAll S replies F' x :=
  fun n ts vs h => (hx n ts vs h).mono hF

theorem Renders.keyword {text : String} (htext : IsKeyword text) :
    Renders S replies F (pure text) :=
  .pure fun _ => .keyword htext

/-- A value that is bound is written as its placeholder. -/
theorem Renders.bound {v : Value} (hv : v ∈ F) : Renders S replies F (.bound v) := by
  intro n t vs h
  obtain ⟨rfl, rfl⟩ := Rendering.yields_bound.1 h
  exact .slot hv

/-- A program for every item. -/
theorem RendersAll.each {f : α → Rendering String} {items : List α}
    (hf : ∀ a ∈ items, Renders S replies F (f a)) :
    RendersAll S replies F (Rendering.each f items) := by
  induction items with
  | nil => exact .pure fun _ => .nil
  | cons a rest ih =>
    exact (hf a List.mem_cons_self).map₂ (ih fun b hb => hf b (List.mem_cons_of_mem _ hb))
      fun first others => .cons first others

/-- A program for every item that renders several texts. -/
theorem RendersAll.each_flatten {f : α → Rendering (List String)} {items : List α}
    (hf : ∀ a ∈ items, RendersAll S replies F (f a)) :
    Ensures S replies (fun n tss vs => Clauses S F n tss.flatten vs) (Rendering.each f items) := by
  induction items with
  | nil => exact .pure fun _ => .nil
  | cons a rest ih =>
    exact (hf a List.mem_cons_self).map₂ (ih fun b hb => hf b (List.mem_cons_of_mem _ hb))
      fun first others => first.append others

/-- Clauses with commas between them are a clause. -/
theorem Clauses.commaList {n : Nat} {ts : List String} {vs : List Value}
    (h : Clauses S F n ts vs) : Clause S F n (commaList ts) vs :=
  h.join (by decide)

end Programs

/-! ## Names -/

/-- The token of one segment of a name. -/
def segmentToken (cs : List Char) : Token :=
  if cs = ['*'] then .symbol '*' else .quoted cs

/-- The tokens of a name. -/
def nameTokens : List (List Char) → List Token
  | [] => []
  | [cs] => [segmentToken cs]
  | cs :: rest => segmentToken cs :: .symbol '.' :: nameTokens rest

/-- A segment of a name is a star, or it is quoted. -/
theorem segmentToken_cases (cs : List Char) :
    segmentToken cs = .symbol '*' ∨ segmentToken cs = .quoted cs := by
  unfold segmentToken
  split
  · exact .inl rfl
  · exact .inr rfl

/-- Both are written as the dialect quotes the segment. -/
theorem write_segmentToken (style : QuoteStyle) (cs : List Char) :
    (segmentToken cs).write style.mark = style.segmentChars cs := by
  unfold segmentToken QuoteStyle.segmentChars
  split
  · rename_i hstar
    rw [hstar]
    rfl
  · rfl

/-- The tokens of a name are written as the name. -/
theorem write_nameTokens (style : QuoteStyle) (parts : List (List Char)) :
    write style.mark (nameTokens parts) = style.joinSegments parts := by
  induction parts with
  | nil => rfl
  | cons cs rest ih =>
    cases rest with
    | nil => simp [nameTokens, write, QuoteStyle.joinSegments, write_segmentToken, List.intercalate]
    | cons cs' rest =>
      have hjoin : style.joinSegments (cs :: cs' :: rest) =
          style.segmentChars cs ++ '.' :: style.joinSegments (cs' :: rest) := by
        simp [QuoteStyle.joinSegments, List.intercalate]
      have hwrite : write style.mark (nameTokens (cs :: cs' :: rest)) =
          (segmentToken cs).write style.mark ++
            '.' :: write style.mark (nameTokens (cs' :: rest)) := by
        simp [nameTokens, write, Token.write]
      rw [hjoin, hwrite, write_segmentToken, ih]

/-- They are a phrase without placeholders. -/
theorem nameTokens_phrase (S : Scheme) (n : Nat) (parts : List (List Char)) :
    Phrase S n (nameTokens parts) 0 := by
  induction parts with
  | nil => exact .plain ⟨by simp [nameTokens], .nil⟩ rfl rfl
  | cons cs rest ih =>
    have hfirst : Phrase S n [segmentToken cs] 0 := by
      rcases segmentToken_cases cs with h | h
      · rw [h]
        exact .single (by decide) rfl rfl
      · rw [h]
        exact .single rfl rfl rfl
    cases rest with
    | nil => exact hfirst
    | cons cs' rest =>
      have hdot : Phrase S n [.symbol '.'] 0 := .single (by decide) rfl rfl
      refine hfirst.append (hdot.append ih fun t ht _ _ => ?_) fun t ht u hu => ?_
      · cases ht
        rfl
      · cases ht
        cases hu
        rcases segmentToken_cases cs with h | h <;> rw [h] <;> rfl

/-- A segment that stands alone. -/
theorem segment_eq (style : QuoteStyle) (text : String) :
    style.segment text = String.ofList (style.joinSegments [text.toList]) := by
  simp [QuoteStyle.segment, QuoteStyle.joinSegments, List.intercalate]

/-- Segments of a name, quoted and with dots between them. -/
theorem Spelling.segments {S : Scheme} {style : QuoteStyle} (hmark : style.mark = S.mark) (n : Nat)
    (parts : List (List Char)) :
    Spelling S n (String.ofList (style.joinSegments parts)) (nameTokens parts) 0 := by
  refine ⟨?_, nameTokens_phrase S n parts⟩
  rw [String.toList_ofList, ← hmark, write_nameTokens]

theorem Clause.segments {S : Scheme} {style : QuoteStyle} (hmark : style.mark = S.mark)
    {F : List Value} {n : Nat} (parts : List (List Char)) :
    Clause S F n (String.ofList (style.joinSegments parts)) [] :=
  ⟨⟨_, .segments hmark n parts⟩, List.nil_subset F⟩

section Expressions

variable {S : Scheme} {ctx : Context} {replies : ReplyRel} {F : List Value}

/-- A name that can be quoted is a clause, whatever stands before it. -/
theorem Setting.clause_name (h : Setting S ctx replies) {text t : String}
    (hname : ctx.quoting.name text = .ok t) {n : Nat} : Clause S F n t [] := by
  unfold QuoteStyle.name at hname
  split at hname
  · cases hname
  · dsimp only at hname
    split at hname
    · cases hname
    · cases hname
      exact .segments h.mark _

/-- Names are clauses that bind nothing. -/
theorem Setting.name (h : Setting S ctx replies) (text : String) :
    Renders S replies F (ctx.name text) := by
  intro n t vs hyields
  obtain ⟨hname, rfl⟩ := Rendering.yields_ofExcept.1 hyields
  cases hquoted : ctx.quoting.name text with
  | error fault =>
    rw [hquoted] at hname
    cases hname
  | ok quoted =>
    rw [hquoted] at hname
    cases hname
    exact h.clause_name hquoted

theorem Setting.identifier (h : Setting S ctx replies) (v : Value) :
    Renders S replies F (ctx.identifier v) := by
  cases v with
  | str text => exact h.name text
  | null | bool flag | int number | float number | list items | object fields => exact .refuse _

/-- The answer to a call is a clause with leaves of its operand. -/
theorem Setting.call (h : Setting S ctx replies) (call : Call) :
    Renders S replies call.operand.leaves (.invoke call) := by
  intro n t vs hyields
  exact (h.answered call n t vs (Rendering.yields_invoke.1 hyields)).clause

theorem Setting.invoke (h : Setting S ctx replies) (operator : String) (operand : Value)
    (node : Fields) (column : Option String) :
    Renders S replies operand.leaves (ctx.invoke operator operand node column) :=
  h.call ⟨operator, operand, node, column, ctx.combinator⟩

/-! ## Operands and lists of names -/

/-- An operand is a placeholder for itself, or the answer of the operator that it holds. -/
theorem valueExpression_renders (h : Setting S ctx replies) (operator : Option String)
    (v : Value) : Renders S replies v.leaves (valueExpression ctx operator v) := by
  cases v with
  | object fields =>
    rcases fields with _ | ⟨⟨key, operand⟩, _ | ⟨second, rest⟩⟩
    · exact .refuse _
    · rw [valueExpression]
      split
      · have hleaves := Value.leaves_subset_of_mem_fields (List.mem_singleton_self (key, operand))
        refine ((h.invoke key operand _ none).mono hleaves).map fun ht => ?_
        split
        · exact .enclose (by decide) ht
        · exact ht
      · exact .refuse _
    · exact .refuse _
  | list items => exact .refuse _
  | null | bool flag | int number | float number | str text =>
    exact .bound (Value.mem_leaves_self rfl)

theorem aliasedName_renders (h : Setting S ctx replies) (operator : Option String) (name : String)
    (spec : Value) : Renders S replies F (aliasedName ctx operator name spec) := by
  unfold aliasedName
  split
  · exact h.name name
  · split
    · exact (h.name name).map₂ (h.identifier _) fun ha hb => .sep (by decide) ha hb
    · exact .refuse _

/-- Names at any depth of nested lists have commas between them. -/
theorem nameList_renders (h : Setting S ctx replies) (operator : Option String) (v : Value) :
    Renders S replies F (nameList ctx operator v) := by
  induction v using Value.induct with
  | scalar v hv =>
    cases v with
    | str text =>
      rw [nameList]
      exact h.name text
    | null | bool flag | int number | float number => exact .refuse _
    | list items | object fields => cases hv
  | list items ih =>
    rw [nameList, nameItems_eq_each]
    split
    · exact .refuse _
    · exact (RendersAll.each ih).map fun ht => ht.commaList
  | object fields _ =>
    rw [nameList]
    exact (RendersAll.each fun entry _ => aliasedName_renders h operator entry.1 entry.2).map
      fun ht => ht.commaList

/-! ## Columns of a result -/

/-- A column that is switched off is no clause at all. -/
theorem columnEntry_renders (h : Setting S ctx replies) (name : String) (spec : Value) :
    Ensures S replies (fun n column vs => Clauses S spec.leaves n (Option.toList column) vs)
      (columnEntry ctx name spec) := by
  -- every column but a switch has the form `source AS target`
  have renamed : ∀ {source target : Rendering String}, Renders S replies spec.leaves source →
      Renders S replies spec.leaves target →
      Ensures S replies (fun n column vs => Clauses S spec.leaves n (Option.toList column) vs)
        (do let a ← source; let b ← target; return some (a ++ " AS " ++ b)) :=
    fun hsource htarget => hsource.map₂ htarget fun ha hb => .singleton (.sep (by decide) ha hb)
  unfold columnEntry
  split
  · rw [map_eq_pure_bind]
    exact (h.name name).map fun ht => .singleton ht
  · split
    · exact .pure fun _ => .nil
    · cases spec with
      | list items => exact .refuse _
      | object fields =>
        dsimp only
        split
        · split
          · exact renamed (h.name name) (h.identifier _)
          · exact renamed ((valueExpression_renders h _ _).mono
              (Value.leaves_subset_of_subset (List.filter_subset_self _))) (h.identifier _)
        · exact renamed (valueExpression_renders h _ _) (h.name name)
      | null | bool flag | int number | float number | str text =>
        exact renamed (.bound (Value.mem_leaves_self rfl)) (h.name name)

theorem columnEntries_renders (h : Setting S ctx replies) (fields : Fields) :
    RendersAll S replies (Value.object fields).leaves (columnEntries ctx fields) := by
  induction fields with
  | nil => exact .pure fun _ => .nil
  | cons entry rest ih =>
    obtain ⟨name, spec⟩ := entry
    have hfirst : spec.leaves ⊆ (Value.object ((name, spec) :: rest)).leaves :=
      Value.leaves_subset_of_get? (Fields.get?_cons name name spec rest ▸ if_pos rfl)
    have hrest : (Value.object rest).leaves ⊆ (Value.object ((name, spec) :: rest)).leaves :=
      Value.leaves_subset_of_subset (List.subset_cons_self _ _)
    rw [columnEntries]
    split
    · exact .refuse _
    · exact (columnEntry_renders h name spec).map₂ ih
        fun column columns => (column.mono hfirst).append (columns.mono hrest)

/-- An item of a list of columns may give several of them. -/
theorem columnItem_renders (h : Setting S ctx replies) (v : Value) :
    RendersAll S replies v.leaves (columnItem ctx v) := by
  cases v with
  | str text => exact (h.name text).map fun ht => .singleton ht
  | object fields => exact columnEntries_renders h fields
  | null | bool flag | int number | float number | list items => exact .refuse _

/-- All columns of a list. -/
theorem Ensures.columnsOf {α : Type} {x : Rendering α} {f : α → List String}
    (hx : Ensures S replies (fun n a vs => Clauses S F n (f a) vs) x) :
    Renders S replies F (do let a ← x; columnsOf (f a)) := by
  intro n t vs hyields
  obtain ⟨a, us, _, ha, hcolumns, rfl⟩ := Rendering.yields_bind.1 hyields
  unfold QueryTree.columnsOf at hcolumns
  split at hcolumns
  · exact (Rendering.yields_refuse.1 hcolumns).elim
  · obtain ⟨rfl, rfl⟩ := Rendering.yields_pure.1 hcolumns
    rw [List.append_nil]
    exact (hx n a us ha).commaList

/-- **The columns of a result are a clause.** -/
theorem projection_renders (h : Setting S ctx replies) (v : Value) :
    Renders S replies v.leaves (projection ctx v) := by
  cases v with
  | str text => exact h.name text
  | list items =>
    exact (RendersAll.each_flatten fun v hv =>
      (columnItem_renders h v).mono (Value.leaves_subset_of_mem_items hv)).columnsOf
  | object fields => exact Ensures.columnsOf (columnEntries_renders h fields)
  | null | bool flag | int number | float number => exact .refuse _

/-! ## Filters -/

/-- The parts of a combination, joined. -/
theorem RendersAll.group {x : Rendering (List String)} (hx : RendersAll S replies F x)
    (kind : Combinator) (parent : Option Combinator) :
    Renders S replies F (do let parts ← x; Filter.group kind parts parent) := by
  intro n t vs hyields
  obtain ⟨parts, us, _, hparts, hgroup, rfl⟩ := Rendering.yields_bind.1 hyields
  have hclauses := hx n parts us hparts
  unfold Filter.group at hgroup
  split at hgroup
  · exact (Rendering.yields_refuse.1 hgroup).elim
  · rename_i joiner hjoiner
    have hsep : Separates joiner := by
      cases kind with
      | and => cases hjoiner; decide
      | or => cases hjoiner; decide
      | other key => cases hjoiner
    dsimp only at hgroup
    split at hgroup
    · obtain ⟨rfl, rfl⟩ := Rendering.yields_pure.1 hgroup
      rw [List.append_nil]
      exact .enclose (by decide) (hclauses.join hsep)
    · obtain ⟨rfl, rfl⟩ := Rendering.yields_pure.1 hgroup
      rw [List.append_nil]
      exact hclauses.join hsep

/-- A condition on a column binds leaves of what is demanded of it. -/
theorem columnPredicate_renders (h : Setting S ctx replies) (column : String) (spec : Value)
    (parent : Option Combinator) :
    Renders S replies spec.leaves (Filter.columnPredicate ctx column spec parent) := by
  cases spec with
  | null => exact (h.name column).map fun ht => ht.trail (by decide)
  | list items => exact h.invoke "$in" (.list items) _ (some column)
  | object fields =>
    rw [Filter.columnPredicate]
    split
    · exact .refuse _
    · refine (RendersAll.each fun entry hentry => ?_).group .and parent
      unfold Filter.columnTest
      split
      · exact (h.invoke entry.1 entry.2 fields (some column)).mono
          (Value.leaves_subset_of_mem_fields hentry)
      · exact .refuse _
  | bool flag => exact h.invoke "$eq" (.bool flag) _ (some column)
  | int number => exact h.invoke "$eq" (.int number) _ (some column)
  | float number => exact h.invoke "$eq" (.float number) _ (some column)
  | str text => exact h.invoke "$eq" (.str text) _ (some column)

/-- A filter, and the same value as the operand of a connective. -/
theorem condition_and_combine_render (h : Setting S ctx replies) (v : Value) :
    (∀ parent, Renders S replies v.leaves (Filter.condition ctx v parent)) ∧
      ∀ kind parent, Renders S replies v.leaves (Filter.combine ctx kind v parent) := by
  induction v using Value.induct with
  | scalar v hv =>
    cases v with
    | null | bool flag | int number | float number | str text =>
      exact ⟨fun _ => .refuse _, fun _ _ => .refuse _⟩
    | list items | object fields => cases hv
  | list items ih =>
    refine ⟨fun _ => .refuse _, fun kind parent => ?_⟩
    rw [Filter.combine_list]
    split
    · exact .refuse _
    · refine (RendersAll.each fun v hv => ?_).group kind parent
      exact ((ih v hv).1 (some kind)).mono (Value.leaves_subset_of_mem_items hv)
  | object fields ih =>
    refine ⟨fun parent => ?_, fun _ _ => .refuse _⟩
    rw [Filter.condition_object]
    split
    · exact .refuse _
    · refine (RendersAll.each fun entry hentry => ?_).group .and parent
      refine Renders.mono (Value.leaves_subset_of_mem_fields hentry) ?_
      cases hkey : Combinator.ofKey entry.1 with
      | and | or =>
        rw [Filter.conditionEntry_eq_combine _ _ _ _ (by simp [hkey])]
        exact (ih entry hentry).2 _ _
      | other label =>
        rw [Filter.conditionEntry_of_other hkey]
        split
        · split
          · exact h.call ⟨entry.1, entry.2, fields, none, _⟩
          · exact .refuse _
        · exact columnPredicate_renders h entry.1 entry.2 _

/-- **A filter is a clause** with leaves of the filter, at any depth. -/
theorem condition_renders (h : Setting S ctx replies) (v : Value) (parent : Option Combinator) :
    Renders S replies v.leaves (Filter.condition ctx v parent) :=
  (condition_and_combine_render h v).1 parent

end Expressions

end Sql

end QueryTree
