import QueryTree.Proofs.Bodies
import QueryTree.Proofs.NameReading

/-!
# Documents as a table

The rows of an insertion are given by documents.  The first document names the columns; the others
have to have the same keys, in any order.  Written row by row, the values stand in the order of
these columns, and so do their placeholders.

* `Lists` : a value that gives documents, one of them by itself or several in a list.
* `Placeholder.row` is a row of placeholders.
* **`documentTable_yields_iff`** : when documents of scalars are rendered, and what they render.
* **`Dialect.documents_row_major`** : the text of a table of documents, its values in the order of
  rows and columns, and that the order of keys in a later document does not matter.
-/

namespace QueryTree

open Rendering (each)

/-! ## Rows of placeholders -/

/-- The `m` placeholders that follow the first `n`. -/
def Placeholder.next (placeholder : Placeholder) (n m : Nat) : List String :=
  (List.range m).map fun j => placeholder (n + j + 1)

/-- A row of the `m` placeholders that follow the first `n`. -/
def Placeholder.row (placeholder : Placeholder) (n m : Nat) : String :=
  "(" ++ commaList (placeholder.next n m) ++ ")"

/-- Rows of `m` placeholders each, one after another. -/
def Placeholder.rows (placeholder : Placeholder) (n m count : Nat) : List String :=
  (List.range count).map fun i => placeholder.row (n + i * m) m

namespace Placeholder

variable {placeholder : Placeholder}

theorem next_succ (n m : Nat) :
    placeholder.next n (m + 1) = placeholder (n + 1) :: placeholder.next (n + 1) m := by
  simp only [next, List.range_succ_eq_map, List.map_cons, List.map_map]
  refine congrArg₂ List.cons rfl (List.map_congr_left fun j _ => ?_)
  exact congrArg placeholder (by simp only [Nat.succ_eq_add_one]; omega)

/-- A row takes the placeholders after those of the rows before it. -/
theorem rows_succ (n m count : Nat) :
    placeholder.rows n m (count + 1) =
      placeholder.row n m :: placeholder.rows (n + m) m count := by
  simp only [rows, List.range_succ_eq_map, List.map_cons, List.map_map]
  refine congrArg₂ List.cons (by simp) (List.map_congr_left fun i _ => ?_)
  have hstart : n + (i + 1) * m = n + m + i * m := by
    rw [Nat.add_mul]
    omega
  exact congrArg (fun start => placeholder.row start m) hstart

end Placeholder

/-! ## Rendering scalars -/

namespace Operator

variable {token : Placeholder} {replies : ReplyRel} {ctx : Context} {n : Nat} {vs : List Value}

/-- A scalar is bound as it is. -/
theorem valueExpression_of_isScalar {v : Value} (h : v.isScalar = true)
    (operator : Option String) : valueExpression ctx operator v = .bound v := by
  cases v with
  | list items | object fields => cases h
  | null | bool flag | int number | float number | str text => rfl

/-- Scalars are bound one after another. -/
theorem each_valueExpression_yields_iff {α : Type} {items : List α} {f : α → Value}
    (hf : ∀ a ∈ items, (f a).isScalar = true) (operator : Option String) {ts : List String} :
    (each (fun a => valueExpression ctx operator (f a)) items).Yields token replies n ts vs ↔
      ts = token.next n items.length ∧ vs = items.map f := by
  induction items generalizing n ts vs with
  | nil => simp [each, Placeholder.next]
  | cons a rest ih =>
    obtain ⟨ha, hrest⟩ := List.forall_mem_cons.1 hf
    simp only [each, Rendering.yields_bind, Rendering.yields_pure, ih hrest,
      valueExpression_of_isScalar ha, Rendering.yields_bound, List.length_cons,
      Placeholder.next_succ, List.map_cons]
    constructor
    · rintro ⟨_, _, _, ⟨rfl, rfl⟩, ⟨_, _, _, ⟨rfl, rfl⟩, ⟨rfl, rfl⟩, rfl⟩, rfl⟩
      exact ⟨rfl, by simp⟩
    · rintro ⟨rfl, rfl⟩
      exact ⟨_, _, _, ⟨rfl, rfl⟩, ⟨_, _, [], ⟨rfl, rfl⟩, ⟨rfl, rfl⟩, rfl⟩, by simp⟩

/-- A name is quoted, and binds nothing. -/
theorem name_yields_iff {name t : String} :
    (ctx.name name).Yields token replies n t vs ↔ ctx.quoting.name name = .ok t ∧ vs = [] := by
  rw [Context.name, Rendering.yields_ofExcept]
  cases ctx.quoting.name name <;> simp [Except.mapError]

theorem each_name_yields_iff {columns names : List String} :
    (each ctx.name columns).Yields token replies n names vs ↔
      List.Forall₂ (fun column name => ctx.quoting.name column = .ok name) columns names ∧
        vs = [] := by
  induction columns generalizing names vs with
  | nil => simp [each]
  | cons column rest ih =>
    simp only [each, Rendering.yields_bind, Rendering.yields_pure, name_yields_iff]
    constructor
    · rintro ⟨t, _, _, ⟨ht, rfl⟩, ⟨ts, _, _, hts, ⟨rfl, rfl⟩, rfl⟩, rfl⟩
      obtain ⟨hnames, rfl⟩ := ih.1 hts
      exact ⟨.cons ht hnames, rfl⟩
    · rintro ⟨_ | ⟨ht, hnames⟩, rfl⟩
      exact ⟨_, [], [], ⟨ht, rfl⟩, ⟨_, [], [], ih.2 ⟨hnames, rfl⟩, ⟨rfl, rfl⟩, rfl⟩, rfl⟩

/-! ## Rendering documents -/

/-- The values of an object of scalars are scalars, and so is `null`. -/
theorem isScalar_valueOf {document : Fields} (h : ∀ entry ∈ document, entry.2.isScalar = true)
    (key : String) : (document.valueOf key).isScalar = true := by
  rw [Fields.valueOf_eq]
  cases hget : document.get? key with
  | none => rfl
  | some v => exact h _ (Fields.mem_of_get? hget)

/-- A row of scalars: it has the columns, and binds their values in the order of the columns. -/
theorem documentRow_yields_iff {columns : List String} {document : Fields}
    (h : ∀ entry ∈ document, entry.2.isScalar = true) (index : Nat) {t : String} :
    (documentRow ctx columns index (.object document)).Yields token replies n t vs ↔
      (∀ key, key ∈ document.keys ↔ key ∈ columns) ∧
        t = token.row n columns.length ∧ vs = columns.map document.valueOf := by
  rw [← hasColumns_iff, documentRow_object]
  split
  · rename_i hcolumns
    simp only [Rendering.yields_bind, Rendering.yields_pure, hcolumns, true_and,
      each_valueExpression_yields_iff fun column _ => isScalar_valueOf h column]
    constructor
    · rintro ⟨_, _, _, ⟨rfl, rfl⟩, ⟨rfl, rfl⟩, rfl⟩
      exact ⟨rfl, by simp⟩
    · rintro ⟨rfl, rfl⟩
      exact ⟨_, _, [], ⟨rfl, rfl⟩, ⟨rfl, rfl⟩, by simp⟩
  · rename_i hcolumns
    simp [hcolumns]

/-- Rows of scalars: all have the columns, and they bind their values row by row. -/
theorem documentRows_yields_iff {columns : List String} {documents : List Fields}
    (h : ∀ document ∈ documents, ∀ entry ∈ document, entry.2.isScalar = true) (index : Nat)
    {ts : List String} :
    (documentRows ctx columns index (documents.map .object)).Yields token replies n ts vs ↔
      (∀ document ∈ documents, ∀ key, key ∈ document.keys ↔ key ∈ columns) ∧
        ts = token.rows n columns.length documents.length ∧
        vs = documents.flatMap fun document => columns.map document.valueOf := by
  induction documents generalizing n index ts vs with
  | nil => simp [documentRows, Placeholder.rows]
  | cons document rest ih =>
    obtain ⟨hdocument, hrest⟩ := List.forall_mem_cons.1 h
    simp only [List.map_cons, documentRows, Rendering.yields_bind, Rendering.yields_pure,
      documentRow_yields_iff hdocument, ih hrest, List.forall_mem_cons, List.length_cons,
      Placeholder.rows_succ, List.flatMap_cons]
    constructor
    · rintro ⟨_, _, _, ⟨hkeys, rfl, rfl⟩, ⟨_, _, _, ⟨hothers, rfl, rfl⟩, ⟨rfl, rfl⟩, rfl⟩, rfl⟩
      exact ⟨⟨hkeys, hothers⟩, by simp⟩
    · rintro ⟨⟨hkeys, hothers⟩, rfl, rfl⟩
      exact ⟨_, _, _, ⟨hkeys, rfl, rfl⟩, ⟨_, _, [], ⟨hothers, rfl, rfl⟩, ⟨by simp, rfl⟩, rfl⟩,
        by simp⟩

/-- **When documents of scalars are rendered, and what they render**: there is a column, every
document has the columns of the first one, and these are names. -/
theorem documentTable_yields_iff {first : Fields} {rest : List Fields}
    (h : ∀ document ∈ first :: rest, ∀ entry ∈ document, entry.2.isScalar = true) {t : String} :
    (documentTable ctx ((first :: rest).map .object)).Yields token replies n t vs ↔
      first ≠ [] ∧ (∀ document ∈ first :: rest, ∀ key, key ∈ document.keys ↔ key ∈ first.keys) ∧
        (∃ names,
          List.Forall₂ (fun key name => ctx.quoting.name key = .ok name) first.keys names ∧
            t = "(" ++ commaList names ++ ") VALUES " ++
              commaList (token.rows n first.keys.length (first :: rest).length)) ∧
        vs = (first :: rest).flatMap fun document => first.keys.map document.valueOf := by
  cases first with
  | nil => simp [documentTable]
  | cons entry others =>
    rw [List.map_cons, documentTable]
    simp only [← List.map_cons, Rendering.yields_bind, Rendering.yields_pure, each_name_yields_iff,
      documentRows_yields_iff h, ne_eq, reduceCtorEq, not_false_eq_true, true_and]
    constructor
    · rintro ⟨names, _, _, ⟨hnames, rfl⟩, ⟨_, _, _, ⟨hkeys, rfl, rfl⟩, ⟨rfl, rfl⟩, rfl⟩, rfl⟩
      exact ⟨hkeys, ⟨names, hnames, rfl⟩, by simp⟩
    · rintro ⟨hkeys, ⟨names, hnames, rfl⟩, rfl⟩
      exact ⟨names, [], _, ⟨hnames, rfl⟩, ⟨_, _, [], ⟨hkeys, rfl, rfl⟩, ⟨rfl, rfl⟩, rfl⟩, by simp⟩

/-! ## The order of keys -/

/-- A row does not depend on the order of the keys of its document. -/
theorem documentRow_perm {document document' : Fields} (h : document.Perm document')
    (hkeys : document.keys.Nodup) (ctx : Context) (columns : List String) (index : Nat) :
    documentRow ctx columns index (.object document) =
      documentRow ctx columns index (.object document') := by
  have hhas : hasColumns columns document = hasColumns columns document' := by
    have hmem : ∀ key, key ∈ document.keys ↔ key ∈ document'.keys := fun key =>
      (h.map Prod.fst).mem_iff
    rw [Bool.eq_iff_iff, hasColumns_iff, hasColumns_iff]
    exact forall_congr' fun key => by rw [hmem key]
  have hvalues : document.valueOf = document'.valueOf := funext fun key => by
    rw [Fields.valueOf_eq, Fields.valueOf_eq, Fields.get?_perm h hkeys]
  rw [documentRow_object, documentRow_object, hhas, hvalues]

/-- The keys of the documents after the first one can come in any order. -/
theorem documentTable_perm {first : Fields} {rest rest' : List Fields}
    (h : List.Forall₂ List.Perm rest rest') (hkeys : ∀ document ∈ rest, document.keys.Nodup)
    (ctx : Context) :
    documentTable ctx ((first :: rest).map .object) =
      documentTable ctx ((first :: rest').map .object) := by
  have hrows : ∀ columns index, documentRows ctx columns index (rest.map .object) =
      documentRows ctx columns index (rest'.map .object) := by
    intro columns index
    induction h generalizing index with
    | nil => rfl
    | cons hdocument _ ih =>
      obtain ⟨hfirst, hothers⟩ := List.forall_mem_cons.1 hkeys
      rw [List.map_cons, List.map_cons, documentRows, documentRows,
        documentRow_perm hdocument hfirst, ih hothers]
  cases first with
  | nil => rfl
  | cons entry others =>
    rw [List.map_cons, List.map_cons, documentTable, documentTable]
    simp only [documentRows, hrows]

end Operator

/-! ## Tables of documents -/

/-- A value that gives documents: one by itself, or a list of them. -/
inductive Lists : Value → List Fields → Prop where
  | one (document : Fields) : Lists (.object document) [document]
  | several (documents : List Fields) : Lists (.list (documents.map .object)) documents

/-- One document is rendered as a list of one. -/
theorem Lists.documents_render {operand : Value} {documents : List Fields}
    (h : Lists operand documents) (ctx : Context) {call : Call} (hcall : call.operand = operand) :
    Operator.documents.render ctx call =
      Operator.documentTable ctx (documents.map .object) := by
  cases h with
  | one document => simp only [Operator.documents, hcall, List.map_cons, List.map_nil]
  | several documents => simp only [Operator.documents, hcall]

/-- In a table that is written row by row, a value is found by its row and its column. -/
theorem getElem?_flatMap_columns {α β γ : Type} {columns : List α} {f : β → α → γ}
    {documents : List β} {i j : Nat} {document : β} {column : α}
    (hi : documents[i]? = some document) (hj : columns[j]? = some column) :
    (documents.flatMap fun document => columns.map (f document))[i * columns.length + j]? =
      some (f document column) := by
  obtain ⟨hlt, -⟩ := List.getElem?_eq_some_iff.1 hj
  induction documents generalizing i with
  | nil => cases hi
  | cons first rest ih =>
    rw [List.flatMap_cons]
    cases i with
    | zero =>
      cases hi
      rw [Nat.zero_mul, Nat.zero_add, List.getElem?_append_left (by simpa using hlt),
        List.getElem?_map, hj, Option.map_some]
    | succ i =>
      have hskip : (i + 1) * columns.length + j =
          (columns.map (f first)).length + (i * columns.length + j) := by
        rw [List.length_map, Nat.add_mul]
        omega
      rw [hskip, List.getElem?_append_right (Nat.le_add_right _ _), Nat.add_sub_cancel_left]
      exact ih (by simpa using hi)

theorem length_flatMap_columns {α β γ : Type} (columns : List α) (f : β → α → γ)
    (documents : List β) :
    (documents.flatMap fun document => columns.map (f document)).length =
      documents.length * columns.length := by
  induction documents with
  | nil => simp
  | cons first rest ih =>
    rw [List.flatMap_cons, List.length_append, List.length_map, ih, List.length_cons, Nat.add_mul]
    omega

namespace Dialect

variable {d : Dialect}

/-- An operator succeeds exactly with what its handler yields. -/
theorem invocation_eq_ok_iff {operator : String} {handler : Handler}
    (hfind : d.registry.find? operator = some handler) {combinator : Option Combinator}
    {operand : Value} {node : Fields} {column : Option String} {binder values : Array Value}
    {text : String} :
    d.invocation combinator operator operand node column binder = (.ok text, values) ↔
      ∃ bound, values.toList = binder.toList ++ bound ∧
        (handler.render (d.context combinator)
            ⟨operator, operand, node, column, combinator⟩).Yields d.placeholder
          (d.replies (operand.size + d.weight)) binder.size text bound := by
  rw [invocation, runFor_eq_ok_iff, Context.invoke]
  simp only [Rendering.yields_invoke, callBound, replies, hfind, Option.some.injEq,
    exists_eq_left']
  rfl

/-- **Documents are a table, row by row.**  Documents of scalars are rendered exactly if the first
one has a key, all have the same keys, and the keys are names.  The text has the quoted keys of the
first document and a row of placeholders for each document; the value of a document at a column is
found by its row and column.  The order of keys in a later document changes nothing. -/
theorem documents_row_major (hd : d ∈ library) {first : Fields} {rest : List Fields}
    (hscalars : ∀ document ∈ first :: rest, ∀ entry ∈ document, entry.2.isScalar = true)
    {operand : Value} (hoperand : Lists operand (first :: rest)) (node : Fields)
    (column : Option String) (combinator : Option Combinator) (binder : Array Value) :
    ((∃ text values,
        d.invocation combinator "$documents" operand node column binder = (.ok text, values)) ↔
      first ≠ [] ∧ (∀ document ∈ first :: rest, ∀ key, key ∈ document.keys ↔ key ∈ first.keys) ∧
        ∀ key ∈ first.keys, key ≠ "" ∧ [] ∉ key.toList.splitOn '.') ∧
    (∀ text values,
      d.invocation combinator "$documents" operand node column binder = (.ok text, values) →
        ∃ names bound,
          List.Forall₂ (fun key name => d.quoting.name key = .ok name) first.keys names ∧
          text = "(" ++ commaList names ++ ") VALUES " ++ commaList
            (d.placeholder.rows binder.size first.keys.length (first :: rest).length) ∧
          values.toList = binder.toList ++ bound ∧
          bound.length = (first :: rest).length * first.keys.length ∧
          ∀ i document j key, (first :: rest)[i]? = some document → first.keys[j]? = some key →
            bound[i * first.keys.length + j]? = document.get? key) ∧
    (∀ rest' operand' node', List.Forall₂ List.Perm rest rest' →
      (∀ document ∈ rest, document.keys.Nodup) → Lists operand' (first :: rest') →
        d.invocation combinator "$documents" operand' node' column binder =
          d.invocation combinator "$documents" operand node column binder) := by
  have hfind : d.registry.find? "$documents" = some Operator.documents :=
    find?_of_ansi hd rfl rfl rfl
  have hrender : ∀ {operand documents} (_ : Lists operand documents) node,
      Operator.documents.render (d.context combinator)
          ⟨"$documents", operand, node, column, combinator⟩ =
        Operator.documentTable (d.context combinator) (documents.map .object) :=
    fun h node => h.documents_render _ rfl
  refine ⟨?_, fun text values hrun => ?_, fun rest' operand' node' hperm hkeys hoperand' => ?_⟩
  · simp only [invocation_eq_ok_iff hfind, hrender hoperand, Operator.documentTable_yields_iff
      hscalars]
    constructor
    · rintro ⟨text, values, bound, -, hfirst, hkeys, ⟨names, hnames, -⟩, -⟩
      refine ⟨hfirst, hkeys, fun key hkey => ?_⟩
      obtain ⟨name, hname⟩ : ∃ name, d.quoting.name key = .ok name := by
        obtain ⟨i, rfl⟩ := List.mem_iff_get.1 hkey
        have hi := Nat.lt_of_lt_of_eq i.isLt hnames.length_eq
        exact ⟨_, (List.forall₂_iff_get.1 hnames).2 i i.isLt hi⟩
      obtain ⟨hne, hsegments, -⟩ := QuoteStyle.name_eq_ok_iff.1 hname
      exact ⟨hne, hsegments⟩
    · rintro ⟨hfirst, hkeys, hvalid⟩
      obtain ⟨names, hnames⟩ : ∃ names, List.Forall₂
          (fun key name => d.quoting.name key = .ok name) first.keys names := by
        refine ⟨first.keys.map fun key =>
          String.ofList (d.quoting.joinSegments (key.toList.splitOn '.')), ?_⟩
        rw [List.forall₂_map_right_iff, List.forall₂_same]
        exact fun key hkey => QuoteStyle.name_eq_ok_iff.2 ⟨(hvalid key hkey).1,
          (hvalid key hkey).2, rfl⟩
      exact ⟨_, (binder.toList ++ _).toArray, _, rfl, hfirst, hkeys, ⟨names, hnames, rfl⟩, rfl⟩
  · rw [invocation_eq_ok_iff hfind, hrender hoperand] at hrun
    obtain ⟨bound, hvalues, hyields⟩ := hrun
    obtain ⟨-, hkeys, ⟨names, hnames, htext⟩, rfl⟩ :=
      (Operator.documentTable_yields_iff hscalars).1 hyields
    refine ⟨names, _, hnames, htext, hvalues, length_flatMap_columns _ _ _,
      fun i document j key hi hj => ?_⟩
    have hkey : key ∈ document.keys :=
      (hkeys document (List.mem_of_getElem? hi) key).2 (List.mem_of_getElem? hj)
    obtain ⟨v, hv⟩ := Option.isSome_iff_exists.1 ((Fields.get?_isSome_iff document key).2 hkey)
    rw [getElem?_flatMap_columns hi hj, Fields.valueOf_eq, hv, Option.getD_some]
  · rw [invocation_eq hd, invocation_eq hd, respond_eq hd, respond_eq hd]
    simp only [hfind, hrender hoperand, hrender hoperand', Operator.documentTable_perm hperm hkeys]

/-- A document. -/
def firstDocument : Fields := [("a", .int 1), ("b.c", .str "x")]

/-- A document with the same keys. -/
def secondDocument : Fields := [("a", .null), ("b.c", .int 3)]

set_option maxRecDepth 4000 in
theorem invocation_documents :
    postgres.invocation none "$documents" (.list [.object firstDocument, .object secondDocument]) []
        none #[.int 9] =
      (.ok "(\"a\", \"b\".\"c\") VALUES ($2, $3), ($4, $5)",
        #[.int 9, .int 1, .str "x", .null, .int 3]) := by
  rw [postgres_eq]
  rfl

/-- The second document with its keys in the other order. -/
theorem documents_row_major_reverse :
    let operand : Value := .list [.object firstDocument, .object secondDocument.reverse]
    postgres ∈ library ∧
      (∀ document ∈ [firstDocument, secondDocument.reverse], ∀ entry ∈ document,
        entry.2.isScalar = true) ∧
      Lists operand [firstDocument, secondDocument.reverse] ∧
      (∀ key ∈ firstDocument.keys, key ≠ "" ∧ [] ∉ key.toList.splitOn '.') ∧
      postgres.invocation none "$documents" operand [] none #[.int 9] =
        (.ok "(\"a\", \"b\".\"c\") VALUES ($2, $3), ($4, $5)",
          #[.int 9, .int 1, .str "x", .null, .int 3]) ∧
      ∃ bound : List Value,
        [.int 9, .int 1, .str "x", .null, .int 3] = [.int 9] ++ bound ∧ bound.length = 2 * 2 ∧
          bound[1 * 2 + 1]? = some (.int 3) := by
  intro operand
  have hd : postgres ∈ library := by simp [library]
  have hscalars : ∀ document ∈ [firstDocument, secondDocument.reverse], ∀ entry ∈ document,
      entry.2.isScalar = true := by
    decide
  have hlists : Lists operand [firstDocument, secondDocument.reverse] :=
    .several [firstDocument, secondDocument.reverse]
  obtain ⟨hiff, htable, hperm⟩ := documents_row_major hd hscalars hlists [] none none #[.int 9]
  have hrun := (hperm [secondDocument] _ [] (.cons (List.reverse_perm _) .nil) (by decide)
    (.several [firstDocument, secondDocument])).symm.trans invocation_documents
  obtain ⟨names, bound, -, -, hvalues, hlength, hentry⟩ := htable _ _ hrun
  exact ⟨hd, hscalars, hlists, (hiff.1 ⟨_, _, hrun⟩).2.2, hrun, bound, hvalues, hlength,
    hentry 1 secondDocument.reverse 1 "b.c" rfl rfl⟩

end Dialect

end QueryTree
