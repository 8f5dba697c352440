import QueryTree.Proofs.FilledExpressions
import QueryTree.Proofs.OperatorClauses

/-!
# Operators without gaps

Every operator that is neither a template nor a switch leaves no gap, given that the calls it makes
are answered without one.  Some of them render lists of names and do not see that such a list can be
an empty object; what is asked of their operands is said here.

* `LacksColumns` : nothing to sort by.
* `keyLists` and `constraintLists` are the lists of names of a constraint.
* There is one lemma for each operator, named for it.
-/

namespace QueryTree.Sql

variable {S : Scheme} {ctx : Context} {replies : ReplyRel}

/-! ## Clauses of a statement -/

/-- A placeholder fills its place, whatever the value is. -/
theorem boundValue_fills (h : Furnished S ctx replies) (call : Call) :
    Fills S replies (Operator.boundValue.render ctx call) := by
  unfold Operator.boundValue
  dsimp only
  split
  · exact h.bound _
  · exact .refuse _

/-- The parentheses of an aggregate are filled by its argument. -/
theorem aggregate_fills (h : Furnished S ctx replies) {function : String}
    (hfunction : Opens (function ++ "(")) (operator : String) (call : Call) :
    Fills S replies ((Operator.aggregate function operator).render ctx call) := by
  obtain ⟨name, operand, node, column, combinator⟩ := call
  cases operand with
  | str text => exact (h.name text).map fun ht => .enclose hfunction (by decide) ht
  | object fields =>
    exact (valueExpression_fills h operator (.object fields)).map
      fun ht => .enclose hfunction (by decide) ht
  | null | bool flag | int number | float number | list items => exact Ensures.refuse _

/-- Tables leave a gap only if there are no names among them. -/
theorem tables_fills (hmark : ctx.quoting.mark = S.mark) {call : Call}
    (hnames : ¬ LacksNames call.operand) : Fills S replies (Operator.tables.render ctx call) := by
  unfold Operator.tables
  dsimp only
  split
  · exact .refuse _
  · exact nameList_fills hmark _ hnames

/-- A sorting column has a name and a direction. -/
theorem sortEntry_fills (hmark : ctx.quoting.mark = S.mark) (entry : String × Value) :
    Fills S replies (Operator.sortEntry ctx entry) := by
  intro n t vs hyields
  obtain ⟨column, us, _, hcolumn, hrest, rfl⟩ := Rendering.yields_bind.1 hyields
  obtain ⟨direction, _, _, hdirection, hpure, rfl⟩ := Rendering.yields_bind.1 hrest
  obtain ⟨rfl, -⟩ := Rendering.yields_pure.1 hpure
  have hfilled := name_fills hmark entry.1 n column us hcolumn
  rw [String.append_assoc]
  cases direction with
  | ascending => exact hfilled.trail (by decide)
  | descending => exact hfilled.trail (by decide)

/-- What rows are sorted by has no column: an empty object, or a list of nothing else. -/
def LacksColumns (v : Value) : Prop :=
  v = .object [] ∨ ∃ items, v = .list items ∧ ∀ item ∈ items, item = .object []

/-- Only an empty object gives no sorting column. -/
theorem sortItem_fills (hmark : ctx.quoting.mark = S.mark) (v : Value) :
    Ensures S replies (fun _ ts _ => (ts = [] → v = .object []) ∧ ∀ t ∈ ts, Filled S.mark t)
      (Operator.sortItem ctx v) := by
  cases v with
  | str text => exact (name_fills hmark text).map fun ht => ⟨by simp, by simpa using ht⟩
  | object fields =>
    intro n ts vs hyields
    obtain ⟨hlength, hfilled⟩ :=
      Ensures.each (fun entry _ => sortEntry_fills hmark entry) n ts vs hyields
    refine ⟨?_, hfilled⟩
    rintro rfl
    rw [List.length_eq_zero_iff.1 hlength.symm]
  | null | bool flag | int number | float number | list items => exact .refuse _

/-- The columns of all items together. -/
theorem sortItems_fill (hmark : ctx.quoting.mark = S.mark) (items : List Value) :
    Ensures S replies
      (fun _ tss _ => (tss.flatten = [] → ∀ item ∈ items, item = .object []) ∧
        ∀ t ∈ tss.flatten, Filled S.mark t)
      (Rendering.each (Operator.sortItem ctx) items) := by
  induction items with
  | nil => exact .pure fun _ => by simp
  | cons item rest ih =>
    refine (sortItem_fills hmark item).map₂ ih fun {n ts us tss ws} hfirst hothers => ?_
    rw [List.flatten_cons, List.append_eq_nil_iff]
    refine ⟨?_, List.forall_mem_append.2 ⟨hfirst.2, hothers.2⟩⟩
    rintro ⟨hts, htss⟩
    exact List.forall_mem_cons.2 ⟨hfirst.1 hts, hothers.1 htss⟩

/-- Sorting columns leave a gap only if there is none among them. -/
theorem sortColumns_fills (hmark : ctx.quoting.mark = S.mark) {v : Value}
    (hcolumns : ¬ LacksColumns v) : Fills S replies (Operator.sortColumns ctx v) := by
  cases v with
  | str text => exact name_fills hmark text
  | object fields =>
    refine .eachJoin (fun entry _ => sortEntry_fills hmark entry) ?_
    rintro rfl
    exact hcolumns (.inl rfl)
  | list items =>
    unfold Operator.sortColumns
    dsimp only
    split
    · exact .refuse _
    · refine (sortItems_fill hmark items).map fun ht => .join (by decide) ?_ ht.2
      exact fun hnone => hcolumns (.inr ⟨items, rfl, ht.1 hnone⟩)
  | null | bool flag | int number | float number => exact .refuse _

/-- A limit is a placeholder, or a word that is not empty. -/
theorem limit_fills (h : Styled S ctx) (call : Call) :
    Fills S replies (Operator.limit.render ctx call) := by
  unfold Operator.limit
  dsimp only
  split
  · exact .pure fun _ => h.maxLimit
  · split
    · exact h.bound _
    · exact .refuse _

theorem offset_fills (h : Styled S ctx) (call : Call) :
    Fills S replies (Operator.offset.render ctx call) := by
  unfold Operator.offset
  dsimp only
  split
  · exact .refuse _
  · split
    · exact h.bound _
    · exact .refuse _

/-! ## Comparisons -/

/-- A test begins with a name, or there is no test. -/
theorem testedColumn_fills (h : Furnished S ctx replies) (operator : String)
    (column : Option String) : Fills S replies (Operator.testedColumn ctx operator column) := by
  cases column with
  | some column => exact h.name column
  | none => exact .refuse _

/-- Both sides of a comparison are there. -/
theorem comparison_fills (h : Furnished S ctx replies) {word : String}
    (hword : Joins (" " ++ word ++ " ")) (operator : String) (call : Call) :
    Fills S replies ((Operator.comparison operator word).render ctx call) := by
  have hcolumn := testedColumn_fills h operator call.column
  unfold Operator.comparison
  dsimp only
  by_cases heq : (call.operand.isNull && operator == "$eq") = true
  · simp only [heq, if_true]
    exact hcolumn.map fun ht => ht.trail (by decide)
  · by_cases hne : (call.operand.isNull && operator == "$ne") = true
    · simp only [heq, hne, if_true]
      exact hcolumn.map fun ht => ht.trail (by decide)
    · simp only [heq, hne]
      refine hcolumn.map₂ (valueExpression_fills h _ _) fun ha hb => ?_
      simpa only [String.append_assoc] using ha.sep hword hb

/-- A list of members is checked not to be empty before its parentheses are written. -/
theorem membership_fills (h : Furnished S ctx replies) {word : String}
    (hword : Joins (" " ++ word ++ " ")) (operator : String) (call : Call) :
    Fills S replies ((Operator.membership operator word).render ctx call) := by
  obtain ⟨name, operand, node, column, combinator⟩ := call
  have hcolumn := testedColumn_fills h operator column
  unfold Operator.membership
  dsimp only
  cases operand with
  | object fields =>
    refine hcolumn.map₂ (valueExpression_fills h _ _) fun ha hb => ?_
    simpa only [String.append_assoc] using ha.sep hword hb
  | list items =>
    cases items with
    | nil => exact .andRefuse
    | cons first rest =>
      have hmembers : FillsAll S replies (first :: rest)
          (Rendering.each (valueExpression ctx operator) (first :: rest)) :=
        Ensures.each fun v _ => valueExpression_fills h _ v
      refine hcolumn.map₂ hmembers fun {n left us members ws} ha hb => ?_
      have htext : left ++ " " ++ word ++ " (" ++ commaList members ++ ")" =
          left ++ (" " ++ word ++ " ") ++ ("(" ++ commaList members ++ ")") := by
        simp [← String.toList_inj]
      have hne : members ≠ [] := List.ne_nil_of_length_eq_add_one hb.1
      rw [htext]
      exact ha.sep hword (.enclose (by decide) (by decide) (.join (by decide) hne hb.2))
  | null | bool flag | int number | float number | str text => exact .andRefuse

/-- Both ends are operands, and so both are there. -/
theorem between_fills (h : Furnished S ctx replies) (call : Call) :
    Fills S replies (Operator.between.render ctx call) := by
  obtain ⟨name, operand, node, column, combinator⟩ := call
  have hcolumn := testedColumn_fills h "$between" column
  unfold Operator.between
  dsimp only
  cases operand with
  | list items =>
    rcases items with _ | ⟨low, _ | ⟨high, _ | ⟨third, rest⟩⟩⟩
    · exact .andRefuse
    · exact .andRefuse
    · refine hcolumn.map₃ (valueExpression_fills h _ low) (valueExpression_fills h _ high)
        fun {n left us a ws b vs} hleft ha hb => ?_
      have htext : left ++ " BETWEEN " ++ a ++ " AND " ++ b =
          left ++ " BETWEEN " ++ (a ++ " AND " ++ b) := by simp only [String.append_assoc]
      rw [htext]
      exact hleft.sep (by decide) (ha.sep (by decide) hb)
    · exact .andRefuse
  | null | bool flag | int number | float number | str text | object fields => exact .andRefuse

/-- A test for a missing value ends with its keywords. -/
theorem nullTest_fills (h : Furnished S ctx replies) (call : Call) :
    Fills S replies (Operator.nullTest.render ctx call) := by
  obtain ⟨name, operand, node, column, combinator⟩ := call
  have hcolumn := testedColumn_fills h "$isNull" column
  unfold Operator.nullTest
  dsimp only
  cases operand with
  | bool flag =>
    cases flag with
    | true => exact hcolumn.map fun ht => ht.trail (by decide)
    | false => exact hcolumn.map fun ht => ht.trail (by decide)
  | null | int number | float number | str text | list items | object fields => exact .andRefuse

/-- The parentheses of a negation are filled by its filter. -/
theorem negation_fills (h : Furnished S ctx replies) (call : Call) :
    Fills S replies (Operator.negation.render ctx call) :=
  (condition_fills h call.operand none).map fun ht => .enclose (by decide) (by decide) ht

/-- The words of the comparisons need something on both sides, and take it. -/
theorem joins_comparisonWord {operator word : String}
    (h : comparisonWords.lookup operator = some word) : Joins (" " ++ word ++ " ") := by
  have hwords : ∀ entry ∈ comparisonWords, Joins (" " ++ entry.2 ++ " ") := by decide
  obtain ⟨before, after, hentries, -⟩ := List.lookup_eq_some_iff.1 h
  exact hwords (operator, word) (by simp [hentries])

/-- There is a comparison, and each one has both of its sides. -/
theorem expressionTest_fills (h : Furnished S ctx replies) (call : Call) :
    Fills S replies (Operator.expressionTest.render ctx call) := by
  obtain ⟨name, operand, node, column, combinator⟩ := call
  unfold Operator.expressionTest
  dsimp only
  cases operand with
  | object fields =>
    dsimp only
    split
    · rename_i left test tests hleft htests
      refine .group (Ensures.each fun entry hentry => ?_) (List.cons_ne_nil _ _) .and _
      obtain ⟨-, hword⟩ := List.mem_filter.1 (htests ▸ hentry)
      obtain ⟨word, hword⟩ := Option.isSome_iff_exists.1 hword
      rw [Operator.expressionPart_of_lookup ctx left hword]
      refine (valueExpression_fills h _ (.object [left])).map₂ (valueExpression_fills h _ entry.2)
        fun ha hb => ?_
      simpa only [String.append_assoc] using ha.sep (joins_comparisonWord hword) hb
    · exact .refuse _
  | null | bool flag | int number | float number | str text | list items => exact .refuse _

/-! ## Rows -/

/-- There is an assignment, and each one has a name and a value. -/
theorem assignments_fills (h : Furnished S ctx replies) (call : Call) :
    Fills S replies (Operator.assignments.render ctx call) := by
  unfold Operator.assignments
  dsimp only
  split
  · split
    · exact .refuse _
    · rename_i hne
      refine .eachJoin (fun entry _ => ?_) (by simpa using hne)
      exact (h.name entry.1).map₂ (valueExpression_fills h _ entry.2)
        fun ha hb => .sep (by decide) ha hb
  · exact .refuse _

/-- A row has as many cells as columns, so there is one. -/
theorem documentRow_fills (h : Furnished S ctx replies) {columns : List String}
    (hcolumns : columns ≠ []) (index : Nat) (v : Value) :
    Fills S replies (Operator.documentRow ctx columns index v) := by
  cases v with
  | object fields =>
    rw [Operator.documentRow_object]
    split
    · refine (Ensures.each fun column _ => valueExpression_fills h _ _).map fun ht => ?_
      refine .enclose (by decide) (by decide) (.join (by decide) ?_ ht.2)
      rintro rfl
      exact hcolumns (List.length_eq_zero_iff.1 ht.1.symm)
    · exact .refuse _
  | null | bool flag | int number | float number | str text | list items => exact .refuse _

/-- There are as many rows as documents. -/
theorem documentRows_fill (h : Furnished S ctx replies) {columns : List String}
    (hcolumns : columns ≠ []) (index : Nat) (items : List Value) :
    FillsAll S replies items (Operator.documentRows ctx columns index items) := by
  induction items generalizing index with
  | nil => exact .pure fun _ => ⟨rfl, by simp⟩
  | cons v rest ih =>
    refine (documentRow_fills h hcolumns index v).map₂ (ih (index + 1)) fun hrow hrows => ?_
    exact ⟨congrArg (· + 1) hrows.1, List.forall_mem_cons.2 ⟨hrow, hrows.2⟩⟩

/-- The first document has a key, so that neither the columns nor the rows are empty. -/
theorem documentTable_fills (h : Furnished S ctx replies) (items : List Value) :
    Fills S replies (Operator.documentTable ctx items) := by
  cases items with
  | nil => exact .refuse _
  | cons first rest =>
    cases first with
    | object fields =>
      rcases fields with _ | ⟨⟨key, value⟩, fields⟩
      · exact .refuse _
      · have hnames : FillsAll S replies (Fields.keys ((key, value) :: fields))
            (Rendering.each ctx.name (Fields.keys ((key, value) :: fields))) :=
          Ensures.each fun column _ => h.name column
        refine hnames.map₂ (documentRows_fill h (by simp [Fields.keys]) 0 _)
          fun {n names us rows ws} ha hb => ?_
        have htext : "(" ++ commaList names ++ ") VALUES " ++ commaList rows =
            ("(" ++ commaList names ++ ")") ++ " VALUES " ++ commaList rows := by
          simp [← String.toList_inj]
        have hnames_ne : names ≠ [] := List.ne_nil_of_length_eq_add_one ha.1
        have hrows_ne : rows ≠ [] := List.ne_nil_of_length_eq_add_one hb.1
        rw [htext]
        exact .sep (by decide)
          (.enclose (by decide) (by decide) (.join (by decide) hnames_ne ha.2))
          (.join (by decide) hrows_ne hb.2)
    | null | bool flag | int number | float number | str text | list items => exact .refuse _

theorem documents_fills (h : Furnished S ctx replies) (call : Call) :
    Fills S replies (Operator.documents.render ctx call) := by
  unfold Operator.documents
  dsimp only
  split
  · exact documentTable_fills h _
  · exact documentTable_fills h _
  · exact .refuse _

/-! ## Table definitions -/

/-- A column is its name and what the call for its definition gives. -/
theorem columnDefinition_fills (h : Furnished S ctx replies) (name : String) (v : Value) :
    Fills S replies (Operator.columnDefinition ctx name v) := by
  cases v with
  | object fields =>
    exact (h.name name).map₂ (h.invoke "$column" _ _ (some name))
      fun ha hb => .sep (by decide) ha hb
  | null | bool flag | int number | float number | str text | list items => exact .refuse _

/-- There is a definition, since an empty object is refused. -/
theorem definitions_fills (h : Furnished S ctx replies) (call : Call) :
    Fills S replies (Operator.definitions.render ctx call) := by
  unfold Operator.definitions
  dsimp only
  split
  · split
    · exact .refuse _
    · rename_i hne
      refine .eachJoin (fun entry _ => ?_) (by simpa using hne)
      unfold Operator.definition
      split
      · exact h.invoke "$constraint" entry.2 _ none
      · split
        · exact .refuse _
        · exact columnDefinition_fills h entry.1 entry.2
  · exact .refuse _

/-- The lists of names of a foreign key: its columns and those that they refer to. -/
def keyLists : Value → List Value
  | .object fields =>
    Fields.valueOf fields "$columns" ::
      match Fields.valueOf fields "$references" with
      | .object target => [Fields.valueOf target "$columns"]
      | _ => []
  | _ => []

/-- The lists of names of a constraint. -/
def constraintLists (entry : String × Value) : List Value :=
  match entry.2 with
  | .object [(kind, operand)] => if kind = "$foreignKey" then keyLists operand else [operand]
  | _ => []

/-- A foreign key leaves a gap only where one of its lists has no names. -/
theorem foreignKey_fills (h : Styled S ctx) {v : Value}
    (hnames : ∀ list ∈ keyLists v, ¬ LacksNames list) :
    Fills S replies (Operator.foreignKey ctx v) := by
  unfold Operator.foreignKey
  split
  · rename_i fields
    split
    · rename_i target columns htarget hcolumns
      split
      · rename_i table keys _ hkeys
        simp only [keyLists, htarget, Fields.valueOf_eq, hcolumns, hkeys, Option.getD_some,
          List.forall_mem_cons] at hnames
        refine Ensures.map₃ (nameList_fills h.mark _ hnames.1) (h.identifier _)
          (nameList_fills h.mark _ hnames.2.1) fun {n source us table ws keys vs} ha hb hc => ?_
        have htext : "FOREIGN KEY (" ++ source ++ ") REFERENCES " ++ table ++ " (" ++ keys ++ ")" =
            ("FOREIGN KEY (" ++ source ++ ")") ++ " REFERENCES " ++
              (table ++ " " ++ ("(" ++ keys ++ ")")) := by
          simp [← String.toList_inj]
        rw [htext]
        exact .sep (by decide) (.enclose (by decide) (by decide) ha)
          (.sep (by decide) hb (.enclose (by decide) (by decide) hc))
      · exact .refuse _
    · exact .refuse _
  · exact .refuse _

/-- The same of every kind of constraint. -/
theorem constraint_fills (h : Styled S ctx) {entry : String × Value}
    (hnames : ∀ list ∈ constraintLists entry, ¬ LacksNames list) :
    Fills S replies (Operator.constraint ctx entry) := by
  unfold Operator.constraint
  split
  · rename_i kind operand heq
    have hbody : Fills S replies (Operator.constraintBody ctx kind operand) := by
      simp only [constraintLists, heq] at hnames
      unfold Operator.constraintBody
      split
      · rename_i hkind
        have hlist : ¬ LacksNames operand := by simpa [hkind] using hnames
        exact (nameList_fills h.mark _ hlist).map fun ht => .enclose (by decide) (by decide) ht
      · split
        · rename_i hkind
          have hlist : ¬ LacksNames operand := by simpa [hkind] using hnames
          exact (nameList_fills h.mark _ hlist).map fun ht => .enclose (by decide) (by decide) ht
        · split
          · rename_i hkind
            exact foreignKey_fills h (by simpa [hkind] using hnames)
          · exact .refuse _
    exact hbody.map₂ (h.name _) fun hbody hname => .sep (by decide) (.lead (by decide) hname) hbody
  · exact .refuse _

/-- Constraints have commas between them, and each of them is filled. -/
theorem constraints_fills (h : Styled S ctx) {call : Call}
    (hnames : ∀ fields, call.operand = .object fields → ∀ entry ∈ fields,
      ∀ list ∈ constraintLists entry, ¬ LacksNames list) :
    Fills S replies (Operator.constraints.render ctx call) := by
  unfold Operator.constraints
  dsimp only
  split
  · rename_i fields hoperand
    split
    · exact .refuse _
    · rename_i hne
      exact .eachJoin (fun entry hentry => constraint_fills h (hnames fields hoperand entry hentry))
        (by simpa using hne)
  · exact .refuse _

/-- A reference with columns leaves a gap only if there are no names among them. -/
theorem reference_fills (h : Styled S ctx) {call : Call}
    (hnames : ∀ fields, call.operand = .object fields →
      ¬ LacksNames (Fields.valueOf fields "$columns")) :
    Fills S replies (Operator.reference.render ctx call) := by
  unfold Operator.reference
  dsimp only
  split
  · exact h.name _
  · rename_i fields hoperand
    split
    · rename_i table _
      split
      · by_cases hcolumns : (Fields.valueOf fields "$columns").isNull = true
        · simp only [hcolumns, if_true]
          exact (h.identifier table).map fun ht => ht
        · simp only [hcolumns]
          refine (h.identifier table).map₂ (nameList_fills h.mark _ (hnames fields hoperand))
            fun {n target us columns ws} ha hb => ?_
          have htext : target ++ " (" ++ columns ++ ")" =
              target ++ " " ++ ("(" ++ columns ++ ")") := by
            simp [← String.toList_inj]
          rw [htext]
          exact .sep (by decide) ha (.enclose (by decide) (by decide) hb)
      · exact .refuse _
    · exact .refuse _
  · exact .refuse _

/-! ## Texts that stand as they are -/

/-- Letters, digits and underscores are no spaces or marks. -/
theorem fills_of_isWordChar {c : Char} (h : isWordChar c = true) : fills c = true := by
  have hnone : (marks ++ [' ', '(', ',', ')']).all (fun c => !isWordChar c) = true := by decide
  simp only [fills, Bool.not_eq_true', List.contains_eq_mem, decide_eq_false_iff_not]
  intro hmem
  simpa [h] using List.all_eq_true.1 hnone c hmem

theorem filled_digits (number : Nat) : Filled S.mark (toString number) := by
  rw [Nat.toString_eq_ofList_toDigits]
  refine filled_of_all ?_ fun c hc => ?_
  · simp
  · rw [String.toList_ofList] at hc
    have hdigit := Nat.isDigit_of_mem_toDigits (by decide) (by decide) hc
    exact fills_of_isWordChar (by simp [isWordChar, Char.isAlphanum, hdigit])

/-- The words of a type are not empty, and stay so in capitals. -/
theorem filled_upper {text : String} (h : Operator.isTypeName text = true) :
    Filled S.mark (Text.upper text) := by
  rw [upper_eq_intercalate]
  simp only [Operator.isTypeName, List.all_eq_true] at h
  refine .join (by decide) (by simpa using Text.split_ne_nil _ _) fun t ht => ?_
  obtain ⟨word, hword, rfl⟩ := List.mem_map.1 ht
  have htype := h word hword
  cases word with
  | nil => cases htype
  | cons c rest =>
    simp only [Operator.isTypeWord, Operator.isLetter, Bool.and_eq_true, List.all_eq_true] at htype
    refine filled_of_all (by simp) fun c' hc' => ?_
    rw [String.toList_ofList] at hc'
    obtain ⟨c'', hc'', rfl⟩ := List.mem_map.1 hc'
    refine fills_of_isWordChar (isWordChar_upperChar ?_)
    rcases List.mem_cons.1 hc'' with rfl | hrest
    · simp [Operator.isWordChar, Char.isAlphanum, htype.1]
    · exact htype.2 c'' hrest

/-- A length is written out with its parentheses. -/
theorem filled_lengthText {v : Value} {text : String} (h : Operator.lengthText? v = some text) :
    Filled S.mark text := by
  obtain ⟨sizes, hne, rfl⟩ := lengthText?_eq h
  refine .enclose (by decide) (by decide) (.join (by decide) (by simpa using hne) ?_)
  exact List.forall_mem_map.2 fun number _ => filled_digits number

/-- A variable has a letter or an underscore after its signs. -/
theorem filled_variable {text : String} (h : Operator.isVariable text = true) :
    Filled S.mark text := by
  have hbody : ∀ {cs : List Char}, Operator.isVariableBody cs = true →
      cs ≠ [] ∧ ∀ c ∈ cs, fills c = true := by
    intro cs hcs
    cases cs with
    | nil => cases hcs
    | cons c rest =>
      simp only [Operator.isVariableBody, Bool.and_eq_true, List.all_eq_true] at hcs
      refine ⟨by simp, List.forall_mem_cons.2 ⟨?_, fun c hc => fills_of_isWordChar (hcs.2 c hc)⟩⟩
      refine fills_of_isWordChar ?_
      simp only [Bool.or_eq_true] at hcs
      simp only [isWordChar, Char.isAlphanum, Bool.or_eq_true]
      exact .inl (.inl (hcs.1.imp .inl id))
  have hat : fills '@' = true := by decide
  unfold Operator.isVariable at h
  split at h
  · rename_i rest htext
    refine filled_of_all (by simp [htext]) ?_
    simpa [htext, hat] using (hbody h).2
  · rename_i rest _ htext
    refine filled_of_all (by simp [htext]) ?_
    simpa [htext, hat] using (hbody h).2
  · exact filled_of_all (hbody h).1 (hbody h).2

theorem columnType_fills (call : Call) : Fills S replies (Operator.columnType.render ctx call) := by
  unfold Operator.columnType
  dsimp only
  split
  · split
    · rename_i htype
      exact .pure fun _ => filled_upper htype
    · exact .refuse _
  · exact .refuse _

theorem columnLength_fills (call : Call) :
    Fills S replies (Operator.columnLength.render ctx call) := by
  unfold Operator.columnLength
  dsimp only
  split
  · rename_i htext
    exact .pure fun _ => filled_lengthText htext
  · exact .refuse _

/-- A comment is bound, so that its place is filled even if it is empty. -/
theorem columnComment_fills (h : Styled S ctx) (call : Call) :
    Fills S replies (Operator.columnComment.render ctx call) := by
  unfold Operator.columnComment
  dsimp only
  split
  · exact h.bound _
  · exact .refuse _

theorem collation_fills (h : Styled S ctx) (call : Call) :
    Fills S replies (Operator.collation.render ctx call) := by
  unfold Operator.collation
  dsimp only
  split
  · rename_i text _
    split
    · exact .refuse _
    · refine .pure fun _ => ?_
      rw [Filled, QuoteStyle.segment, String.toList_ofList]
      exact sweep_segmentChars h.mark _
  · exact .refuse _

theorem objectIds_fills (call : Call) : Fills S replies (Operator.objectIds.render ctx call) := by
  have hwords : ∀ flag : Bool, Stands (if flag then "OIDS = TRUE" else "OIDS = FALSE") := by decide
  unfold Operator.objectIds
  dsimp only
  split
  · rename_i flag _
    exact .pure fun _ => (hwords flag).filled
  · exact .refuse _

theorem tablespace_fills (h : Styled S ctx) (call : Call) :
    Fills S replies (Operator.tablespace.render ctx call) := by
  unfold Operator.tablespace
  dsimp only
  split
  · exact h.name _
  · exact .refuse _

/-! ## Targets of a result -/

/-- Keywords that can stand before a placeholder. -/
theorem optionClauses_fill (h : Styled S ctx) {options : List (String × Option String)}
    (hkeyword : ∀ entry ∈ options, Opens (entry.1 ++ " ")) :
    Ensures S replies (fun _ ts _ => ∀ t ∈ ts, Filled S.mark t)
      (Operator.optionClauses options) := by
  induction options with
  | nil => exact .pure fun _ => by simp
  | cons entry rest ih =>
    have hrest := ih fun e he => hkeyword e (List.mem_cons_of_mem _ he)
    obtain ⟨keyword, _ | text⟩ := entry
    · exact hrest
    · exact (h.bound (.str text)).map₂ hrest fun htoken hclauses =>
        List.forall_mem_cons.2 ⟨htoken.lead (hkeyword _ List.mem_cons_self), hclauses⟩

/-- A group without options is not written at all. -/
theorem optionGroup_fills (h : Styled S ctx) {keyword : String}
    (hgroup : Stands keyword) {options : List (String × Option String)}
    (hoptions : ∀ entry ∈ options, Opens (entry.1 ++ " ")) :
    Ensures S replies (fun _ ts _ => ∀ t ∈ ts, Filled S.mark t)
      (Operator.optionGroup keyword options) := by
  refine (optionClauses_fill h hoptions).map fun ht => ?_
  split
  · simp
  · exact List.forall_mem_cons.2 ⟨hgroup.filled, ht⟩

/-- A file that rows are written to has a name, with or without options. -/
theorem outfileClause_fills (h : Styled S ctx) (v : Value) :
    Fills S replies (Operator.outfileClause v) := by
  unfold Operator.outfileClause
  split
  · exact .refuse _
  · rename_i options _
    have hfields : Ensures S replies (fun _ ts _ => ∀ t ∈ ts, Filled S.mark t)
        (Operator.fieldClauses options.fields) := by
      cases options.fields with
      | none => exact .pure fun _ => by simp
      | some fields =>
        refine optionGroup_fills h (by decide) ?_
        simp only [List.forall_mem_cons]
        decide
    have hlines : Ensures S replies (fun _ ts _ => ∀ t ∈ ts, Filled S.mark t)
        (Operator.lineClauses options.lines) := by
      cases options.lines with
      | none => exact .pure fun _ => by simp
      | some lines =>
        refine optionGroup_fills h (by decide) ?_
        simp only [List.forall_mem_cons]
        decide
    refine (h.bound _).map₃ hfields hlines fun hfile hfields hlines => ?_
    have hkeyword : Stands "OUTFILE" := by decide
    refine .join (by decide) (by simp) ?_
    exact List.forall_mem_cons.2 ⟨hkeyword.filled,
      List.forall_mem_cons.2 ⟨hfile, List.forall_mem_append.2 ⟨hfields, hlines⟩⟩⟩

theorem variableName_fills (v : Value) : Fills S replies (Operator.variableName v) := by
  cases v with
  | str text =>
    unfold Operator.variableName
    dsimp only
    split
    · rename_i hvariable
      exact .pure fun _ => filled_variable hvariable
    · exact .refuse _
  | null | bool flag | int number | float number | list items | object fields => exact .refuse _

/-- A result is written to at least one variable, or to a file. -/
theorem target_fills (h : Styled S ctx) (call : Call) :
    Fills S replies (Operator.target.render ctx call) := by
  unfold Operator.target
  dsimp only
  split
  · split
    · exact .refuse _
    · rename_i hne
      exact .eachJoin (fun v _ => variableName_fills v) (by simpa using hne)
  · split
    · exact outfileClause_fills h _
    · split
      · split
        · split
          · exact .refuse _
          · exact (h.bound _).map fun ht => .lead (by decide) ht
        · exact .refuse _
      · exact .refuse _
  · exact .refuse _

theorem outfile_fills (h : Styled S ctx) (call : Call) :
    Fills S replies (Operator.outfile.render ctx call) :=
  (outfileClause_fills h call.operand).map fun ht => .lead (by decide) ht

end QueryTree.Sql
