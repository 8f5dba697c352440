import QueryTree.Options.Outfile
import QueryTree.Proofs.Leaves

/-!
# Where the options of a result file come from

The options of a result file are read from a block of the query.  Whatever the check lets through
was written there: every text it gives is a leaf of the block.

* `Checked.eq_ok_of_and`, `Checked.eq_ok_of_guardedBy`, `Checked.exists_of_map` take a check that
  succeeds apart.
* **`leaves_of_check`** : the file and all options are leaves of the value that was checked.
-/

namespace QueryTree

/-! ## Checks that succeed -/

/-- Two checks pass together only if each of them does. -/
theorem Checked.eq_ok_of_and {α β : Type} {a : Checked α} {b : Checked β} {x : α} {y : β}
    (h : a.and b = .ok (x, y)) : a = .ok x ∧ b = .ok y := by
  cases a with
  | error problems => cases b <;> cases h
  | ok x' =>
    cases b with
    | error problems => cases h
    | ok y' =>
      cases h
      exact ⟨rfl, rfl⟩

/-- A check that passes under a guard passes by itself. -/
theorem Checked.eq_ok_of_guardedBy {α : Type} {a : Checked α} {b : Checked Unit} {x : α}
    (h : a.guardedBy b = .ok x) : a = .ok x := by
  cases a with
  | error problems => cases b <;> cases h
  | ok x' =>
    cases b with
    | error problems => cases h
    | ok y' =>
      cases h
      rfl

/-! ## Texts of a block -/

/-- A text that was read from a block is a leaf of it. -/
theorem mem_leaves_of_optionalText {block : Fields} {key text : String}
    (h : optionalText block key = .ok (some text)) : .str text ∈ (Value.object block).leaves := by
  unfold optionalText at h
  split at h
  · cases h
  · cases h
  · rename_i text' hget
    cases h
    exact Value.leaves_subset_of_get? hget (Value.mem_leaves_self rfl)
  · cases h

/-- So is one that had to be there. -/
theorem mem_leaves_of_requiredText {block : Fields} {key text : String}
    (h : requiredText block key = .ok text) : .str text ∈ (Value.object block).leaves := by
  unfold requiredText at h
  split at h
  · cases h
  · rename_i v hget
    cases v with
    | str text' =>
      simp only [filledText] at h
      split at h
      · cases h
      · cases h
        exact Value.leaves_subset_of_get? hget (Value.mem_leaves_self rfl)
    | null | bool flag | int number | float number | list items | object fields => cases h

theorem Checked.exists_of_map {α β : Type} {a : Checked α} {f : α → β} {y : β}
    (h : Except.map f a = .ok y) : ∃ x, a = .ok x ∧ y = f x := by
  cases a with
  | error problems => cases h
  | ok x =>
    cases h
    exact ⟨x, rfl, rfl⟩

theorem Checked.eq_ok_of_under {α : Type} {key : String} {a : Checked α} {x : α}
    (h : a.under key = .ok x) : a = .ok x := by
  cases a with
  | error problems => cases h
  | ok x' => exact h

/-- A block inside another one. -/
theorem exists_of_optionalBlock {α : Type} {block : Fields} {key name : String}
    {check : Fields → Checked α} {x : α} (h : optionalBlock block key name check = .ok (some x)) :
    ∃ fields, check fields = .ok x ∧
      (Value.object fields).leaves ⊆ (Value.object block).leaves := by
  unfold optionalBlock at h
  split at h
  · cases h
  · cases h
  · rename_i fields hget
    obtain ⟨x', hcheck, hx⟩ := Checked.exists_of_map h
    cases hx
    exact ⟨fields, Checked.eq_ok_of_under hcheck, Value.leaves_subset_of_get? hget⟩
  · cases h

/-! ## The options of a file -/

/-- The options of the columns, as they are written. -/
def FieldOptions.clauses (options : FieldOptions) : List (String × Option String) :=
  [("TERMINATED BY", options.terminatedBy), ("ENCLOSED BY", options.enclosedBy),
    ("ESCAPED BY", options.escapedBy)]

/-- The options of the rows, as they are written. -/
def LineOptions.clauses (options : LineOptions) : List (String × Option String) :=
  [("STARTING BY", options.startingBy), ("TERMINATED BY", options.terminatedBy)]

/-- Every text among the options for columns comes from the block. -/
theorem leaves_of_fieldOptions {block : Fields} {options : FieldOptions}
    (h : FieldOptions.checkFields block = .ok options) {keyword text : String}
    (hmem : (keyword, some text) ∈ options.clauses) :
    Value.str text ∈ (Value.object block).leaves := by
  obtain ⟨⟨terminated, enclosed, escaped⟩, hguarded, rfl⟩ := Checked.exists_of_map h
  obtain ⟨hterminated, hrest⟩ := Checked.eq_ok_of_and (Checked.eq_ok_of_guardedBy hguarded)
  obtain ⟨henclosed, hescaped⟩ := Checked.eq_ok_of_and hrest
  simp only [FieldOptions.clauses, List.mem_cons, List.not_mem_nil, or_false, Prod.mk.injEq] at hmem
  rcases hmem with ⟨-, rfl⟩ | ⟨-, rfl⟩ | ⟨-, rfl⟩
  · exact mem_leaves_of_optionalText hterminated
  · exact mem_leaves_of_optionalText henclosed
  · exact mem_leaves_of_optionalText hescaped

/-- Every text among the options for rows comes from the block. -/
theorem leaves_of_lineOptions {block : Fields} {options : LineOptions}
    (h : LineOptions.checkFields block = .ok options) {keyword text : String}
    (hmem : (keyword, some text) ∈ options.clauses) :
    Value.str text ∈ (Value.object block).leaves := by
  obtain ⟨⟨starting, terminated⟩, hguarded, rfl⟩ := Checked.exists_of_map h
  obtain ⟨hstarting, hterminated⟩ := Checked.eq_ok_of_and (Checked.eq_ok_of_guardedBy hguarded)
  simp only [LineOptions.clauses, List.mem_cons, List.not_mem_nil, or_false, Prod.mk.injEq] at hmem
  rcases hmem with ⟨-, rfl⟩ | ⟨-, rfl⟩
  · exact mem_leaves_of_optionalText hstarting
  · exact mem_leaves_of_optionalText hterminated

/-- The file and all options are leaves of the value that was checked. -/
theorem leaves_of_check {v : Value} {options : OutfileOptions}
    (h : OutfileOptions.check v = .ok options) :
    Value.str options.file ∈ v.leaves ∧
      (∀ fields ∈ options.fields, ∀ keyword text, (keyword, some text) ∈ fields.clauses →
        Value.str text ∈ v.leaves) ∧
      ∀ lines ∈ options.lines, ∀ keyword text, (keyword, some text) ∈ lines.clauses →
        Value.str text ∈ v.leaves := by
  cases v with
  | object block =>
    obtain ⟨⟨file, fields, lines⟩, hguarded, rfl⟩ := Checked.exists_of_map h
    obtain ⟨hfile, hrest⟩ := Checked.eq_ok_of_and (Checked.eq_ok_of_guardedBy hguarded)
    obtain ⟨hfields, hlines⟩ := Checked.eq_ok_of_and hrest
    refine ⟨mem_leaves_of_requiredText hfile, ?_, ?_⟩
    · rintro options rfl keyword text hmem
      obtain ⟨inner, hcheck, hleaves⟩ := exists_of_optionalBlock hfields
      exact hleaves (leaves_of_fieldOptions hcheck hmem)
    · rintro options rfl keyword text hmem
      obtain ⟨inner, hcheck, hleaves⟩ := exists_of_optionalBlock hlines
      exact hleaves (leaves_of_lineOptions hcheck hmem)
  | null | bool flag | int number | float number | str text | list items => cases h

end QueryTree
