import QueryTree.Operator.Target
import QueryTree.Proofs.OperandForms

/-!
# The options of a result file, accepted and written

A block of file options is accepted exactly if it has the declared shape, and it is written in a
fixed order, whatever the order of its keys.

* `OutfileSection` is a table of the options that are written under one keyword; `isOutfileBlock`,
  `outfileWords` and `outfileValues` say by these tables what is accepted, how it is written and
  what is bound.
* `Checked.Decides` : a check accepts exactly what has a property, and finds a problem otherwise.
  **`OutfileOptions.check_decides`** puts it together from the checks of the parts.
* `SameOptions` : blocks that differ in the order of their keys and in keys that are `null`, and so
  do the blocks in them.
* `Operator.run_optionClauses` : the placeholders of the options that are given are counted in their
  order.
* **`Operator.outfileClause_outcome`** : what comes of every value, after any bound values.
-/

namespace QueryTree

/-! ## The shape of a block -/

namespace Value

/-- A text, or `null` for none. -/
def isTextOrNull : Value → Bool
  | .null => true
  | .str _ => true
  | _ => false

/-- A text of at least one character. -/
def isFilledText : Value → Bool
  | .str text => !text.isEmpty
  | _ => false

/-- The text that a value is. -/
def text? : Value → Option String
  | .str text => some text
  | _ => none

/-- The entries of the object that a value is. -/
def block? : Value → Option Fields
  | .object block => some block
  | _ => none

/-- What an object has under a key; a missing key reads as `null`, and so does every other value. -/
def entry (v : Value) (key : String) : Value :=
  match v with
  | .object block => Fields.valueOf block key
  | _ => .null

end Value

/-- Options that are written after one keyword: the key that holds them, the keyword, and the key
and the keyword of each option in the order they are written. -/
structure OutfileSection where
  key : String
  keyword : String
  options : List (String × String)

namespace OutfileSection

/-- How the columns of a row are written. -/
def fields : OutfileSection where
  key := "$fields"
  keyword := "FIELDS"
  options := [("$terminatedBy", "TERMINATED BY"), ("$enclosedBy", "ENCLOSED BY"),
    ("$escapedBy", "ESCAPED BY")]

/-- How rows are written. -/
def lines : OutfileSection where
  key := "$lines"
  keyword := "LINES"
  options := [("$startingBy", "STARTING BY"), ("$terminatedBy", "TERMINATED BY")]

/-- The sections of a block, in the order they are written. -/
def all : List OutfileSection :=
  [fields, lines]

/-- The keys of the options. -/
def keys (s : OutfileSection) : List String :=
  s.options.map Prod.fst

/-- Whether a value gives options of the section: `null` gives none, and an object may only have
their keys, each with a text or `null`. -/
def accepts (s : OutfileSection) : Value → Bool
  | .null => true
  | .object block =>
    (Fields.keys block).all s.keys.contains &&
      s.keys.all fun key => (Fields.valueOf block key).isTextOrNull
  | _ => false

/-- The options that are given as texts, each with its keyword, in the order of the section. -/
def given (s : OutfileSection) (v : Value) : List (String × String) :=
  s.options.filterMap fun option => (v.entry option.1).text?.map fun text => (option.2, text)

/-- The words of the section after `n` bound values: none, or its keyword and then the keyword and
the placeholder of each option that is given. -/
def words (s : OutfileSection) (placeholder : Nat → String) (n : Nat) (v : Value) : List String :=
  if (s.given v).isEmpty then []
  else s.keyword :: (s.given v).mapIdx fun i option => option.1 ++ " " ++ placeholder (n + i + 1)

/-- The values that are bound for the section. -/
def values (s : OutfileSection) (v : Value) : List Value :=
  (s.given v).map fun option => .str option.2

end OutfileSection

/-- The keys of a block of file options. -/
def outfileKeys : List String :=
  ["$file", "$fields", "$lines"]

/-- Whether a value is a block of file options. -/
def isOutfileBlock : Value → Bool
  | .object block =>
    (Fields.keys block).all outfileKeys.contains &&
      ((Fields.valueOf block "$file").isFilledText &&
        (OutfileSection.fields.accepts (Fields.valueOf block "$fields") &&
          OutfileSection.lines.accepts (Fields.valueOf block "$lines")))
  | _ => false

/-- The words of a block after `n` bound values. -/
def outfileWords (placeholder : Nat → String) (n : Nat) (data : Value) : List String :=
  let columns := data.entry "$fields"
  "OUTFILE" :: placeholder (n + 1) :: OutfileSection.fields.words placeholder (n + 1) columns ++
    OutfileSection.lines.words placeholder (n + 1 + (OutfileSection.fields.given columns).length)
      (data.entry "$lines")

/-- The values that are bound for a block. -/
def outfileValues (data : Value) : List Value :=
  data.entry "$file" :: OutfileSection.fields.values (data.entry "$fields") ++
    OutfileSection.lines.values (data.entry "$lines")

/-! ## Checks that decide -/

namespace Checked

variable {α β : Type}

/-- The check gives `x` where `good` is set, and finds a problem where it is not. -/
def Decides (a : Checked α) (good : Bool) (x : α) : Prop :=
  if good then a = .ok x else ∃ problems, problems ≠ [] ∧ a = .error problems

namespace Decides

variable {a : Checked α} {b : Checked β} {good good' : Bool} {x : α} {y : β}

/-- Two checks together decide whether both parts are good. -/
theorem and (ha : a.Decides good x) (hb : b.Decides good' y) :
    (a.and b).Decides (good && good') (x, y) := by
  cases good with
  | true =>
    cases ha
    cases good' with
    | true =>
      cases hb
      rfl
    | false =>
      obtain ⟨problems, hne, rfl⟩ := hb
      exact ⟨problems, hne, rfl⟩
  | false =>
    obtain ⟨problems, hne, rfl⟩ := ha
    cases good' with
    | true =>
      cases hb
      exact ⟨problems, hne, rfl⟩
    | false =>
      obtain ⟨problems', -, rfl⟩ := hb
      exact ⟨problems ++ problems', List.append_ne_nil_of_left_ne_nil hne _, rfl⟩

/-- What is made of a checked part is good if the part is. -/
theorem map (ha : a.Decides good x) (f : α → β) : Decides (Except.map f a) good (f x) := by
  cases good with
  | true =>
    cases ha
    rfl
  | false =>
    obtain ⟨problems, hne, rfl⟩ := ha
    exact ⟨problems, hne, rfl⟩

/-- A check whose own result is not used can still fail the other one. -/
theorem guardedBy {b : Checked Unit} (ha : a.Decides good x) (hb : b.Decides good' ()) :
    (a.guardedBy b).Decides (good && good') x :=
  (ha.and hb).map Prod.fst

/-- Telling problems by a longer path decides the same. -/
theorem under (ha : a.Decides good x) (key : String) : (a.under key).Decides good x := by
  cases good with
  | true =>
    cases ha
    rfl
  | false =>
    obtain ⟨problems, hne, rfl⟩ := ha
    exact ⟨problems.map (Problem.under key), by simpa using hne, rfl⟩

/-- A problem is never good. -/
theorem problem {kind : ProblemKind} {path : List String} {input : Value} {x : α} :
    (Checked.problem kind path input : Checked α).Decides false x :=
  ⟨_, List.cons_ne_nil _ _, rfl⟩

end Decides

end Checked

/-- A text that may be missing: a text or `null`. -/
theorem optionalText_decides (block : Fields) (key : String) :
    (optionalText block key).Decides (block.valueOf key).isTextOrNull
      (block.valueOf key).text? := by
  rw [optionalText, Fields.valueOf_eq]
  cases block.get? key with
  | none => rfl
  | some v =>
    cases v with
    | null | str text => rfl
    | bool flag | int number | float number | list items | object fields => exact .problem

/-- A text that has to be given, and not to be empty. -/
theorem requiredText_decides (block : Fields) (key : String) :
    (requiredText block key).Decides (block.valueOf key).isFilledText
      ((block.valueOf key).text?.getD "") := by
  rw [requiredText, Fields.valueOf_eq]
  cases block.get? key with
  | none => exact .problem
  | some v =>
    cases v with
    | str text =>
      simp only [Option.getD_some, filledText, Value.isFilledText, Value.text?]
      cases text.isEmpty with
      | true => exact .problem
      | false => rfl
    | null | bool flag | int number | float number | list items | object fields =>
      exact .problem

/-- Keys that are not declared are the only ones that fail. -/
theorem unexpectedKeys_decides (block : Fields) (declared : List String) :
    (unexpectedKeys block declared).Decides (block.keys.all declared.contains) () := by
  have hnone : (block.filter fun entry => !declared.contains entry.1) = [] ↔
      block.keys.all declared.contains = true := by
    simp [Fields.keys, List.filter_eq_nil_iff]
  unfold unexpectedKeys
  split
  · rename_i hproblems
    rw [hnone.1 (List.map_eq_nil_iff.1 hproblems)]
    rfl
  · rename_i hproblems
    have hsome : block.keys.all declared.contains = false := by
      rw [Bool.eq_false_iff]
      exact fun hall => hproblems (List.map_eq_nil_iff.2 (hnone.2 hall))
    rw [hsome]
    exact ⟨_, hproblems, rfl⟩

/-- A block inside another one. -/
theorem optionalBlock_decides {α : Type} (s : OutfileSection) {check : Fields → Checked α}
    {options : Fields → α} (block : Fields) (name : String)
    (hcheck : ∀ inner, (check inner).Decides (s.accepts (.object inner)) (options inner)) :
    (optionalBlock block s.key name check).Decides (s.accepts (block.valueOf s.key))
      ((block.valueOf s.key).block?.map options) := by
  rw [optionalBlock, Fields.valueOf_eq]
  cases block.get? s.key with
  | none => rfl
  | some v =>
    cases v with
    | object inner => exact ((hcheck inner).under s.key).map some
    | null => rfl
    | bool flag | int number | float number | str text | list items => exact .problem

/-! ## The blocks of a file -/

/-- The options of the columns that an object gives. -/
def FieldOptions.ofBlock (block : Fields) : FieldOptions :=
  ⟨(block.valueOf "$terminatedBy").text?, (block.valueOf "$enclosedBy").text?,
    (block.valueOf "$escapedBy").text?⟩

/-- The options of the rows that an object gives. -/
def LineOptions.ofBlock (block : Fields) : LineOptions :=
  ⟨(block.valueOf "$startingBy").text?, (block.valueOf "$terminatedBy").text?⟩

/-- The options of a file that an object gives. -/
def OutfileOptions.ofBlock (block : Fields) : OutfileOptions :=
  ⟨(block.valueOf "$file").text?.getD "", (block.valueOf "$fields").block?.map FieldOptions.ofBlock,
    (block.valueOf "$lines").block?.map LineOptions.ofBlock⟩

/-- The check of the options for the columns of a row. -/
theorem FieldOptions.checkFields_decides (block : Fields) :
    (FieldOptions.checkFields block).Decides (OutfileSection.fields.accepts (.object block))
      (FieldOptions.ofBlock block) := by
  have hgood : OutfileSection.fields.accepts (.object block) =
      (((block.valueOf "$terminatedBy").isTextOrNull &&
          ((block.valueOf "$enclosedBy").isTextOrNull &&
            (block.valueOf "$escapedBy").isTextOrNull)) &&
        block.keys.all ["$terminatedBy", "$enclosedBy", "$escapedBy"].contains) := by
    rw [Bool.and_comm]
    simp [OutfileSection.accepts, OutfileSection.keys, OutfileSection.fields]
  rw [hgood]
  exact (((optionalText_decides block _).and ((optionalText_decides block _).and
    (optionalText_decides block _))).guardedBy (unexpectedKeys_decides block _)).map _

/-- The check of the options for rows. -/
theorem LineOptions.checkFields_decides (block : Fields) :
    (LineOptions.checkFields block).Decides (OutfileSection.lines.accepts (.object block))
      (LineOptions.ofBlock block) := by
  have hgood : OutfileSection.lines.accepts (.object block) =
      (((block.valueOf "$startingBy").isTextOrNull &&
          (block.valueOf "$terminatedBy").isTextOrNull) &&
        block.keys.all ["$startingBy", "$terminatedBy"].contains) := by
    rw [Bool.and_comm]
    simp [OutfileSection.accepts, OutfileSection.keys, OutfileSection.lines]
  rw [hgood]
  exact (((optionalText_decides block _).and (optionalText_decides block _)).guardedBy
    (unexpectedKeys_decides block _)).map _

/-- **A value is accepted exactly if it is a block of file options.** -/
theorem OutfileOptions.check_decides (data : Value) :
    (OutfileOptions.check data).Decides (isOutfileBlock data)
      (OutfileOptions.ofBlock (data.block?.getD [])) := by
  cases data with
  | object block =>
    rw [isOutfileBlock, Bool.and_comm]
    exact (((requiredText_decides block _).and
      ((optionalBlock_decides .fields block _ FieldOptions.checkFields_decides).and
        (optionalBlock_decides .lines block _ LineOptions.checkFields_decides))).guardedBy
      (unexpectedKeys_decides block _)).map _
  | null | bool flag | int number | float number | str text | list items =>
    exact .problem

/-- A text that is not empty is read off and put back. -/
theorem Value.str_of_isFilledText {v : Value} (h : v.isFilledText = true) :
    .str (v.text?.getD "") = v := by
  cases v with
  | str text => rfl
  | null | bool flag | int number | float number | list items | object fields => cases h

/-- A block of file options is an object, and the text under `$file` is the name of the file. -/
theorem exists_of_isOutfileBlock {data : Value} (h : isOutfileBlock data = true) :
    ∃ block : Fields, data = .object block ∧
      .str (OutfileOptions.ofBlock block).file = block.valueOf "$file" := by
  cases data with
  | object block =>
    simp only [isOutfileBlock, Bool.and_eq_true] at h
    exact ⟨block, rfl, Value.str_of_isFilledText h.2.1⟩
  | null | bool flag | int number | float number | str text | list items => cases h

/-! ## Blocks that say the same -/

namespace Fields

theorem valueOf_cons_self (key : String) (v : Value) (rest : Fields) :
    valueOf ((key, v) :: rest) key = v := by
  rw [valueOf_eq, get?_cons, if_pos rfl, Option.getD_some]

theorem valueOf_cons_of_ne {key other : String} (h : key ≠ other) (v : Value) (rest : Fields) :
    valueOf ((other, v) :: rest) key = valueOf rest key := by
  rw [valueOf_eq, get?_cons, if_neg h, valueOf_eq]

end Fields

namespace OutfileSection

variable {s s' : OutfileSection}

theorem fields_mem : fields ∈ all := List.mem_cons_self

theorem lines_mem : lines ∈ all := List.mem_cons_of_mem _ List.mem_cons_self

/-- The words of a section depend on the options that are given. -/
theorem words_congr {v v' : Value} (h : s.given v = s.given v') (placeholder : Nat → String)
    (n : Nat) : s.words placeholder n v = s.words placeholder n v' := by
  rw [words, words, h]

/-- The sections are not stored where the name of the file is. -/
theorem key_ne_file (hs : s ∈ all) : s.key ≠ "$file" := by
  simp only [all, List.mem_cons, List.not_mem_nil, or_false] at hs
  rcases hs with rfl | rfl <;> decide

/-- Each section has a key of its own. -/
theorem eq_of_key_eq (hs : s ∈ all) (hs' : s' ∈ all) (h : s.key = s'.key) : s = s' := by
  simp only [all, List.mem_cons, List.not_mem_nil, or_false] at hs hs'
  rcases hs with rfl | rfl <;> rcases hs' with rfl | rfl
  · rfl
  · exact absurd h (by decide)
  · exact absurd h (by decide)
  · rfl

end OutfileSection

/-- The entries of a block are put into another order, and declared keys that are `null` are added
or removed, any number of times. -/
inductive Fields.SameEntries (declared : List String) : Fields → Fields → Prop where
  | permute {block block' : Fields} (distinct : block.keys.Nodup) (h : block.Perm block') :
      SameEntries declared block block'
  | add {block : Fields} {key : String} (known : key ∈ declared) :
      SameEntries declared block (block ++ [(key, .null)])
  | remove {block : Fields} {key : String} (known : key ∈ declared) :
      SameEntries declared (block ++ [(key, .null)]) block
  | trans {block block' block'' : Fields} (first : SameEntries declared block block')
      (second : SameEntries declared block' block'') : SameEntries declared block block''

namespace Fields.SameEntries

variable {declared : List String} {block block' : Fields}

/-- Blocks with the same entries have the same value under every key. -/
theorem valueOf_eq (h : SameEntries declared block block') (key : String) :
    block.valueOf key = block'.valueOf key := by
  induction h with
  | permute distinct h => rw [Fields.valueOf_eq, Fields.valueOf_eq, get?_perm h distinct]
  | add _ => exact (valueOf_append_null _ _ _).symm
  | remove _ => exact valueOf_append_null _ _ _
  | trans _ _ ih₁ ih₂ => exact ih₁.trans ih₂

/-- Whether there is a key that is not declared does not depend on the order of keys. -/
theorem all_keys_eq (h : SameEntries declared block block') :
    block.keys.all declared.contains = block'.keys.all declared.contains := by
  induction h with
  | permute _ h => exact (h.map Prod.fst).all_eq
  | add known => simp [keys, known]
  | remove known => simp [keys, known]
  | trans _ _ ih₁ ih₂ => exact ih₁.trans ih₂

/-- So a section accepts both of two such blocks, or neither. -/
theorem accepts_eq {s : OutfileSection} (h : SameEntries s.keys block block') :
    s.accepts (.object block) = s.accepts (.object block') := by
  simp only [OutfileSection.accepts, h.all_keys_eq, h.valueOf_eq]

/-- The options that are given are the same ones, in the order of the section. -/
theorem given_eq {s : OutfileSection} (h : SameEntries s.keys block block') :
    s.given (.object block) = s.given (.object block') := by
  simp only [OutfileSection.given, Value.entry, h.valueOf_eq]

end Fields.SameEntries

/-- Blocks of file options that say the same: they differ in the order of their keys, in keys that
are `null`, and so do the blocks in them. -/
inductive SameOptions : Fields → Fields → Prop where
  | entries {block block' : Fields} (h : block.SameEntries outfileKeys block') :
      SameOptions block block'
  | inside {s : OutfileSection} {inner inner' rest : Fields} (hs : s ∈ OutfileSection.all)
      (h : inner.SameEntries s.keys inner') :
      SameOptions ((s.key, .object inner) :: rest) ((s.key, .object inner') :: rest)
  | trans {block block' block'' : Fields} (first : SameOptions block block')
      (second : SameOptions block' block'') : SameOptions block block''

namespace SameOptions

variable {block block' : Fields}

theorem all_keys_eq (h : SameOptions block block') :
    block.keys.all outfileKeys.contains = block'.keys.all outfileKeys.contains := by
  induction h with
  | entries h => exact h.all_keys_eq
  | inside _ _ => rfl
  | trans _ _ ih₁ ih₂ => exact ih₁.trans ih₂

/-- The file of both blocks is the same. -/
theorem file_eq (h : SameOptions block block') :
    block.valueOf "$file" = block'.valueOf "$file" := by
  induction h with
  | entries h => exact h.valueOf_eq _
  | inside hs _ =>
    have hne := OutfileSection.key_ne_file hs
    rw [Fields.valueOf_cons_of_ne hne.symm, Fields.valueOf_cons_of_ne hne.symm]
  | trans _ _ ih₁ ih₂ => exact ih₁.trans ih₂

/-- What a section reads of two blocks that say the same. -/
theorem section_eq (h : SameOptions block block') {s : OutfileSection}
    (hs : s ∈ OutfileSection.all) :
    s.accepts (block.valueOf s.key) = s.accepts (block'.valueOf s.key) ∧
      s.given (block.valueOf s.key) = s.given (block'.valueOf s.key) := by
  induction h with
  | entries h =>
    rw [h.valueOf_eq]
    exact ⟨rfl, rfl⟩
  | @inside s' inner inner' rest hs' h =>
    by_cases hkey : s.key = s'.key
    · obtain rfl := OutfileSection.eq_of_key_eq hs hs' hkey
      rw [Fields.valueOf_cons_self, Fields.valueOf_cons_self]
      exact ⟨h.accepts_eq, h.given_eq⟩
    · rw [Fields.valueOf_cons_of_ne hkey, Fields.valueOf_cons_of_ne hkey]
      exact ⟨rfl, rfl⟩
  | trans _ _ ih₁ ih₂ => exact ⟨ih₁.1.trans ih₂.1, ih₁.2.trans ih₂.2⟩

/-- Two blocks with the same options are accepted together. -/
theorem isOutfileBlock_eq (h : SameOptions block block') :
    isOutfileBlock (.object block) = isOutfileBlock (.object block') := by
  have hfields : OutfileSection.fields.accepts (block.valueOf "$fields") =
      OutfileSection.fields.accepts (block'.valueOf "$fields") :=
    (h.section_eq OutfileSection.fields_mem).1
  have hlines : OutfileSection.lines.accepts (block.valueOf "$lines") =
      OutfileSection.lines.accepts (block'.valueOf "$lines") :=
    (h.section_eq OutfileSection.lines_mem).1
  rw [isOutfileBlock, isOutfileBlock, h.all_keys_eq, h.file_eq, hfields, hlines]

theorem given_fields_eq (h : SameOptions block block') :
    OutfileSection.fields.given (block.valueOf "$fields") =
      OutfileSection.fields.given (block'.valueOf "$fields") :=
  (h.section_eq OutfileSection.fields_mem).2

theorem given_lines_eq (h : SameOptions block block') :
    OutfileSection.lines.given (block.valueOf "$lines") =
      OutfileSection.lines.given (block'.valueOf "$lines") :=
  (h.section_eq OutfileSection.lines_mem).2

/-- They are written in the same words. -/
theorem outfileWords_eq (h : SameOptions block block') (placeholder : Nat → String) (n : Nat) :
    outfileWords placeholder n (.object block) = outfileWords placeholder n (.object block') := by
  rw [outfileWords, outfileWords]
  simp only [Value.entry, OutfileSection.words_congr h.given_fields_eq,
    OutfileSection.words_congr h.given_lines_eq, h.given_fields_eq]

/-- And they bind the same values, in the same order. -/
theorem outfileValues_eq (h : SameOptions block block') :
    outfileValues (.object block) = outfileValues (.object block') := by
  simp only [outfileValues, OutfileSection.values, Value.entry, h.file_eq, h.given_fields_eq,
    h.given_lines_eq]

end SameOptions

/-! ## Words and placeholders -/

namespace Rendering

variable {α β : Type} {placeholder : Nat → String} {answer : Call → Compile String}

/-- Two programs that succeed one after the other. -/
theorem run_bind_eq_ok {x : Rendering α} {f : α → Rendering β} {s s₁ s₂ : Array Value} {a : α}
    {b : β} (hx : (x.run placeholder answer).run.run s = (.ok a, s₁))
    (hf : ((f a).run placeholder answer).run.run s₁ = (.ok b, s₂)) :
    ((x >>= f).run placeholder answer).run.run s = (.ok b, s₂) := by
  rw [run_andThen, bind_eq_ok_iff]
  exact ⟨a, s₁, hx, hf⟩

end Rendering

open Rendering (run_bind_eq_ok run_bound_eq_ok_iff run_map_eq_ok_iff)

namespace Operator

variable (placeholder : Nat → String) (answer : Call → Rendering.Compile String)

/-- The options that are given, each with its keyword. -/
def givenClauses (options : List (String × Option String)) : List (String × String) :=
  options.filterMap fun option => option.2.map fun text => (option.1, text)

/-- The options that are given are bound in their order, and each placeholder stands after its
keyword. -/
theorem run_optionClauses (options : List (String × Option String)) (binder : Array Value) :
    ((optionClauses options).run placeholder answer).run.run binder =
      (.ok ((givenClauses options).mapIdx fun i option =>
          option.1 ++ " " ++ placeholder (binder.size + i + 1)),
        binder ++ ((givenClauses options).map fun option => Value.str option.2).toArray) := by
  induction options generalizing binder with
  | nil => exact Prod.ext rfl Array.append_empty.symm
  | cons option rest ih =>
    obtain ⟨keyword, _ | text⟩ := option
    · exact ih binder
    · have hgiven : givenClauses ((keyword, some text) :: rest) =
          (keyword, text) :: givenClauses rest := rfl
      -- one more value is bound before the rest, so its count starts one later
      have hshift : ∀ i, (binder.push (.str text)).size + i + 1 = binder.size + (i + 1) + 1 := by
        intro i
        rw [Array.size_push]
        omega
      have hrest := ih (binder.push (.str text))
      simp only [hshift, List.push_append_toArray] at hrest
      rw [hgiven, List.mapIdx_cons, List.map_cons]
      exact run_bind_eq_ok (run_bound_eq_ok_iff.2 ⟨rfl, rfl⟩)
        (run_map_eq_ok_iff.2 ⟨_, hrest, rfl⟩)

/-- The options of a keyword, nothing if none is given. -/
theorem run_optionGroup (keyword : String) (options : List (String × Option String))
    (binder : Array Value) :
    ((optionGroup keyword options).run placeholder answer).run.run binder =
      (.ok (if (givenClauses options).isEmpty then []
        else keyword :: (givenClauses options).mapIdx fun i option =>
          option.1 ++ " " ++ placeholder (binder.size + i + 1)),
        binder ++ ((givenClauses options).map fun option => Value.str option.2).toArray) := by
  refine run_map_eq_ok_iff.2 ⟨_, run_optionClauses placeholder answer options binder, ?_⟩
  simp only [List.isEmpty_iff, List.mapIdx_eq_nil_iff]

/-- Rendering the options for columns gives their words and binds their values. -/
theorem run_fieldClauses (v : Value) (binder : Array Value) :
    ((fieldClauses (v.block?.map FieldOptions.ofBlock)).run placeholder answer).run.run binder =
      (.ok (OutfileSection.fields.words placeholder binder.size v),
        binder ++ (OutfileSection.fields.values v).toArray) := by
  cases v with
  | object block => exact run_optionGroup placeholder answer _ _ binder
  | null | bool flag | int number | float number | str text | list items =>
    exact Prod.ext rfl Array.append_empty.symm

/-- Rendering the options for rows gives their words and binds their values. -/
theorem run_lineClauses (v : Value) (binder : Array Value) :
    ((lineClauses (v.block?.map LineOptions.ofBlock)).run placeholder answer).run.run binder =
      (.ok (OutfileSection.lines.words placeholder binder.size v),
        binder ++ (OutfileSection.lines.values v).toArray) := by
  cases v with
  | object block => exact run_optionGroup placeholder answer _ _ binder
  | null | bool flag | int number | float number | str text | list items =>
    exact Prod.ext rfl Array.append_empty.symm

/-- A block of file options is written, and all its texts are bound. -/
theorem run_outfileClause_of_block {data : Value} (h : isOutfileBlock data = true)
    (binder : Array Value) :
    ((outfileClause data).run placeholder answer).run.run binder =
      (.ok (" ".intercalate (outfileWords placeholder binder.size data)),
        binder ++ (outfileValues data).toArray) := by
  obtain ⟨block, rfl, hfile⟩ := exists_of_isOutfileBlock h
  have hcheck := OutfileOptions.check_decides (.object block)
  rw [h] at hcheck
  replace hcheck : OutfileOptions.check (.object block) = .ok (.ofBlock block) := hcheck
  let file : Value := .str (OutfileOptions.ofBlock block).file
  let columns := OutfileSection.fields.values (block.valueOf "$fields")
  -- each part counts its placeholders from the values that are bound before it
  have hfields := run_fieldClauses placeholder answer (block.valueOf "$fields") (binder.push file)
  have hlines := run_lineClauses placeholder answer (block.valueOf "$lines")
    (binder.push file ++ columns.toArray)
  have hcolumns : (binder.push file ++ columns.toArray).size =
      binder.size + 1 + (OutfileSection.fields.given (block.valueOf "$fields")).length := by
    simp only [columns, OutfileSection.values, Array.size_append, Array.size_push,
      List.size_toArray, List.length_map]
  have hvalues : binder ++ (outfileValues (.object block)).toArray =
      binder.push file ++ columns.toArray ++
        (OutfileSection.lines.values (block.valueOf "$lines")).toArray := by
    simp [outfileValues, columns, file, Value.entry, hfile]
  rw [Array.size_push] at hfields
  rw [hcolumns] at hlines
  rw [outfileClause, hcheck, hvalues]
  exact run_bind_eq_ok (run_bound_eq_ok_iff.2 ⟨rfl, rfl⟩)
    (run_bind_eq_ok hfields (run_map_eq_ok_iff.2 ⟨_, hlines, rfl⟩))

/-- Nothing is bound for any other value. -/
theorem run_outfileClause_of_not_block {data : Value} (h : isOutfileBlock data = false)
    (binder : Array Value) :
    ∃ problems, problems ≠ [] ∧
      ((outfileClause data).run placeholder answer).run.run binder =
        (.error (.badBlock "$outfile" problems), binder) := by
  have hcheck := OutfileOptions.check_decides data
  rw [h] at hcheck
  obtain ⟨problems, hne, hproblems⟩ := hcheck
  refine ⟨problems, hne, ?_⟩
  rw [outfileClause, hproblems]
  rfl

/-- Blocks that say the same are written alike, or both are refused. -/
theorem sameOutcome_outfileClause {block block' : Fields} (h : SameOptions block block')
    (binder : Array Value) :
    SameOutcome (((outfileClause (.object block)).run placeholder answer).run.run binder)
      (((outfileClause (.object block')).run placeholder answer).run.run binder) := by
  intro text values
  have hblock' := h.isOutfileBlock_eq
  cases hblock : isOutfileBlock (.object block) with
  | true =>
    rw [hblock] at hblock'
    rw [run_outfileClause_of_block placeholder answer hblock,
      run_outfileClause_of_block placeholder answer hblock'.symm, h.outfileWords_eq,
      h.outfileValues_eq]
  | false =>
    rw [hblock] at hblock'
    obtain ⟨_, -, hrun⟩ := run_outfileClause_of_not_block placeholder answer hblock binder
    obtain ⟨_, -, hrun'⟩ := run_outfileClause_of_not_block placeholder answer hblock'.symm binder
    rw [hrun, hrun']
    constructor <;> rintro ⟨⟩

/-- **A block of file options is written in a fixed order, and anything else is refused.**  For a
block its words are written and its values are bound; for any other value there is a problem, and
nothing is bound.  Neither the order of keys nor a key that is `null` makes a difference. -/
theorem outfileClause_outcome :
    let outcome := fun data binder => ((outfileClause data).run placeholder answer).run.run binder
    (∀ data binder, isOutfileBlock data = true →
      outcome data binder = (.ok (" ".intercalate (outfileWords placeholder binder.size data)),
        binder ++ (outfileValues data).toArray)) ∧
    (∀ data binder, isOutfileBlock data = false → ∃ problems, problems ≠ [] ∧
      outcome data binder = (.error (.badBlock "$outfile" problems), binder)) ∧
    (∀ block block' binder, SameOptions block block' →
      SameOutcome (outcome (.object block) binder) (outcome (.object block') binder)) := by
  refine ⟨?_, ?_, ?_⟩
  · exact fun data binder h => run_outfileClause_of_block placeholder answer h binder
  · exact fun data binder h => run_outfileClause_of_not_block placeholder answer h binder
  · exact fun block block' binder h => sameOutcome_outfileClause placeholder answer h binder

/-- Options in no particular order, one of them `null` and one empty. -/
def scatteredFile : Fields :=
  [("$lines", .object [("$terminatedBy", .str "\n"), ("$startingBy", .str "")]),
    ("$fields", .object [("$terminatedBy", .str ","), ("$enclosedBy", .null)]),
    ("$file", .str "rows.csv")]

/-- The same options in the order they are written. -/
def orderedFile : Fields :=
  [("$file", .str "rows.csv"), ("$fields", .object [("$terminatedBy", .str ",")]),
    ("$lines", .object [("$startingBy", .str ""), ("$terminatedBy", .str "\n")])]

theorem scatteredFile_sameOptions : SameOptions scatteredFile orderedFile :=
  -- first the two blocks inside, each at the head of the options
  .trans (.inside OutfileSection.lines_mem (.permute (by decide) (.swap _ _ _)))
    (.trans (.entries (.permute (by decide) (.swap _ _ _)))
      (.trans
        (.inside OutfileSection.fields_mem
          (@Fields.SameEntries.remove _ [("$terminatedBy", .str ",")] "$enclosedBy" (by decide)))
        (.entries (.permute (by decide) (@List.perm_append_comm _ [_, _] [_])))))

/-- The scattered options are written like the ordered ones, and a bare name is refused. -/
theorem outfileClause_outcome_scatteredFile :
    let outcome := fun data =>
      ((outfileClause data).run Placeholder.numbered fun _ => throw .tooDeep).run.run #[.int 7]
    isOutfileBlock (.object orderedFile) = true ∧ SameOptions scatteredFile orderedFile ∧
      outcome (.object scatteredFile) =
        (.ok "OUTFILE $2 FIELDS TERMINATED BY $3 LINES STARTING BY $4 TERMINATED BY $5",
          #[.int 7, .str "rows.csv", .str ",", .str "", .str "\n"]) ∧
      isOutfileBlock (.str "rows.csv") = false ∧
      ∃ problems, problems ≠ [] ∧
        outcome (.str "rows.csv") = (.error (.badBlock "$outfile" problems), #[.int 7]) := by
  have hordered : isOutfileBlock (.object orderedFile) = true := by decide
  have hbare : isOutfileBlock (.str "rows.csv") = false := rfl
  obtain ⟨hwritten, hrefused, hsame⟩ :=
    outfileClause_outcome Placeholder.numbered fun _ => throw .tooDeep
  refine ⟨hordered, scatteredFile_sameOptions, ?_, hbare, hrefused _ _ hbare⟩
  exact (hsame _ _ #[.int 7] scatteredFile_sameOptions _ _).2 (hwritten _ #[.int 7] hordered)

end Operator

end QueryTree
