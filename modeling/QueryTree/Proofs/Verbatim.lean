import QueryTree.Operator.Definition
import QueryTree.Operator.Target
import QueryTree.Proofs.Phrases

/-!
# Texts that stand in a statement as they are

Three operators write a text of the query into the statement without quoting it: the type of a
column, its sizes, and the variables that a result is stored in.  Each of them lets only texts
through that are made of words and numbers.

* `Clause.word`, `Clause.digits` : a word and a number are clauses.
* **`clause_upper`** : a type name in capitals is a clause.
* **`clause_lengthText`** : the sizes of a type are a clause that starts with a parenthesis.
* **`clause_variable`** : the name of a variable is a clause.
-/

namespace QueryTree.Sql

variable {S : Scheme} {F : List Value} {n : Nat}

/-! ## Words and numbers -/

/-- A word that is written as it is binds nothing. -/
theorem Clause.word {cs : List Char} (h : (Token.word cs).isProper = true) :
    Clause S F n (String.ofList cs) [] :=
  .plain (.single h rfl rfl) (by simp [write, Token.write])

theorem digit_phrase {c : Char} (h : c.isDigit = true) : Phrase S n [.symbol c] 0 := by
  have hne : c ≠ '?' ∧ c ≠ '(' ∧ c ≠ ')' := by
    refine ⟨?_, ?_, ?_⟩ <;> rintro rfl <;> cases h
  exact .single (by simp [Token.isProper, isPlain, h]) (by simp [nest, hne.2])
    (by simp [Token.isPlaceholder, hne.1])

/-- Digits are symbols, and a number is several of them. -/
theorem digits_phrase {cs : List Char} (h : ∀ c ∈ cs, c.isDigit = true) :
    Phrase S n (cs.map .symbol) 0 := by
  induction cs with
  | nil => exact .plain ⟨by simp, .nil⟩ rfl rfl
  | cons c cs ih =>
    refine (digit_phrase (h c List.mem_cons_self)).append
      (ih fun c' hc' => h c' (List.mem_cons_of_mem _ hc')) fun t ht u _ => ?_
    cases ht
    rfl

/-- A number. -/
theorem Clause.digits (number : Nat) : Clause S F n (toString number) [] := by
  have hdigit : ∀ c ∈ Nat.toDigits 10 number, c.isDigit = true := fun c hc =>
    Nat.isDigit_of_mem_toDigits (by decide) (by decide) hc
  refine .plain (digits_phrase hdigit) ?_
  rw [Nat.toString_eq_ofList_toDigits, String.toList_ofList]
  simp [write, Token.write, List.flatMap_map]

/-! ## Types -/

theorem isUpper_upperChar {c : Char} (h : c.isLower = true) :
    (Text.upperChar c).isUpper = true := by
  have hc := isLower_iff.1 h
  have hvalid : (c.toNat - 32).isValidChar := by
    left
    omega
  have hupper : Text.upperChar c = Char.ofNat (c.toNat - 32) := by
    simp [Text.upperChar, hc]
  have hnat : (Char.ofNat (c.toNat - 32)).toNat = c.toNat - 32 := by
    rw [Char.ofNat, dif_pos hvalid]
    rfl
  rw [hupper, isUpper_iff]
  omega

/-- Only small letters have another capital among the characters of a word. -/
theorem upperChar_eq_self {c : Char} (h : Operator.isWordChar c = true)
    (hlower : c.isLower = false) : Text.upperChar c = c := by
  have hbelow : c.toNat < 97 := by
    simp only [Operator.isWordChar, Char.isAlphanum, Bool.or_eq_true, isAlpha_iff, isUpper_iff,
      isDigit_iff, hlower, Bool.false_eq_true, or_false, beq_iff_eq] at h
    rcases h with (hupper | hdigit) | rfl
    · omega
    · omega
    · decide
  have hcode : ¬ 97 ≤ c.toNat ∧ ¬ c.toNat = 305 ∧ ¬ c.toNat = 383 := by omega
  simp [Text.upperChar, hcode]

/-- In capitals a word stays a word. -/
theorem isWordChar_upperChar {c : Char} (h : Operator.isWordChar c = true) :
    isWordChar (Text.upperChar c) = true := by
  cases hlower : c.isLower with
  | true => simp [isWordChar, Char.isAlphanum, isAlpha_iff.2 (.inl (isUpper_upperChar hlower))]
  | false =>
    rw [upperChar_eq_self h hlower]
    simp only [Operator.isWordChar, Bool.or_eq_true] at h
    simp only [isWordChar, Bool.or_eq_true]
    exact .inl (.inl h)

theorem isWordStart_upperChar {c : Char} (h : c.isAlpha = true) :
    isWordStart (Text.upperChar c) = true := by
  cases hlower : c.isLower with
  | true => simp [isWordStart, isAlpha_iff.2 (.inl (isUpper_upperChar hlower))]
  | false =>
    rw [upperChar_eq_self (by simp [Operator.isWordChar, Char.isAlphanum, h]) hlower]
    simp [isWordStart, h]

/-- A text in capitals, word by word. -/
theorem upper_eq_intercalate (text : String) :
    Text.upper text =
      " ".intercalate ((Text.split ' ' text.toList).map fun word =>
        String.ofList (word.map Text.upperChar)) := by
  have hmap : ∀ words : List (List Char), ([' '].intercalate words).map Text.upperChar =
      [' '].intercalate (words.map (List.map Text.upperChar)) := by
    intro words
    induction words with
    | nil => rfl
    | cons word words ih =>
      cases words with
      | nil => simp [List.intercalate]
      | cons word' words =>
        have hspace : Text.upperChar ' ' = ' ' := by decide
        simpa [List.intercalate, hspace] using ih
  rw [← String.toList_inj, Text.upper, String.toList_intercalate, String.toList_ofList]
  nth_rewrite 1 [← Text.split_join ' ' text.toList]
  rw [hmap]
  simp [Function.comp_def]

/-- The name of a type, in capitals. -/
theorem clause_upper {text : String} (h : Operator.isTypeName text = true) :
    Clause S F n (Text.upper text) [] := by
  rw [upper_eq_intercalate]
  simp only [Operator.isTypeName, List.all_eq_true] at h
  refine Clauses.join (by decide) (.plain fun t ht n => ?_)
  obtain ⟨word, hword, rfl⟩ := List.mem_map.1 ht
  have htype := h word hword
  cases word with
  | nil => cases htype
  | cons c rest =>
    simp only [Operator.isTypeWord, Operator.isLetter, Bool.and_eq_true, List.all_eq_true] at htype
    refine .word ?_
    simp only [List.map_cons, Token.isProper, Bool.and_eq_true, List.all_eq_true, List.mem_map]
    refine ⟨isWordStart_upperChar htype.1, ?_⟩
    rintro _ ⟨c', hc', rfl⟩
    exact isWordChar_upperChar (htype.2 c' hc')

/-! ## Sizes -/

/-- A size is written as a number. -/
theorem sizeText?_eq {v : Value} {text : String} (h : Operator.sizeText? v = some text) :
    ∃ number : Nat, text = toString number := by
  cases v with
  | int number =>
    simp only [Operator.sizeText?] at h
    split at h
    · cases h
      cases number with
      | ofNat number => exact ⟨number, rfl⟩
      | negSucc number => omega
    · cases h
  | null | bool flag | float number | str text | list items | object fields => cases h

/-- The sizes of a type are one or two numbers. -/
theorem lengthText?_eq {v : Value} {text : String} (h : Operator.lengthText? v = some text) :
    ∃ sizes : List Nat, sizes ≠ [] ∧ text = "(" ++ commaList (sizes.map toString) ++ ")" := by
  have hone : ∀ {v : Value}, (Operator.sizeText? v).map (fun a => "(" ++ a ++ ")") = some text →
      ∃ sizes : List Nat, sizes ≠ [] ∧ text = "(" ++ commaList (sizes.map toString) ++ ")" := by
    intro v h
    obtain ⟨a, ha, rfl⟩ := Option.map_eq_some_iff.1 h
    obtain ⟨number, rfl⟩ := sizeText?_eq ha
    exact ⟨[number], by simp, by simp [commaList]⟩
  unfold Operator.lengthText? at h
  split at h
  · exact hone h
  · split at h
    · rename_i a b ha hb
      cases h
      obtain ⟨precision, rfl⟩ := sizeText?_eq ha
      obtain ⟨scale, rfl⟩ := sizeText?_eq hb
      exact ⟨[precision, scale], by simp, by simp [commaList, ← String.toList_inj]⟩
    · cases h
  · cases h
  · exact hone h

/-- The sizes of a type. -/
theorem clause_lengthText {v : Value} {text : String} (h : Operator.lengthText? v = some text) :
    Clause S F n text [] ∧ text.toList.head? = some '(' := by
  obtain ⟨sizes, -, rfl⟩ := lengthText?_eq h
  have hsizes : Clauses S F n (sizes.map toString) [] :=
    .plain (List.forall_mem_map.2 fun number _ _ => .digits number)
  exact ⟨.enclose (by decide) (hsizes.join (by decide)), by simp⟩

/-! ## Variables -/

/-- The name of a variable is one word. -/
theorem variableBody_phrase {cs : List Char} (h : Operator.isVariableBody cs = true) :
    Phrase S n [.word cs] 0 := by
  cases cs with
  | nil => cases h
  | cons c rest => exact .single h rfl rfl

theorem at_phrase {ts : List Token} (h : Phrase S n ts 0) : Phrase S n (.symbol '@' :: ts) 0 := by
  have hat : Phrase S n [.symbol '@'] 0 := .single (by decide) rfl rfl
  refine hat.append h fun t ht u _ => ?_
  cases ht
  rfl

/-- The name of a variable. -/
theorem clause_variable {text : String} (h : Operator.isVariable text = true) :
    Clause S F n text [] := by
  unfold Operator.isVariable at h
  split at h
  · rename_i rest htext
    exact .plain (at_phrase (at_phrase (variableBody_phrase h)))
      (by simp [htext, write, Token.write])
  · rename_i rest _ htext
    exact .plain (at_phrase (variableBody_phrase h)) (by simp [htext, write, Token.write])
  · exact .plain (variableBody_phrase h) (by simp [write, Token.write])

end QueryTree.Sql
