import Mathlib.Data.List.Chain
import QueryTree.Identifier

/-!
# Tokens of a statement

How the text of a statement is read, from left to right and character by character: a quoted name is
one token whatever it holds, a word goes on as long as it can, and every other character stands for
itself.

* `Sql.Token` is a token, `Token.write` its text between the quotes of a dialect.
* `Sql.lex` reads a text.  A mark that is doubled inside a quoted name stands for itself; a dollar
  sign with digits after it is one token, unless it stands inside a word.
* `Token.isPlaceholder` picks the tokens that have the shape of a placeholder.
* `Sql.nest` counts parentheses and fails where one is closed that was not opened.
* **`Sql.lex_write`** : tokens that are proper (`Sql.Proper`) are read back from their text.
-/

namespace QueryTree.Sql

/-- A token of a statement. -/
inductive Token where
  /-- A quoted name; its marks stand once. -/
  | quoted (body : List Char)
  /-- A keyword, a function, a type or a variable. -/
  | word (text : List Char)
  /-- A dollar sign and the digits after it. -/
  | slot (digits : List Char)
  /-- Any other character. -/
  | symbol (c : Char)
  deriving Repr, DecidableEq

/-- Whether a character starts a word. -/
def isWordStart (c : Char) : Bool :=
  c.isAlpha || c == '_'

/-- Whether a character goes on a word. -/
def isWordChar (c : Char) : Bool :=
  c.isAlphanum || c == '_' || c == '$' || c == '.'

namespace Token

/-- The text of a token; a name is quoted with `mark`. -/
def write (mark : Char) : Token → List Char
  | .quoted body => mark :: QuoteStyle.double mark body ++ [mark]
  | .word text => text
  | .slot digits => '$' :: digits
  | .symbol c => [c]

/-- A question mark, or a dollar sign with digits. -/
def isPlaceholder : Token → Bool
  | .symbol c => c == '?'
  | .slot digits => !digits.isEmpty
  | _ => false

end Token

/-- The text of a list of tokens. -/
def write (mark : Char) (ts : List Token) : List Char :=
  ts.flatMap (Token.write mark)

/-- The tokens of the shape of a placeholder, in order. -/
def placeholders (ts : List Token) : List Token :=
  ts.filter Token.isPlaceholder

/-- The depth of parentheses after some tokens, if it never falls below zero. -/
def nest : Nat → List Token → Option Nat
  | depth, [] => some depth
  | depth, .symbol c :: rest =>
    if c = '(' then nest (depth + 1) rest
    else if c = ')' then
      match depth with
      | 0 => none
      | depth + 1 => nest depth rest
    else nest depth rest
  | depth, _ :: rest => nest depth rest

/-! ## Reading -/

/-- What is being read; the characters read so far come last one first. -/
inductive Mode where
  | gap
  | word (read : List Char)
  | slot (read : List Char)
  | quoted (read : List Char)
  /-- A mark was read inside a quoted name: it ends the name unless another one follows. -/
  | closing (read : List Char)

namespace Mode

/-- The token that ends here. -/
def close : Mode → List Token
  | .gap => []
  | .word read => [.word read.reverse]
  | .slot read => [.slot read.reverse]
  | .quoted read => [.quoted read.reverse]
  | .closing read => [.quoted read.reverse]

/-- What a character starts. -/
def enter (mark c : Char) : List Token × Mode :=
  if c = mark then ([], .quoted [])
  else if isWordStart c then ([], .word [c])
  else if c = '$' then ([], .slot [])
  else ([.symbol c], .gap)

/-- The mode that a character is taken into, if it goes on the token that is being read. -/
def take? (mark : Char) : Mode → Char → Option Mode
  | .gap, _ => none
  | .word read, c => if isWordChar c then some (.word (c :: read)) else none
  | .slot read, c => if c.isDigit then some (.slot (c :: read)) else none
  | .quoted read, c => if c = mark then some (.closing read) else some (.quoted (c :: read))
  | .closing read, c => if c = mark then some (.quoted (c :: read)) else none

end Mode

/-- Read a text that goes on what is being read. -/
def lexFrom (mark : Char) : Mode → List Char → List Token
  | mode, [] => mode.close
  | mode, c :: rest =>
    match mode.take? mark c with
    | some mode => lexFrom mark mode rest
    | none => mode.close ++ (Mode.enter mark c).1 ++ lexFrom mark (Mode.enter mark c).2 rest

/-- The tokens of a text whose names are quoted with `mark`. -/
def lex (mark : Char) (text : List Char) : List Token :=
  lexFrom mark .gap text

/-! ## Proper tokens -/

/-- The characters besides words, names and numbered placeholders that statements are made of. -/
def isPlain (c : Char) : Bool :=
  c.isDigit || " @.,()=!<>*?".toList.contains c

/-- The marks of the two styles of quoting. -/
def IsMark (mark : Char) : Prop :=
  mark = '\x60' ∨ mark = '"'

namespace Token

/-- Whether a token can be read back from its text. -/
def isProper : Token → Bool
  | .quoted _ => true
  | .word [] => false
  | .word (c :: rest) => isWordStart c && rest.all isWordChar
  | .slot digits => !digits.isEmpty && digits.all Char.isDigit
  | .symbol c => isPlain c

/-- Whether the text of the second token does not go on the text of the first. -/
def apart : Token → Token → Bool
  | .quoted _, .quoted _ => false
  | .word _, .word _ => false
  | .word _, .slot _ => false
  | .word _, .symbol c => !isWordChar c
  | .slot _, .symbol c => !c.isDigit
  | _, _ => true

/-- What is being read after a token. -/
def mode : Token → Mode
  | .quoted body => .closing body.reverse
  | .word text => .word text.reverse
  | .slot digits => .slot digits.reverse
  | .symbol _ => .gap

end Token

/-- Tokens that can be read back from their text. -/
structure Proper (ts : List Token) : Prop where
  all : ∀ t ∈ ts, t.isProper = true
  chain : ts.IsChain fun t t' => t.apart t' = true

/-! ## Reading back what was written -/

/-- No plain character is a quotation mark. -/
theorem IsMark.plain {mark c : Char} (hmark : IsMark mark) (h : isPlain c = true) : c ≠ mark := by
  rintro rfl
  rcases hmark with rfl | rfl <;> revert h <;> decide

theorem IsMark.wordStart {mark c : Char} (hmark : IsMark mark) (h : isWordStart c = true) :
    c ≠ mark := by
  rintro rfl
  rcases hmark with rfl | rfl <;> revert h <;> decide

theorem IsMark.wordChar {mark : Char} (hmark : IsMark mark) : isWordChar mark = false := by
  rcases hmark with rfl | rfl <;> decide

theorem IsMark.digit {mark : Char} (hmark : IsMark mark) : mark.isDigit = false := by
  rcases hmark with rfl | rfl <;> decide

theorem IsMark.dollar {mark : Char} (hmark : IsMark mark) : '$' ≠ mark := by
  rcases hmark with rfl | rfl <;> decide

/-! ### Classes of characters by their codes -/

/-- Digits by their codes. -/
theorem isDigit_iff {c : Char} : c.isDigit = true ↔ 48 ≤ c.toNat ∧ c.toNat ≤ 57 := by
  change (decide (48 ≤ c.toNat) && decide (c.toNat ≤ 57)) = true ↔ _
  rw [Bool.and_eq_true, decide_eq_true_iff, decide_eq_true_iff]

theorem isUpper_iff {c : Char} : c.isUpper = true ↔ 65 ≤ c.toNat ∧ c.toNat ≤ 90 := by
  change decide (65 ≤ c.toNat ∧ c.toNat ≤ 90) = true ↔ _
  rw [decide_eq_true_iff]

theorem isLower_iff {c : Char} : c.isLower = true ↔ 97 ≤ c.toNat ∧ c.toNat ≤ 122 := by
  change (decide (97 ≤ c.toNat) && decide (c.toNat ≤ 122)) = true ↔ _
  rw [Bool.and_eq_true, decide_eq_true_iff, decide_eq_true_iff]

theorem isAlpha_iff {c : Char} : c.isAlpha = true ↔ c.isUpper = true ∨ c.isLower = true := by
  change (c.isUpper || c.isLower) = true ↔ _
  rw [Bool.or_eq_true]

/-- A character that stands for itself starts neither a word nor a numbered placeholder. -/
theorem not_wordStart_of_isPlain {c : Char} (h : isPlain c = true) :
    isWordStart c = false ∧ c ≠ '$' := by
  simp only [isPlain, Bool.or_eq_true] at h
  rcases h with h | h
  · have hdigit := isDigit_iff.1 h
    constructor
    · refine Bool.eq_false_iff.2 fun hstart => ?_
      simp only [isWordStart, Bool.or_eq_true, isAlpha_iff, isUpper_iff, isLower_iff,
        beq_iff_eq] at hstart
      rcases hstart with (hupper | hlower) | rfl
      · omega
      · omega
      · revert hdigit
        decide
    · rintro rfl
      revert hdigit
      decide
  · have hclass : (" @.,()=!<>*?".toList.all fun c => !isWordStart c && c != '$') = true := by
      decide
    have hc := List.all_eq_true.1 hclass c (by simpa using h)
    simpa using hc

/-- Where the text does not go on what is being read, the token ends. -/
theorem lexFrom_of_not_taken {mark : Char} {mode : Mode} {text : List Char}
    (h : ∀ c ∈ text.head?, mode.take? mark c = none) :
    lexFrom mark mode text = mode.close ++ lexFrom mark .gap text := by
  cases text with
  | nil => simp [lexFrom, Mode.close]
  | cons c rest =>
    have hc : mode.take? mark c = none := h c (by simp)
    have hgap : Mode.gap.take? mark c = none := rfl
    simp only [lexFrom, hc, hgap, Mode.close, List.nil_append, List.append_assoc]

/-- A word goes on as long as its characters do. -/
theorem lexFrom_word {mark : Char} {text : List Char} (h : text.all isWordChar = true)
    (read rest : List Char) :
    lexFrom mark (.word read) (text ++ rest) =
      lexFrom mark (.word (text.reverse ++ read)) rest := by
  induction text generalizing read with
  | nil => rfl
  | cons c text ih =>
    simp only [List.all_cons, Bool.and_eq_true] at h
    have htake : Mode.take? mark (.word read) c = some (.word (c :: read)) := by
      simp [Mode.take?, h.1]
    simp only [List.cons_append, lexFrom, htake, ih h.2, List.reverse_cons, List.append_assoc,
      List.nil_append]

/-- So does the number of a placeholder. -/
theorem lexFrom_slot {mark : Char} {digits : List Char} (h : digits.all Char.isDigit = true)
    (read rest : List Char) :
    lexFrom mark (.slot read) (digits ++ rest) =
      lexFrom mark (.slot (digits.reverse ++ read)) rest := by
  induction digits generalizing read with
  | nil => rfl
  | cons c digits ih =>
    simp only [List.all_cons, Bool.and_eq_true] at h
    have htake : Mode.take? mark (.slot read) c = some (.slot (c :: read)) := by
      simp [Mode.take?, h.1]
    simp only [List.cons_append, lexFrom, htake, ih h.2, List.reverse_cons, List.append_assoc,
      List.nil_append]

/-- A quoted name is read to its closing mark, every doubled mark once. -/
theorem lexFrom_quoted (mark : Char) (body read rest : List Char) :
    lexFrom mark (.quoted read) (QuoteStyle.double mark body ++ mark :: rest) =
      lexFrom mark (.closing (body.reverse ++ read)) rest := by
  induction body generalizing read with
  | nil => simp [QuoteStyle.double, lexFrom, Mode.take?]
  | cons c body ih =>
    by_cases hc : c = mark
    · subst hc
      simp only [QuoteStyle.double, if_true, List.cons_append, lexFrom, Mode.take?, ih,
        List.reverse_cons, List.append_assoc, List.nil_append]
    · simp only [QuoteStyle.double, if_neg hc, List.cons_append, lexFrom, Mode.take?, ih,
        List.reverse_cons, List.append_assoc, List.nil_append]

/-- A proper token is read to its end. -/
theorem lexFrom_write {mark : Char} (hmark : IsMark mark) {t : Token} (ht : t.isProper = true)
    (rest : List Char) (hrest : ∀ c ∈ rest.head?, t.mode.take? mark c = none) :
    lexFrom mark .gap (t.write mark ++ rest) = t :: lexFrom mark .gap rest := by
  cases t with
  | quoted body =>
    have hopen : lexFrom mark .gap (Token.write mark (.quoted body) ++ rest) =
        lexFrom mark (.quoted []) (QuoteStyle.double mark body ++ mark :: rest) := by
      simp [Token.write, lexFrom, Mode.take?, Mode.enter, Mode.close]
    rw [hopen, lexFrom_quoted, List.append_nil]
    exact (lexFrom_of_not_taken hrest).trans (by simp [Token.mode, Mode.close])
  | word text =>
    cases text with
    | nil => cases ht
    | cons c text =>
      simp only [Token.isProper, Bool.and_eq_true] at ht
      have hopen : lexFrom mark .gap (Token.write mark (.word (c :: text)) ++ rest) =
          lexFrom mark (.word [c]) (text ++ rest) := by
        simp [Token.write, lexFrom, Mode.take?, Mode.enter, Mode.close, hmark.wordStart ht.1, ht.1]
      have hmode : Mode.word (text.reverse ++ [c]) = (Token.word (c :: text)).mode := by
        simp [Token.mode]
      rw [hopen, lexFrom_word ht.2, hmode, lexFrom_of_not_taken hrest]
      simp [Token.mode, Mode.close]
  | slot digits =>
    simp only [Token.isProper, Bool.and_eq_true] at ht
    have hopen : lexFrom mark .gap (Token.write mark (.slot digits) ++ rest) =
        lexFrom mark (.slot []) (digits ++ rest) := by
      have hstart : isWordStart '$' = false := by decide
      simp [Token.write, lexFrom, Mode.take?, Mode.enter, Mode.close, hmark.dollar, hstart]
    rw [hopen, lexFrom_slot ht.2, List.append_nil]
    exact (lexFrom_of_not_taken hrest).trans (by simp [Token.mode, Mode.close])
  | symbol c =>
    have hplain := not_wordStart_of_isPlain ht
    simp [Token.write, lexFrom, Mode.take?, Mode.enter, Mode.close, hmark.plain ht, hplain.1,
      hplain.2]

/-- The first character of a token tells its kind. -/
theorem Token.head?_write_cases {mark : Char} {t : Token} (ht : t.isProper = true) {c : Char}
    (hc : c ∈ (t.write mark).head?) :
    (∃ body, t = .quoted body ∧ c = mark) ∨ (∃ text, t = .word text ∧ isWordStart c = true) ∨
      (∃ digits, t = .slot digits ∧ c = '$') ∨ t = .symbol c ∧ isPlain c = true := by
  cases t with
  | quoted body =>
    cases hc
    exact .inl ⟨body, rfl, rfl⟩
  | word text =>
    cases text with
    | nil => cases ht
    | cons first text =>
      cases hc
      exact .inr (.inl ⟨_, rfl, (Bool.and_eq_true_iff.1 ht).1⟩)
  | slot digits =>
    cases hc
    exact .inr (.inr (.inl ⟨digits, rfl, rfl⟩))
  | symbol c' =>
    cases hc
    exact .inr (.inr (.inr ⟨rfl, ht⟩))

/-- A word does not begin with a digit. -/
theorem isDigit_eq_false_of_isWordStart {c : Char} (h : isWordStart c = true) :
    c.isDigit = false := by
  refine Bool.eq_false_iff.2 fun hdigit => ?_
  have hplain : isPlain c = true := by simp [isPlain, hdigit]
  rw [(not_wordStart_of_isPlain hplain).1] at h
  cases h

/-- The text of a token that stands apart from the one before does not go on that one. -/
theorem take?_of_apart {mark : Char} (hmark : IsMark mark) {t t' : Token}
    (ht' : t'.isProper = true) (h : t.apart t' = true) :
    ∀ c ∈ (t'.write mark).head?, t.mode.take? mark c = none := by
  intro c hc
  rcases Token.head?_write_cases ht' hc with ⟨body', rfl, rfl⟩ | ⟨text', rfl, hstart⟩ |
    ⟨digits', rfl, rfl⟩ | ⟨rfl, hplain⟩
  · cases t with
    | symbol s => rfl
    | quoted body => cases h
    | word text => simp [Token.mode, Mode.take?, hmark.wordChar]
    | slot digits => simp [Token.mode, Mode.take?, hmark.digit]
  · cases t with
    | symbol s => rfl
    | quoted body => simp [Token.mode, Mode.take?, hmark.wordStart hstart]
    | word text => cases h
    | slot digits => simp [Token.mode, Mode.take?, isDigit_eq_false_of_isWordStart hstart]
  · cases t with
    | symbol s => rfl
    | quoted body => simp [Token.mode, Mode.take?, hmark.dollar]
    | word text => cases h
    | slot digits => rfl
  · cases t with
    | symbol s => rfl
    | quoted body => simp [Token.mode, Mode.take?, hmark.plain hplain]
    | word text | slot digits => simpa [Token.mode, Mode.take?, Token.apart] using h

/-- A proper token has a first character. -/
theorem Token.exists_write_eq_cons (mark : Char) {t : Token} (ht : t.isProper = true) :
    ∃ c rest, t.write mark = c :: rest := by
  cases t with
  | quoted body => exact ⟨_, _, rfl⟩
  | word text =>
    cases text with
    | nil => cases ht
    | cons c text => exact ⟨_, _, rfl⟩
  | slot digits => exact ⟨_, _, rfl⟩
  | symbol c => exact ⟨_, _, rfl⟩

/-- A text starts with the first character of its first token. -/
theorem head?_write_cons (mark : Char) {t : Token} (ht : t.isProper = true) (rest : List Token) :
    (write mark (t :: rest)).head? = (t.write mark).head? := by
  obtain ⟨c, cs, hwrite⟩ := t.exists_write_eq_cons mark ht
  simp [write, hwrite]

/-- Proper tokens are read back from their text. -/
theorem lex_write {mark : Char} (hmark : IsMark mark) {ts : List Token} (h : Proper ts) :
    lex mark (write mark ts) = ts := by
  obtain ⟨hall, hchain⟩ := h
  unfold lex
  induction ts with
  | nil => rfl
  | cons t rest ih =>
    have hrest : ∀ c ∈ (write mark rest).head?, t.mode.take? mark c = none := by
      cases rest with
      | nil => simp [write]
      | cons t' rest =>
        rw [head?_write_cons mark (hall t' (by simp))]
        exact take?_of_apart hmark (hall t' (by simp)) (List.isChain_cons_cons.1 hchain).1
    have hwrite : write mark (t :: rest) = t.write mark ++ write mark rest := by
      simp [write]
    rw [hwrite, lexFrom_write hmark (hall t List.mem_cons_self) _ hrest,
      ih (fun t' ht' => hall t' (List.mem_cons_of_mem _ ht')) hchain.tail]

end QueryTree.Sql
