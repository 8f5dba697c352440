import QueryTree.Proofs.Phrases

/-!
# Raising the numbers of placeholders

A text with numbered placeholders can be written again with greater numbers.  This is said in two
ways: by the text itself, whose placeholders are found by reading it, and by the glyphs that the
text was put together from, some of which are placeholders.

* `Sql.raise` reads a text and raises the numbers of its placeholders.
* `Sql.Glyph` is a character or a placeholder, and `Sql.spell` writes glyphs from any first number.
* `Sql.Aligned` : two lists of tokens that are the same up to numbers, and how many placeholders
  were put into the text between them.
* **`lexFrom_spell_aligned`** : the two texts of glyphs are read as tokens that are aligned.
* **`raise_spell`** : if both texts have exactly the placeholders that were put into them, the
  greater one is the other one raised.
-/

namespace QueryTree.Sql

/-! ## Raising a text -/

/-- A token with the number of a placeholder raised. -/
def Token.raise (n : Nat) : Token → Token
  | .slot digits => .slot (Nat.toDigits 10 (Nat.ofDigitChars 10 digits 0 + n))
  | t => t

/-- The text with every number of a placeholder raised by `n`.  What stands in quotes or inside a
word is left as it is. -/
def raise (mark : Char) (n : Nat) (text : String) : String :=
  String.ofList (write mark ((lex mark text.toList).map (Token.raise n)))

theorem Token.raise_toDigits (n i : Nat) :
    Token.raise n (.slot (Nat.toDigits 10 i)) = .slot (Nat.toDigits 10 (i + n)) := by
  rw [Token.raise, Nat.ofDigitChars_ten_toDigits]

/-- Only placeholders are raised. -/
theorem Token.raise_of_not_isPlaceholder {n : Nat} {t : Token} (ht : t.isProper = true)
    (h : t.isPlaceholder = false) : t.raise n = t := by
  cases t with
  | slot digits =>
    simp only [isProper, Bool.and_eq_true] at ht
    simp [isPlaceholder] at h
    simp [h] at ht
  | quoted body | word text | symbol c => rfl

/-- A text whose placeholders have no numbers, or are raised by nothing. -/
theorem raise_eq_self {S : Scheme} {n m k : Nat} {text : String} {ts : List Token}
    (h : Spelling S m text ts k) (hself : ∀ i, (S.token i).raise n = S.token i) :
    raise S.mark n text = text := by
  have hmap : ts.map (Token.raise n) = ts := by
    refine List.map_congr_left (fun t ht => ?_) |>.trans (List.map_id ts)
    cases hslot : t.isPlaceholder with
    | false => exact Token.raise_of_not_isPlaceholder (h.phrase.proper.all t ht) hslot
    | true =>
      have hmem : t ∈ placeholders ts := List.mem_filter.2 ⟨ht, hslot⟩
      rw [h.phrase.slots, List.mem_map] at hmem
      obtain ⟨i, -, rfl⟩ := hmem
      exact hself i
  rw [raise, h.lex_eq, hmap, ← h.written, String.ofList_toList]

/-! ## Texts in glyphs -/

/-- A character, or the placeholder of a number. -/
inductive Glyph where
  | char (c : Char)
  | slot (index : Nat)

/-- A glyph, with numbers counted from `n`. -/
def Glyph.spell (n : Nat) : Glyph → List Char
  | .char c => [c]
  | .slot index => '$' :: Nat.toDigits 10 (index + n)

/-- The text of glyphs, with numbers counted from `n`. -/
def spell (n : Nat) (glyphs : List Glyph) : List Char :=
  glyphs.flatMap (Glyph.spell n)

/-- The number of placeholders among glyphs. -/
def slotCount : List Glyph → Nat
  | [] => 0
  | .char _ :: rest => slotCount rest
  | .slot _ :: rest => slotCount rest + 1

theorem slotCount_append (ps qs : List Glyph) :
    slotCount (ps ++ qs) = slotCount ps + slotCount qs := by
  induction ps with
  | nil => rw [List.nil_append, slotCount, Nat.zero_add]
  | cons glyph rest ih =>
    cases glyph with
    | char c => rw [List.cons_append, slotCount, slotCount, ih]
    | slot index =>
      rw [List.cons_append, slotCount, slotCount, ih]
      omega

theorem spell_append (n : Nat) (ps qs : List Glyph) :
    spell n (ps ++ qs) = spell n ps ++ spell n qs :=
  List.flatMap_append

theorem spell_chars (n : Nat) (text : List Char) : spell n (text.map .char) = text := by
  simp [spell, List.flatMap_map, Glyph.spell]

theorem slotCount_chars (text : List Char) : slotCount (text.map .char) = 0 := by
  induction text with
  | nil => rfl
  | cons c rest ih => simpa [slotCount] using ih

/-! ## Reading both -/

/-- Tokens that are the same but for placeholders that were put into the text.  Each of them is a
token of its own, or stands inside a word or a name. -/
inductive Aligned : Nat → List Token → List Token → Prop where
  | nil : Aligned 0 [] []
  | same {k : Nat} {ts ts' : List Token} (t : Token) (rest : Aligned k ts ts') :
      Aligned k (t :: ts) (t :: ts')
  | slot {k : Nat} {ts ts' : List Token} (digits digits' : List Char) (rest : Aligned k ts ts') :
      Aligned (k + 1) (.slot digits :: ts) (.slot digits' :: ts')
  | inside {k j : Nat} {ts ts' : List Token} {t t' : Token} (several : 0 < j)
      (kinds : t.isPlaceholder = false ∧ t'.isPlaceholder = false) (rest : Aligned k ts ts') :
      Aligned (k + j) (t :: ts) (t' :: ts')

/-- What is being read is the same but for `j` placeholders. -/
inductive Mode.Aligned : Nat → Mode → Mode → Prop where
  | same (mode : Mode) : Aligned 0 mode mode
  | slot (read read' : List Char) : Aligned 1 (.slot read) (.slot read')
  | word {j : Nat} (several : 0 < j) (read read' : List Char) : Aligned j (.word read) (.word read')
  | quoted {j : Nat} (several : 0 < j) (read read' : List Char) :
      Aligned j (.quoted read) (.quoted read')
  | closing {j : Nat} (several : 0 < j) (read read' : List Char) :
      Aligned j (.closing read) (.closing read')

theorem Aligned.append_same {k : Nat} {ts ts' : List Token} (us : List Token)
    (h : Aligned k ts ts') : Aligned k (us ++ ts) (us ++ ts') := by
  induction us with
  | nil => exact h
  | cons t us ih => exact .same t ih

namespace Mode.Aligned

variable {mark : Char} {j k : Nat} {mode mode' : Mode} {ts ts' : List Token}

/-- The token that ends, before tokens that are aligned. -/
theorem close (h : Mode.Aligned j mode mode') (hrest : Sql.Aligned k ts ts') :
    Sql.Aligned (k + j) (mode.close ++ ts) (mode'.close ++ ts') := by
  cases h with
  | same => exact hrest.append_same _
  | slot read read' => exact .slot _ _ hrest
  | word several read read' => exact .inside several ⟨rfl, rfl⟩ hrest
  | quoted several read read' => exact .inside several ⟨rfl, rfl⟩ hrest
  | closing several read read' => exact .inside several ⟨rfl, rfl⟩ hrest

/-- A character goes on what is being read in both texts, or in none. -/
theorem take? (h : Mode.Aligned j mode mode') (c : Char) :
    (∃ next next', mode.take? mark c = some next ∧ mode'.take? mark c = some next' ∧
        Mode.Aligned j next next') ∨
      mode.take? mark c = none ∧ mode'.take? mark c = none := by
  cases h with
  | same mode =>
    cases htake : mode.take? mark c with
    | none => exact .inr ⟨rfl, rfl⟩
    | some next => exact .inl ⟨next, next, rfl, rfl, .same next⟩
  | slot read read' =>
    simp only [Mode.take?]
    split
    · exact .inl ⟨_, _, rfl, rfl, .slot _ _⟩
    · exact .inr ⟨rfl, rfl⟩
  | word several read read' =>
    simp only [Mode.take?]
    split
    · exact .inl ⟨_, _, rfl, rfl, .word several _ _⟩
    · exact .inr ⟨rfl, rfl⟩
  | quoted several read read' =>
    simp only [Mode.take?]
    split
    · exact .inl ⟨_, _, rfl, rfl, .closing several _ _⟩
    · exact .inl ⟨_, _, rfl, rfl, .quoted several _ _⟩
  | closing several read read' =>
    simp only [Mode.take?]
    split
    · exact .inl ⟨_, _, rfl, rfl, .quoted several _ _⟩
    · exact .inr ⟨rfl, rfl⟩

end Mode.Aligned

/-- Inside a name everything but its mark is taken. -/
theorem lexFrom_inside_name {mark : Char} {text : List Char} (h : mark ∉ text)
    (read rest : List Char) :
    lexFrom mark (.quoted read) (text ++ rest) =
      lexFrom mark (.quoted (text.reverse ++ read)) rest := by
  induction text generalizing read with
  | nil => rfl
  | cons c text ih =>
    rw [List.mem_cons, not_or] at h
    have htake : Mode.take? mark (.quoted read) c = some (.quoted (c :: read)) := by
      simp [Mode.take?, Ne.symm h.1]
    simp only [List.cons_append, lexFrom, htake, ih h.2, List.reverse_cons, List.append_assoc,
      List.nil_append]

theorem isDigit_toDigits (i : Nat) : (Nat.toDigits 10 i).all Char.isDigit = true :=
  List.all_eq_true.2 fun _ hc => Nat.isDigit_of_mem_toDigits (by decide) (by decide) hc

/-- A placeholder can stand inside a word. -/
theorem isWordChar_placeholder (i : Nat) : ('$' :: Nat.toDigits 10 i).all isWordChar = true := by
  refine List.all_eq_true.2 fun c hc => ?_
  rcases List.mem_cons.1 hc with rfl | hc
  · decide
  · simp [isWordChar, Char.isAlphanum, List.all_eq_true.1 (isDigit_toDigits i) c hc]

theorem IsMark.not_mem_placeholder {mark : Char} (hmark : IsMark mark) (i : Nat) :
    mark ∉ '$' :: Nat.toDigits 10 i := by
  intro hmem
  have hword := List.all_eq_true.1 (isWordChar_placeholder i) mark hmem
  rw [hmark.wordChar] at hword
  cases hword

/-- A placeholder that no token takes is a token of its own. -/
theorem lexFrom_placeholder {mark : Char} (hmark : IsMark mark) {mode : Mode} {i : Nat}
    (hmode : mode.take? mark '$' = none) (rest : List Char) :
    lexFrom mark mode (('$' :: Nat.toDigits 10 i) ++ rest) =
      mode.close ++ lexFrom mark (.slot (Nat.toDigits 10 i).reverse) rest := by
  have henter : Mode.enter mark '$' = ([], .slot []) := by
    simp [Mode.enter, hmark.dollar, isWordStart]
  rw [List.cons_append, lexFrom, hmode]
  simp only [henter, List.append_nil]
  rw [lexFrom_slot (isDigit_toDigits i), List.append_nil]

/-- Both texts are inside a word, inside a name, or where a dollar sign ends the token. -/
theorem Mode.Aligned.dollar_cases {mark : Char} (hmark : IsMark mark) {j : Nat} {mode mode' : Mode}
    (h : Mode.Aligned j mode mode') :
    (∃ read read', mode = .word read ∧ mode' = .word read') ∨
      (∃ read read', mode = .quoted read ∧ mode' = .quoted read') ∨
      mode.take? mark '$' = none ∧ mode'.take? mark '$' = none := by
  have hslot : ∀ read, Mode.take? mark (.slot read) '$' = none := fun _ => rfl
  have hclosing : ∀ read, Mode.take? mark (.closing read) '$' = none := fun _ =>
    if_neg hmark.dollar
  cases h with
  | same mode =>
    cases mode with
    | gap => exact .inr (.inr ⟨rfl, rfl⟩)
    | word read => exact .inl ⟨read, read, rfl, rfl⟩
    | slot read => exact .inr (.inr ⟨hslot read, hslot read⟩)
    | quoted read => exact .inr (.inl ⟨read, read, rfl, rfl⟩)
    | closing read => exact .inr (.inr ⟨hclosing read, hclosing read⟩)
  | slot read read' => exact .inr (.inr ⟨hslot read, hslot read'⟩)
  | word several read read' => exact .inl ⟨read, read', rfl, rfl⟩
  | quoted several read read' => exact .inr (.inl ⟨read, read', rfl, rfl⟩)
  | closing several read read' => exact .inr (.inr ⟨hclosing read, hclosing read'⟩)

section Steps

variable {mark : Char} {j k : Nat} {mode mode' : Mode} {rest rest' : List Char}

/-- One character that both texts have. -/
theorem Mode.Aligned.lexFrom_char (h : Mode.Aligned j mode mode') (c : Char)
    (hrest : ∀ {j : Nat} {next next' : Mode}, Mode.Aligned j next next' →
      Sql.Aligned (k + j) (lexFrom mark next rest) (lexFrom mark next' rest')) :
    Sql.Aligned (k + j) (lexFrom mark mode (c :: rest)) (lexFrom mark mode' (c :: rest')) := by
  rcases h.take? c with ⟨next, next', htake, htake', hnext⟩ | ⟨htake, htake'⟩
  · rw [lexFrom, lexFrom, htake, htake']
    exact hrest hnext
  · rw [lexFrom, lexFrom, htake, htake']
    simp only [List.append_assoc]
    exact h.close ((hrest (.same (Mode.enter mark c).2)).append_same _)

/-- One placeholder with its number in either text. -/
theorem Mode.Aligned.lexFrom_slot (hmark : IsMark mark) (h : Mode.Aligned j mode mode') (i i' : Nat)
    (hrest : ∀ {j : Nat} {next next' : Mode}, Mode.Aligned j next next' →
      Sql.Aligned (k + j) (lexFrom mark next rest) (lexFrom mark next' rest')) :
    Sql.Aligned (k + 1 + j) (lexFrom mark mode (('$' :: Nat.toDigits 10 i) ++ rest))
      (lexFrom mark mode' (('$' :: Nat.toDigits 10 i') ++ rest')) := by
  rcases h.dollar_cases hmark with ⟨read, read', rfl, rfl⟩ | ⟨read, read', rfl, rfl⟩ |
    ⟨hmode, hmode'⟩
  · rw [lexFrom_word (isWordChar_placeholder i), lexFrom_word (isWordChar_placeholder i'),
      Nat.add_assoc, Nat.add_comm 1]
    exact hrest (.word j.succ_pos _ _)
  · rw [lexFrom_inside_name (hmark.not_mem_placeholder i),
      lexFrom_inside_name (hmark.not_mem_placeholder i'), Nat.add_assoc, Nat.add_comm 1]
    exact hrest (.quoted j.succ_pos _ _)
  · -- only here the placeholder becomes a token
    rw [lexFrom_placeholder hmark hmode, lexFrom_placeholder hmark hmode']
    exact h.close (hrest (.slot _ _))

end Steps

/-- The texts of glyphs from two first numbers are read alike. -/
theorem lexFrom_spell_aligned {mark : Char} (hmark : IsMark mark) (n n' : Nat) (glyphs : List Glyph)
    {j : Nat} {mode mode' : Mode} (h : Mode.Aligned j mode mode') :
    Aligned (slotCount glyphs + j) (lexFrom mark mode (spell n glyphs))
      (lexFrom mark mode' (spell n' glyphs)) := by
  induction glyphs generalizing j mode mode' with
  | nil => simpa [spell, lexFrom, slotCount] using h.close .nil
  | cons glyph rest ih =>
    cases glyph with
    | char c => exact h.lexFrom_char c fun hnext => ih hnext
    | slot index => exact h.lexFrom_slot hmark (index + n) (index + n') fun hnext => ih hnext

/-! ## The greater text is the other one raised -/

/-- The tokens of `count` numbered placeholders. -/
def numbered (first count : Nat) : List Token :=
  (List.range' first count).map fun i => .slot (Nat.toDigits 10 i)

/-- The first of the numbered placeholders. -/
theorem exists_of_cons_eq_numbered {t : Token} {ts : List Token} {first count : Nat}
    (h : t :: ts = numbered first count) :
    ∃ rest, count = rest + 1 ∧ t = .slot (Nat.toDigits 10 first) ∧
      ts = numbered (first + 1) rest := by
  cases count with
  | zero => cases h
  | succ rest =>
    rw [numbered, List.range'_succ, List.map_cons] at h
    cases h
    exact ⟨rest, rfl, rfl, rfl⟩

theorem toDigits_injective {i j : Nat} (h : Nat.toDigits 10 i = Nat.toDigits 10 j) : i = j := by
  have hread := congrArg (fun digits => Nat.ofDigitChars 10 digits 0) h
  simpa only [Nat.ofDigitChars_ten_toDigits] using hread

/-- Tokens that are aligned, with placeholders in a row from two first numbers: every placeholder
was put into the text, and if there are no fewer than were put into it, all of them are raised. -/
theorem Aligned.eq_map_raise {n : Nat} (hn : 0 < n) {k : Nat} {ts ts' : List Token}
    (h : Aligned k ts ts') {first count : Nat} (hts : ∀ t ∈ ts, t.isProper = true)
    (hts' : ∀ t ∈ ts', t.isProper = true) (hslots : placeholders ts = numbered first count)
    (hslots' : placeholders ts' = numbered (first + n) count) :
    count ≤ k ∧ (count = k → ts' = ts.map (Token.raise n)) := by
  induction h generalizing first count with
  | nil =>
    have hcount : count = 0 := by simpa [placeholders, numbered] using hslots
    exact ⟨hcount.le, fun _ => rfl⟩
  | @same k ts ts' t rest ih =>
    rw [List.forall_mem_cons] at hts hts'
    cases ht : t.isPlaceholder with
    | false =>
      rw [placeholders, List.filter_cons_of_neg (by simp [ht])] at hslots hslots'
      obtain ⟨hle, heq⟩ := ih hts.2 hts'.2 hslots hslots'
      refine ⟨hle, fun hcount => ?_⟩
      rw [List.map_cons, Token.raise_of_not_isPlaceholder hts.1 ht, heq hcount]
    | true =>
      -- One token cannot have two numbers.
      rw [placeholders, List.filter_cons_of_pos ht] at hslots hslots'
      obtain ⟨-, -, rfl, -⟩ := exists_of_cons_eq_numbered hslots
      obtain ⟨-, -, hnumber, -⟩ := exists_of_cons_eq_numbered hslots'
      injection hnumber with hdigits
      have := toDigits_injective hdigits
      omega
  | @slot k ts ts' digits digits' rest ih =>
    rw [List.forall_mem_cons] at hts hts'
    have hshape : ∀ {digits : List Char}, (Token.slot digits).isProper = true →
        (Token.slot digits).isPlaceholder = true := fun hproper =>
      (Bool.and_eq_true_iff.1 hproper).1
    rw [placeholders, List.filter_cons_of_pos (hshape hts.1)] at hslots
    rw [placeholders, List.filter_cons_of_pos (hshape hts'.1)] at hslots'
    obtain ⟨count, rfl, hdigits, hslots⟩ := exists_of_cons_eq_numbered hslots
    obtain ⟨_, hcount, hdigits', hslots'⟩ := exists_of_cons_eq_numbered hslots'
    cases hcount
    rw [Nat.add_right_comm] at hslots'
    obtain ⟨hle, heq⟩ := ih hts.2 hts'.2 hslots hslots'
    refine ⟨Nat.succ_le_succ hle, fun hcount => ?_⟩
    rw [List.map_cons, hdigits, hdigits', Token.raise_toDigits, heq (Nat.succ.inj hcount)]
  | @inside k j ts ts' t t' several kinds rest ih =>
    rw [List.forall_mem_cons] at hts hts'
    rw [placeholders, List.filter_cons_of_neg (by simp [kinds])] at hslots hslots'
    obtain ⟨hle, -⟩ := ih hts.2 hts'.2 hslots hslots'
    exact ⟨by omega, fun hcount => by omega⟩

/-- If the glyphs of a text hold no more placeholders than it has, the text from a greater first
number is the text raised. -/
theorem raise_spell {mark : Char} (hmark : IsMark mark) {n k : Nat} {text text' : String}
    {ts ts' : List Token} (h : Spelling (.numbered mark hmark) 0 text ts k)
    (h' : Spelling (.numbered mark hmark) n text' ts' k) {glyphs : List Glyph}
    (hglyphs : slotCount glyphs = k) (htext : text.toList = spell 0 glyphs)
    (htext' : text'.toList = spell n glyphs) : text' = raise mark n text := by
  rcases n.eq_zero_or_pos with rfl | hn
  · have hself : raise mark 0 text = text := raise_eq_self h fun i => Token.raise_toDigits 0 i
    rw [hself, ← String.toList_inj, htext, htext']
  · have haligned := lexFrom_spell_aligned hmark 0 n glyphs (.same .gap)
    rw [← htext, ← htext', ← lex, ← lex, Nat.add_zero, hglyphs] at haligned
    have hlex : lex mark text.toList = ts := h.lex_eq
    have hlex' : lex mark text'.toList = ts' := h'.lex_eq
    rw [hlex, hlex'] at haligned
    have hfirst : 0 + 1 + n = n + 1 := by omega
    have hraised : ts' = ts.map (Token.raise n) :=
      (haligned.eq_map_raise hn h.phrase.proper.all h'.phrase.proper.all h.phrase.slots
        (hfirst ▸ h'.phrase.slots)).2 rfl
    rw [raise, hlex, ← hraised, ← String.toList_inj, String.toList_ofList]
    exact h'.written

end QueryTree.Sql
