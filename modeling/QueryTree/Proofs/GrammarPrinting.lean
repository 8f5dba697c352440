import QueryTree.Proofs.Tokens
import QueryTree.Template.Grammar

/-!
# Printing a grammar

The parts of a template can be written as a grammar again.  Blanks are not kept as they were read:
one space stands before a part that had some, and none before the others.

* `Template.print` writes parts as a grammar.
* `Template.Node.WellFormed` says what a part can hold so that it is read back, and
  `Template.WellFormed` the same of a list of parts.
* **`referenceNode_wellFormed`**, **`solid_print_of_referenceNode`** : what is read between the
  brackets of a reference is well formed, and its text differs from what was read in blanks only.
* **`referenceNode_key`**, **`referenceNode_series`** : a reference is read back from its text.
-/

namespace QueryTree

/-! ## Blanks -/

namespace Text

/-- The text without its blanks. -/
def solid (cs : List Char) : List Char :=
  cs.filter fun c => !isBlank c

/-- A text with no blank at its start and none at its end. -/
def IsTrimmed (cs : List Char) : Prop :=
  (∀ c ∈ cs.head?, isBlank c = false) ∧ ∀ c ∈ cs.getLast?, isBlank c = false

@[simp] theorem solid_nil : solid [] = [] := rfl

/-- Leaving out blanks goes on piece by piece. -/
@[simp] theorem solid_append (cs ds : List Char) : solid (cs ++ ds) = solid cs ++ solid ds :=
  List.filter_append ..

theorem solid_cons_of_not_blank {c : Char} (h : isBlank c = false) (cs : List Char) :
    solid (c :: cs) = c :: solid cs :=
  List.filter_cons_of_pos (by simp [h])

theorem solid_cons_of_blank {c : Char} (h : isBlank c = true) (cs : List Char) :
    solid (c :: cs) = solid cs :=
  List.filter_cons_of_neg (by simp [h])

/-- A text without blanks is solid as it is. -/
theorem solid_eq_self {cs : List Char} (h : ∀ c ∈ cs, isBlank c = false) : solid cs = cs :=
  List.filter_eq_self.2 fun c hc => by simp [h c hc]

/-- Nothing is left of a text exactly if it is blank. -/
theorem solid_eq_nil_iff {cs : List Char} : solid cs = [] ↔ cs.all isBlank = true := by
  simp [solid, List.filter_eq_nil_iff]

/-- Trimming takes away nothing but blanks. -/
theorem solid_trimStart (cs : List Char) : solid (trimStart cs) = solid cs := by
  induction cs with
  | nil => rfl
  | cons c cs ih =>
    rw [trimStart, List.dropWhile_cons]
    split
    · rename_i hblank
      rw [solid_cons_of_blank hblank]
      exact ih
    · rfl

theorem solid_trimEnd (cs : List Char) : solid (trimEnd cs) = solid cs := by
  have hreverse : ∀ ds : List Char, solid ds.reverse = (solid ds).reverse := fun _ =>
    List.filter_reverse ..
  rw [trimEnd, hreverse, solid_trimStart, hreverse, List.reverse_reverse]

/-- Only blanks are lost at the ends. -/
theorem solid_trim (cs : List Char) : solid (trim cs) = solid cs := by
  rw [trim, solid_trimEnd, solid_trimStart]

/-- A text that begins with another character is trimmed at its start. -/
theorem trimStart_eq_self {cs : List Char} (h : ∀ c ∈ cs.head?, isBlank c = false) :
    trimStart cs = cs := by
  cases cs with
  | nil => rfl
  | cons c cs => exact List.dropWhile_cons_of_neg (by simp [h c rfl])

/-- A text that ends with another character is trimmed at its end. -/
theorem trimEnd_eq_self {cs : List Char} (h : ∀ c ∈ cs.getLast?, isBlank c = false) :
    trimEnd cs = cs := by
  rw [trimEnd, trimStart_eq_self, List.reverse_reverse]
  rwa [List.head?_reverse]

theorem trimStart_cons {c : Char} (h : isBlank c = true) (cs : List Char) :
    trimStart (c :: cs) = trimStart cs :=
  List.dropWhile_cons_of_pos h

/-- A blank at the end is trimmed. -/
theorem trimEnd_concat {c : Char} (h : isBlank c = true) (cs : List Char) :
    trimEnd (cs ++ [c]) = trimEnd cs := by
  rw [trimEnd, List.reverse_append]
  exact congrArg List.reverse (trimStart_cons h cs.reverse)

/-- A trimmed text stays as it is. -/
theorem IsTrimmed.trim_eq {cs : List Char} (h : IsTrimmed cs) : trim cs = cs := by
  rw [trim, trimStart_eq_self h.1, trimEnd_eq_self h.2]

theorem not_isBlank_head?_trimStart (cs : List Char) :
    ∀ c ∈ (trimStart cs).head?, isBlank c = false := by
  intro c hc
  have hhead := List.head?_dropWhile_not isBlank cs
  rw [trimStart] at hc
  rw [hc] at hhead
  simpa using hhead

/-- Trimming the end takes a tail away. -/
theorem trimEnd_append (cs : List Char) : ∃ blanks, trimEnd cs ++ blanks = cs := by
  obtain ⟨blanks, hblanks⟩ := List.dropWhile_suffix isBlank (l := cs.reverse)
  refine ⟨blanks.reverse, ?_⟩
  rw [trimEnd, ← List.reverse_append, trimStart, hblanks, List.reverse_reverse]

/-- Trimming leaves a trimmed text. -/
theorem isTrimmed_trim (cs : List Char) : IsTrimmed (trim cs) := by
  constructor
  · -- what is cut from the end leaves the first character, or nothing
    intro c hc
    obtain ⟨blanks, hblanks⟩ := trimEnd_append (trimStart cs)
    have hhead : (trimStart cs).head? = some c := by
      rw [← hblanks, List.head?_append_of_ne_nil _ (by rintro h; rw [trim, h] at hc; cases hc)]
      exact hc
    exact not_isBlank_head?_trimStart cs c hhead
  · intro c hc
    rw [trim, trimEnd, List.getLast?_reverse] at hc
    exact not_isBlank_head?_trimStart _ c hc

theorem trim_trim (cs : List Char) : trim (trim cs) = trim cs :=
  (isTrimmed_trim cs).trim_eq

/-- Trimming adds no character. -/
theorem trim_subset (cs : List Char) : trim cs ⊆ cs := by
  intro c hc
  obtain ⟨blanks, hblanks⟩ := trimEnd_append (trimStart cs)
  have hstart : c ∈ trimStart cs := by
    rw [← hblanks]
    exact List.mem_append_left _ hc
  exact (List.dropWhile_suffix isBlank).subset hstart

end Text

namespace Template

/-! ## Printing -/

/-- The space before a part. -/
def space (spaced : Bool) : List Char :=
  if spaced then [' '] else []

/-- The bracket that a reference starts with. -/
def opening (required : Bool) : Char :=
  if required then '<' else '['

/-- The bracket that a reference ends with. -/
def closing (required : Bool) : Char :=
  if required then '>' else ']'

/-- A reference with `inside` between its brackets. -/
def bracketed (required : Bool) (inside : List Char) : List Char :=
  opening required :: inside ++ [closing required]

theorem opening_ne_dollar (required : Bool) : opening required ≠ '$' := by
  cases required <;> decide

mutual

/-- A part as it is written in a grammar. -/
def Node.print : Node → List Char
  | .word text spaced => space spaced ++ text.toList
  | .required key spaced => space spaced ++ bracketed true key.toList
  | .inline key spaced => space spaced ++ bracketed false key.toList
  | .series key separator required spaced =>
    space spaced ++ bracketed required (key.toList ++ separator.toList ++ ['.', '.', '.'])
  | .group children _ spaced => space spaced ++ '\x7b' :: print children ++ ['\x7d']
termination_by structural node => node

/-- Parts as they are written in a grammar. -/
def print : List Node → List Char
  | [] => []
  | node :: rest => node.print ++ print rest
termination_by structural nodes => nodes

end

theorem space_false : space false = [] := rfl

theorem solid_space (spaced : Bool) : Text.solid (space spaced) = [] := by
  cases spaced <;> rfl

/-- Brackets are no blanks. -/
theorem solid_bracketed (required : Bool) (inside : List Char) :
    Text.solid (bracketed required inside) = bracketed required (Text.solid inside) := by
  rw [bracketed, Text.solid_append]
  cases required <;> rfl

/-- Parts are printed one after another. -/
@[simp] theorem print_append (nodes nodes' : List Node) :
    print (nodes ++ nodes') = print nodes ++ print nodes' := by
  induction nodes with
  | nil => rfl
  | cons node rest ih => rw [List.cons_append, print, print, ih, List.append_assoc]

theorem print_singleton (node : Node) : print [node] = node.print := by
  rw [print, print, List.append_nil]

/-! ## Well-formed parts -/

/-- A dollar sign, a letter or an underscore, and letters, digits and underscores. -/
def isKey : List Char → Bool
  | '$' :: c :: rest => isKeyStart c && rest.all isKeyChar
  | _ => false

/-- A word: no blank, no brace and no start of a reference. -/
structure IsLiteral (text : List Char) : Prop where
  ne_nil : text ≠ []
  plain : ∀ c ∈ text, Text.isBlank c = false ∧ c ≠ '\x7b' ∧ c ≠ '\x7d'
  closed : ¬ ['<', '$'] <:+: text ∧ ¬ ['[', '$'] <:+: text

/-- A space, a comma with a space, or a text between spaces that does not end the reference. -/
def IsSeparator (required : Bool) (separator : List Char) : Prop :=
  separator = [' '] ∨ separator = [',', ' '] ∨
    ∃ text, separator = ' ' :: text ++ [' '] ∧ Text.trim text = text ∧ text ≠ [] ∧
      text ≠ [','] ∧ closing required ∉ text

/-- Whether a part is a word. -/
def Node.isWord : Node → Bool
  | .word _ _ => true
  | _ => false

/-- Whether a space stands before a part. -/
def Node.spaced : Node → Bool
  | .word _ spaced => spaced
  | .required _ spaced => spaced
  | .inline _ spaced => spaced
  | .series _ _ _ spaced => spaced
  | .group _ _ spaced => spaced

/-- Two parts in a row; between two words stands a space. -/
def Node.Apart (node next : Node) : Prop :=
  node.isWord = true → next.isWord = true → next.spaced = true

/-- A part that can be read back. -/
inductive Node.WellFormed : Node → Prop where
  | word {text : String} {spaced : Bool} (literal : IsLiteral text.toList) :
      WellFormed (.word text spaced)
  | required {key : String} {spaced : Bool} (isKey : isKey key.toList = true) :
      WellFormed (.required key spaced)
  | inline {key : String} {spaced : Bool} (isKey : isKey key.toList = true) :
      WellFormed (.inline key spaced)
  | series {key separator : String} {required spaced : Bool} (isKey : isKey key.toList = true)
      (isSeparator : IsSeparator required separator.toList) :
      WellFormed (.series key separator required spaced)
  | group {children : List Node} {guard : String} {spaced : Bool}
      (each : ∀ node ∈ children, node.WellFormed) (apart : children.IsChain Node.Apart)
      (first : (keysOf children).head? = some guard) : WellFormed (.group children guard spaced)

/-- Parts that can be read back. -/
structure AllWellFormed (nodes : List Node) : Prop where
  each : ∀ node ∈ nodes, node.WellFormed
  apart : nodes.IsChain Node.Apart

/-- A grammar: one part or more. -/
structure WellFormed (nodes : List Node) : Prop extends AllWellFormed nodes where
  ne_nil : nodes ≠ []

/-- The guard of a group is the first of its references, those of groups within it included. -/
theorem firstKey?_eq {nodes : List Node} (h : ∀ node ∈ nodes, node.WellFormed) :
    firstKey? nodes = (keysOf nodes).head? := by
  induction nodes with
  | nil => rfl
  | cons node rest ih =>
    rw [List.forall_mem_cons] at h
    cases h.1 with
    | word => exact ih h.2
    | required | inline | series => rfl
    | @group children guard _ _ _ first =>
      have hsome : (keysOf children ++ keysOf rest).head? = some guard := by
        rw [List.head?_append, first, Option.some_or]
      exact hsome.symm

/-! ## Keys and separators -/

/-- A key that is taken off a text is the beginning of the text. -/
theorem takeKey?_eq_some {text key after : List Char} (h : takeKey? text = some (key, after)) :
    text = key ++ after ∧ isKey key = true := by
  unfold takeKey? at h
  split at h
  · rename_i c rest
    split at h
    · rename_i hstart
      cases h
      refine ⟨by simp [List.takeWhile_append_dropWhile], ?_⟩
      simp [isKey, hstart]
    · cases h
  · cases h

/-- A key is read to its end. -/
theorem takeKey?_append {key : List Char} (hkey : isKey key = true) (after : List Char)
    (hafter : ∀ c ∈ after.head?, isKeyChar c = false) :
    takeKey? (key ++ after) = some (key, after) := by
  unfold isKey at hkey
  split at hkey
  · rename_i c rest
    rw [Bool.and_eq_true, List.all_eq_true] at hkey
    have hnone : after.takeWhile isKeyChar = [] ∧ after.dropWhile isKeyChar = after := by
      cases after with
      | nil => exact ⟨rfl, rfl⟩
      | cons d after => simp [hafter d rfl]
    simp [takeKey?, hkey.1, List.takeWhile_append_of_pos hkey.2,
      List.dropWhile_append_of_pos hkey.2, hnone]
  · cases hkey

/-- A reference to a list is told by the three dots at its end. -/
theorem beforeDots?_eq_some_iff {text before : List Char} :
    beforeDots? text = some before ↔ text = before ++ ['.', '.', '.'] := by
  have hreverse : text = before ++ ['.', '.', '.'] ↔
      text.reverse = '.' :: '.' :: '.' :: before.reverse := by
    rw [← List.reverse_inj]
    simp
  rw [hreverse]
  unfold beforeDots?
  split
  · rename_i rest hrest
    rw [hrest, Option.some_inj, List.reverse_eq_iff]
    simp
  · rename_i hdots
    constructor
    · intro h
      cases h
    · intro h
      exact absurd h (hdots before.reverse)

/-- What stands before the dots is a separator, if the bracket is not in it. -/
theorem isSeparator_separatorOf {required : Bool} {text : List Char} (htrim : Text.trim text = text)
    (hclosing : closing required ∉ text) : IsSeparator required (separatorOf text).toList := by
  unfold separatorOf
  split
  · exact .inl rfl
  · rename_i hempty
    split
    · exact .inr (.inl rfl)
    · rename_i hcomma
      refine .inr (.inr ⟨text, String.toList_ofList, htrim, ?_, hcomma, hclosing⟩)
      simpa using hempty

/-- A separator is written with the characters it was read from. -/
theorem solid_separatorOf (text : List Char) :
    Text.solid (separatorOf text).toList = Text.solid text := by
  unfold separatorOf
  split
  · rename_i hempty
    rw [List.isEmpty_iff.1 hempty]
    rfl
  · split
    · rename_i hcomma
      rw [hcomma]
      rfl
    · rw [String.toList_ofList, Text.solid_append, Text.solid_cons_of_blank rfl]
      exact List.append_nil _

/-- A separator is read back from what is written before the dots. -/
theorem IsSeparator.trim_eq {required : Bool} {separator : List Char}
    (h : IsSeparator required separator) :
    ∃ before, Text.trim (separator ++ ['.', '.', '.']) = before ++ ['.', '.', '.'] ∧
      separatorOf (Text.trim before) = String.ofList separator := by
  rcases h with rfl | rfl | ⟨text, rfl, htrim, hne, hcomma, -⟩
  · exact ⟨[], rfl, rfl⟩
  · exact ⟨[',', ' '], rfl, rfl⟩
  · have htrimmed : Text.IsTrimmed text := htrim ▸ Text.isTrimmed_trim text
    have hhead : ∀ rest, (text ++ rest).head? = text.head? := fun rest =>
      List.head?_append_of_ne_nil _ hne
    refine ⟨text ++ [' '], ?_, ?_⟩
    · have hstart : Text.trimStart (' ' :: text ++ [' '] ++ ['.', '.', '.']) =
          text ++ [' ', '.', '.', '.'] := by
        rw [List.append_assoc, List.cons_append, Text.trimStart_cons rfl]
        exact Text.trimStart_eq_self (hhead _ ▸ htrimmed.1)
      rw [Text.trim, hstart, List.append_assoc]
      exact Text.trimEnd_eq_self (by simp; rfl)
    · have hbefore : Text.trim (text ++ [' ']) = text := by
        rw [Text.trim, Text.trimStart_eq_self (hhead _ ▸ htrimmed.1), Text.trimEnd_concat rfl,
          Text.trimEnd_eq_self htrimmed.2]
      rw [hbefore, separatorOf, if_neg (by simpa using hne), if_neg hcomma]

/-- A separator cannot be taken for a part of the key before it. -/
theorem IsSeparator.head?_append {required : Bool} {separator : List Char}
    (h : IsSeparator required separator) (rest : List Char) :
    ∀ c ∈ (separator ++ rest).head?, isKeyChar c = false := by
  rintro c hc
  rcases h with rfl | rfl | ⟨text, rfl, -⟩ <;> cases hc <;> rfl

/-- Letters, digits and underscores are not blank. -/
theorem not_isBlank_of_isKeyChar {c : Char} (h : isKeyChar c = true) : Text.isBlank c = false := by
  have hcode : 48 ≤ c.toNat ∧ c.toNat ≤ 122 := by
    simp only [isKeyChar, Char.isAlphanum, Bool.or_eq_true, Sql.isAlpha_iff, Sql.isUpper_iff,
      Sql.isLower_iff, Sql.isDigit_iff, beq_iff_eq] at h
    rcases h with ((h | h) | h) | rfl
    · omega
    · omega
    · omega
    · decide
  simp [Text.isBlank]
  omega

theorem eq_or_isKeyChar_of_mem {key : List Char} (h : isKey key = true) {c : Char} (hc : c ∈ key) :
    c = '$' ∨ isKeyChar c = true := by
  unfold isKey at h
  split at h
  · rename_i start rest
    rw [Bool.and_eq_true, List.all_eq_true] at h
    rw [List.mem_cons, List.mem_cons] at hc
    rcases hc with rfl | rfl | hc
    · exact .inl rfl
    · have hstart := h.1
      simp only [isKeyStart, isKeyChar, Char.isAlphanum, Bool.or_eq_true] at hstart ⊢
      tauto
    · exact .inr (h.2 c hc)
  · cases h

/-- So no character of a key is blank. -/
theorem not_isBlank_of_isKey {key : List Char} (h : isKey key = true) {c : Char} (hc : c ∈ key) :
    Text.isBlank c = false := by
  rcases eq_or_isKeyChar_of_mem h hc with rfl | hc
  · rfl
  · exact not_isBlank_of_isKeyChar hc

/-- A key does not end its reference. -/
theorem closing_not_mem_of_isKey {key : List Char} (h : isKey key = true) (required : Bool) :
    closing required ∉ key := by
  intro hmem
  have hclosing : closing required ≠ '$' ∧ isKeyChar (closing required) = false := by
    cases required <;> decide
  rcases eq_or_isKeyChar_of_mem h hmem with hdollar | hchar
  · exact hclosing.1 hdollar
  · rw [hclosing.2] at hchar
    cases hchar

/-- A key begins with its dollar sign. -/
theorem head?_of_isKey {key : List Char} (h : isKey key = true) : key.head? = some '$' := by
  unfold isKey at h
  split at h
  · rfl
  · cases h

/-- Nor does a separator. -/
theorem IsSeparator.closing_not_mem {required : Bool} {separator : List Char}
    (h : IsSeparator required separator) : closing required ∉ separator := by
  have hclosing : closing required ≠ ' ' ∧ closing required ≠ ',' := by
    cases required <;> decide
  rcases h with rfl | rfl | ⟨text, rfl, -, -, -, hfree⟩
  · simp [hclosing]
  · simp [hclosing]
  · simp [hclosing, hfree]

/-- The text of a reference starts with its key. -/
theorem isTrimmed_of_isKey {key : List Char} (h : isKey key = true) (rest : List Char)
    (hrest : ∀ c ∈ rest.getLast?, Text.isBlank c = false) : Text.IsTrimmed (key ++ rest) := by
  have hne : key ≠ [] := by
    rintro rfl
    cases h
  constructor
  · intro c hc
    rw [List.head?_append_of_ne_nil _ hne] at hc
    exact not_isBlank_of_isKey h (List.mem_of_head? hc)
  · intro c hc
    rw [List.getLast?_append, Option.mem_def, Option.or_eq_some_iff] at hc
    rcases hc with hc | ⟨-, hc⟩
    · exact hrest c hc
    · exact not_isBlank_of_isKey h (List.mem_of_getLast? hc)

/-! ## References -/

/-- What can be between the brackets of a reference. -/
theorem referenceNode_cases {required spaced : Bool} {inside : List Char} {node : Node}
    (h : referenceNode required spaced inside = .ok node) :
    ∃ key after, takeKey? (Text.trim inside) = some (key, after) ∧
      (Text.trim after = [] ∧
          node = (if required then .required (String.ofList key) spaced
            else .inline (String.ofList key) spaced) ∨
        ∃ before, beforeDots? (Text.trim after) = some before ∧
          node = .series (String.ofList key) (separatorOf (Text.trim before)) required spaced) := by
  unfold referenceNode at h
  dsimp only at h
  split at h
  · cases h
  · rename_i key after hkey
    refine ⟨key, after, hkey, ?_⟩
    split at h
    · rename_i hempty
      cases h
      exact .inl ⟨by simpa using hempty, rfl⟩
    · split at h
      · cases h
      · rename_i before hdots
        cases h
        exact .inr ⟨before, hdots, rfl⟩

/-- What is read between the brackets of a reference is a part that can be read back. -/
theorem referenceNode_wellFormed {required spaced : Bool} {inside : List Char} {node : Node}
    (h : referenceNode required spaced inside = .ok node) (hclosing : closing required ∉ inside) :
    node.WellFormed ∧ node.isWord = false := by
  obtain ⟨key, after, htake, hnode⟩ := referenceNode_cases h
  obtain ⟨htext, hkey⟩ := takeKey?_eq_some htake
  rw [← String.toList_ofList (l := key)] at hkey
  rcases hnode with ⟨-, rfl⟩ | ⟨before, hdots, rfl⟩
  · cases required with
    | true => exact ⟨.required hkey, rfl⟩
    | false => exact ⟨.inline hkey, rfl⟩
  · have hfree : closing required ∉ Text.trim before := by
      intro hmem
      have hafter : closing required ∈ Text.trim after := by
        rw [beforeDots?_eq_some_iff.1 hdots]
        exact List.mem_append_left _ (Text.trim_subset _ hmem)
      have hinside : closing required ∈ Text.trim inside := by
        rw [htext]
        exact List.mem_append_right _ (Text.trim_subset _ hafter)
      exact hclosing (Text.trim_subset _ hinside)
    exact ⟨.series hkey (isSeparator_separatorOf (Text.trim_trim before) hfree), rfl⟩

/-- It is written with the characters it was read from. -/
theorem solid_print_of_referenceNode {required spaced : Bool} {inside : List Char} {node : Node}
    (h : referenceNode required spaced inside = .ok node) :
    Text.solid node.print = Text.solid (bracketed required inside) := by
  obtain ⟨key, after, htake, hnode⟩ := referenceNode_cases h
  obtain ⟨htext, -⟩ := takeKey?_eq_some htake
  have hsolid : Text.solid inside = Text.solid key ++ Text.solid (Text.trim after) := by
    rw [← Text.solid_trim, htext, Text.solid_append, Text.solid_trim after]
  rw [solid_bracketed, hsolid]
  rcases hnode with ⟨hafter, rfl⟩ | ⟨before, hdots, rfl⟩
  · rw [hafter, Text.solid_nil, List.append_nil]
    cases required with
    | true =>
      rw [if_pos rfl, Node.print, Text.solid_append, solid_space, String.toList_ofList,
        solid_bracketed, List.nil_append]
    | false =>
      rw [if_neg Bool.false_ne_true, Node.print, Text.solid_append, solid_space,
        String.toList_ofList, solid_bracketed, List.nil_append]
  · rw [Node.print, Text.solid_append, solid_space, List.nil_append, solid_bracketed,
      beforeDots?_eq_some_iff.1 hdots]
    simp only [Text.solid_append, String.toList_ofList, solid_separatorOf, Text.solid_trim,
      List.append_assoc]

/-- A reference without dots is read back. -/
theorem referenceNode_key {key : String} (h : isKey key.toList = true) (required spaced : Bool) :
    referenceNode required spaced key.toList =
      .ok (if required then .required key spaced else .inline key spaced) := by
  have htrim := (isTrimmed_of_isKey h [] (by simp)).trim_eq
  have htake := takeKey?_append h [] (by simp)
  rw [List.append_nil] at htrim htake
  rw [referenceNode, htrim, htake]
  dsimp only
  rw [String.ofList_toList]
  rfl

/-- A reference with dots is read back. -/
theorem referenceNode_series {key separator : String} {required : Bool}
    (hkey : isKey key.toList = true) (hseparator : IsSeparator required separator.toList)
    (spaced : Bool) :
    referenceNode required spaced (key.toList ++ separator.toList ++ ['.', '.', '.']) =
      .ok (.series key separator required spaced) := by
  obtain ⟨before, hdots, hbefore⟩ := hseparator.trim_eq
  have hlast : ∀ c ∈ (separator.toList ++ ['.', '.', '.']).getLast?, Text.isBlank c = false := by
    simp
    rfl
  have htake := takeKey?_append hkey _ (hseparator.head?_append ['.', '.', '.'])
  rw [List.append_assoc, referenceNode, (isTrimmed_of_isKey hkey _ hlast).trim_eq, htake]
  dsimp only
  rw [hdots, beforeDots?_eq_some_iff.2 rfl, if_neg (by simp)]
  dsimp only
  rw [hbefore, String.ofList_toList, String.ofList_toList]

end Template

end QueryTree
