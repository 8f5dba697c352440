/-!
# Splitting a text

* `split` cuts a text at every occurrence of a character; a text without it is one part.
* `split_join` : putting the character back between the parts gives the text again.
-/

namespace QueryTree.Text

/-- The parts of a text between the occurrences of `sep`. -/
def split (sep : Char) : List Char → List (List Char)
  | [] => [[]]
  | c :: rest =>
    if c = sep then [] :: split sep rest
    else
      match split sep rest with
      | [] => [[c]]
      | first :: others => (c :: first) :: others

/-- A text has at least one part. -/
theorem split_ne_nil (sep : Char) (cs : List Char) : split sep cs ≠ [] := by
  cases cs with
  | nil => simp [split]
  | cons c rest =>
    simp only [split]
    split
    · simp
    · split <;> simp

/-- The parts with the separator between them are the text. -/
theorem split_join (sep : Char) (cs : List Char) : [sep].intercalate (split sep cs) = cs := by
  induction cs with
  | nil => rfl
  | cons c rest ih =>
    simp only [split]
    by_cases h : c = sep
    · subst h
      obtain ⟨first, others, hs⟩ := List.exists_cons_of_ne_nil (split_ne_nil c rest)
      rw [hs] at ih
      simp [List.intercalate, hs] at ih ⊢
      exact ih
    · obtain ⟨first, others, hs⟩ := List.exists_cons_of_ne_nil (split_ne_nil sep rest)
      rw [hs] at ih
      simp only [h, if_false, hs]
      cases others with
      | nil => simpa [List.intercalate, List.intersperse] using ih
      | cons second more =>
        simp only [List.intercalate, List.intersperse, List.flatten_cons, List.cons_append] at ih ⊢
        rw [ih]

end QueryTree.Text
