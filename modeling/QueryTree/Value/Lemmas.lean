import QueryTree.Value

/-!
# Looking up and measuring query trees

**Size.**  Every value has at least one node (`size_pos`), and the parts of a value are smaller than
the value: the items of a list (`size_lt_of_mem_items`), the values of an object
(`size_lt_of_mem_fields`) and each single entry of an object (`size_entry_le`).

**Presence.**  A value that is present is not missing (`not_isNull_of_isPresent`).

**Lookup.**  A value that is looked up is one of the entries (`mem_of_get?`), a key has a value
exactly if it is among the keys (`get?_isSome_iff`), and `set` changes the value of its key alone
(`get?_set_self`, `get?_set_of_ne`).  A default is used exactly where the value is missing or `null`
(`withDefaults_cons`).
-/

namespace QueryTree

namespace Value

/-- Every value has at least one node. -/
theorem size_pos (v : Value) : 0 < v.size := by
  cases v <;> simp [size]

theorem size_list (items : List Value) : (Value.list items).size = sizeItems items + 1 := by
  rw [size]

theorem size_object (fields : Fields) : (Value.object fields).size = sizeFields fields + 1 := by
  rw [size]

theorem sizeItems_cons (v : Value) (rest : List Value) :
    sizeItems (v :: rest) = v.size + sizeItems rest := by
  rw [sizeItems]

theorem sizeFields_cons (key : String) (v : Value) (rest : Fields) :
    sizeFields ((key, v) :: rest) = v.size + 1 + sizeFields rest := by
  rw [sizeFields]

/-- An item is no larger than all items together. -/
theorem size_le_sizeItems {v : Value} {items : List Value} (h : v ∈ items) :
    v.size ≤ sizeItems items := by
  induction items with
  | nil => cases h
  | cons first rest ih =>
    rw [sizeItems_cons]
    rcases List.mem_cons.1 h with rfl | h'
    · omega
    · have := ih h'
      omega

/-- A value of an object is smaller than all entries together. -/
theorem size_lt_sizeFields {key : String} {v : Value} {fields : Fields} (h : (key, v) ∈ fields) :
    v.size < sizeFields fields := by
  induction fields with
  | nil => cases h
  | cons first rest ih =>
    obtain ⟨k, w⟩ := first
    rw [sizeFields_cons]
    rcases List.mem_cons.1 h with heq | h'
    · obtain ⟨rfl, rfl⟩ := Prod.mk.inj heq
      omega
    · have := ih h'
      omega

/-- An item of a list is smaller than the list. -/
theorem size_lt_of_mem_items {v : Value} {items : List Value} (h : v ∈ items) :
    v.size < (Value.list items).size := by
  have := size_le_sizeItems h
  rw [size_list]
  omega

/-- A value of an object is smaller than the object. -/
theorem size_lt_of_mem_fields {key : String} {v : Value} {fields : Fields}
    (h : (key, v) ∈ fields) : v.size < (Value.object fields).size := by
  have := size_lt_sizeFields h
  rw [size_object]
  omega

/-- A single entry of an object, taken as an object, is no larger than the object. -/
theorem size_entry_le {entry : String × Value} {fields : Fields} (h : entry ∈ fields) :
    (Value.object [entry]).size ≤ (Value.object fields).size := by
  obtain ⟨key, v⟩ := entry
  have hlt := size_lt_sizeFields h
  have hnil : sizeFields [] = 0 := by rw [sizeFields]
  rw [size_object, size_object, sizeFields_cons, hnil]
  omega

/-- What switches an optional part on is not missing. -/
theorem not_isNull_of_isPresent {v : Value} (h : v.isPresent = true) : v.isNull = false := by
  cases v with
  | null => cases h
  | bool flag | int number | float number | str text | list items | object fields => rfl

end Value

namespace Fields

theorem get?_nil (key : String) : get? [] key = none := rfl

theorem get?_cons (k key : String) (v : Value) (rest : Fields) :
    get? ((k, v) :: rest) key = if key = k then some v else get? rest key := by
  by_cases h : key = k
  · subst h
    simp [get?]
  · simp [get?, List.lookup_cons, h, beq_eq_false_iff_ne.2 h]

theorem valueOf_eq (fields : Fields) (key : String) :
    fields.valueOf key = (fields.get? key).getD .null := rfl

/-- A value that is looked up is one of the entries. -/
theorem mem_of_get? {fields : Fields} {key : String} {v : Value} (h : fields.get? key = some v) :
    (key, v) ∈ fields := by
  induction fields with
  | nil => cases h
  | cons first rest ih =>
    obtain ⟨k, w⟩ := first
    rw [get?_cons] at h
    by_cases hk : key = k
    · subst hk
      simp only [if_true, Option.some.injEq] at h
      subst h
      exact List.mem_cons_self
    · rw [if_neg hk] at h
      exact List.mem_cons_of_mem _ (ih h)

/-- A key has a value exactly if it is among the keys. -/
theorem get?_isSome_iff (fields : Fields) (key : String) :
    (fields.get? key).isSome = true ↔ key ∈ fields.keys := by
  induction fields with
  | nil => simp [get?, keys]
  | cons first rest ih =>
    obtain ⟨k, w⟩ := first
    rw [get?_cons]
    by_cases hk : key = k
    · simp [hk, keys]
    · rw [if_neg hk, ih]
      simp [keys, hk]

@[simp] theorem get?_set_self (fields : Fields) (key : String) (v : Value) :
    (fields.set key v).get? key = some v := by
  induction fields with
  | nil => simp [set, get?_cons]
  | cons first rest ih =>
    obtain ⟨k, w⟩ := first
    by_cases hk : k = key
    · simp [set, get?_cons, hk]
    · have hk' : ¬ key = k := fun h => hk h.symm
      simp only [set, if_neg hk, get?_cons, if_neg hk', ih]

theorem get?_set_of_ne {other key : String} (h : other ≠ key) (fields : Fields) (v : Value) :
    (fields.set key v).get? other = fields.get? other := by
  induction fields with
  | nil => simp [set, get?_cons, get?_nil, h]
  | cons first rest ih =>
    obtain ⟨k, w⟩ := first
    by_cases hk : k = key
    · subst hk
      simp [set, get?_cons, h]
    · simp only [set, if_neg hk, get?_cons, ih]

@[simp] theorem withDefaults_nil (fields : Fields) : fields.withDefaults [] = fields := rfl

/-- A default is used exactly where the value is missing or `null`, before the defaults that
follow it. -/
theorem withDefaults_cons (fields : Fields) (key : String) (v : Value) (rest : Fields) :
    fields.withDefaults ((key, v) :: rest) =
      (if (fields.valueOf key).isNull then fields.set key v else fields).withDefaults rest := by
  rfl

end Fields

end QueryTree
