import QueryTree.Value.Lemmas

/-!
# The leaves of a query tree

* `Value.induct` is induction over a tree: a law that a list inherits from its items and an object
  from its values holds for every value.
* `Value.leaves` lists the scalars of a tree from left to right, `null` included.
* `leaves_subset_of_subset` : an object has no leaves that a larger one does not have, so taking
  entries of an object apart or leaving some out adds no leaves.
-/

namespace QueryTree

namespace Value

/-- Induction over a tree. -/
theorem induct {P : Value → Prop} (scalar : ∀ v, v.isScalar = true → P v)
    (list : ∀ items, (∀ v ∈ items, P v) → P (.list items))
    (object : ∀ fields : Fields, (∀ entry ∈ fields, P entry.2) → P (.object fields)) (v : Value) :
    P v := by
  have hsize : ∀ n v, v.size ≤ n → P v := by
    intro n
    induction n with
    | zero =>
      intro v hv
      have := v.size_pos
      omega
    | succ n ih =>
      intro v hv
      cases v with
      | list items =>
        refine list items fun w hw => ih w ?_
        have := size_lt_of_mem_items hw
        omega
      | object fields =>
        refine object fields fun entry hentry => ih entry.2 ?_
        have := size_lt_of_mem_fields hentry
        omega
      | null => exact scalar _ rfl
      | bool flag => exact scalar _ rfl
      | int number => exact scalar _ rfl
      | float number => exact scalar _ rfl
      | str text => exact scalar _ rfl
  exact hsize v.size v (Nat.le_refl _)

mutual

/-- The scalars of a tree, from left to right. -/
def leaves : Value → List Value
  | .list items => leavesItems items
  | .object fields => leavesFields fields
  | v => [v]
termination_by structural v => v

/-- The scalars of the items of a list. -/
def leavesItems : List Value → List Value
  | [] => []
  | v :: rest => v.leaves ++ leavesItems rest
termination_by structural vs => vs

/-- The scalars of the values of an object. -/
def leavesFields : List (String × Value) → List Value
  | [] => []
  | (_, v) :: rest => v.leaves ++ leavesFields rest
termination_by structural fields => fields

end

theorem leaves_list (items : List Value) : (Value.list items).leaves = items.flatMap leaves := by
  rw [leaves]
  induction items with
  | nil => rw [leavesItems, List.flatMap_nil]
  | cons v rest ih => rw [leavesItems, ih, List.flatMap_cons]

theorem leaves_object (fields : Fields) :
    (Value.object fields).leaves = fields.flatMap fun entry => entry.2.leaves := by
  rw [leaves]
  induction fields with
  | nil => rw [leavesFields, List.flatMap_nil]
  | cons entry rest ih =>
    obtain ⟨key, v⟩ := entry
    rw [leavesFields, ih, List.flatMap_cons]

theorem leaves_of_isScalar {v : Value} (h : v.isScalar = true) : v.leaves = [v] := by
  cases v with
  | list items => cases h
  | object fields => cases h
  | null => rw [leaves]; all_goals simp
  | bool flag => rw [leaves]; all_goals simp
  | int number => rw [leaves]; all_goals simp
  | float number => rw [leaves]; all_goals simp
  | str text => rw [leaves]; all_goals simp

theorem mem_leaves_self {v : Value} (h : v.isScalar = true) : v ∈ v.leaves := by
  rw [leaves_of_isScalar h]
  exact List.mem_singleton_self v

/-- Leaves are scalars. -/
theorem isScalar_of_mem_leaves {w v : Value} (h : w ∈ v.leaves) : w.isScalar = true := by
  induction v using Value.induct with
  | scalar v hv =>
    rw [leaves_of_isScalar hv, List.mem_singleton] at h
    exact h ▸ hv
  | list items ih =>
    rw [leaves_list, List.mem_flatMap] at h
    obtain ⟨v, hv, hw⟩ := h
    exact ih v hv hw
  | object fields ih =>
    rw [leaves_object, List.mem_flatMap] at h
    obtain ⟨entry, hentry, hw⟩ := h
    exact ih entry hentry hw

/-- The leaves of an item are leaves of the list. -/
theorem leaves_subset_of_mem_items {v : Value} {items : List Value} (h : v ∈ items) :
    v.leaves ⊆ (Value.list items).leaves := by
  intro w hw
  rw [leaves_list]
  exact List.mem_flatMap.2 ⟨v, h, hw⟩

/-- The leaves of a value are leaves of the object. -/
theorem leaves_subset_of_mem_fields {entry : String × Value} {fields : Fields}
    (h : entry ∈ fields) : entry.2.leaves ⊆ (Value.object fields).leaves := by
  intro w hw
  rw [leaves_object]
  exact List.mem_flatMap.2 ⟨entry, h, hw⟩

/-- An object has no leaves that a larger one does not have. -/
theorem leaves_subset_of_subset {part fields : Fields} (h : part ⊆ fields) :
    (Value.object part).leaves ⊆ (Value.object fields).leaves := by
  intro w hw
  rw [leaves_object] at hw ⊢
  obtain ⟨entry, hentry, hw⟩ := List.mem_flatMap.1 hw
  exact List.mem_flatMap.2 ⟨entry, h hentry, hw⟩

/-- The leaves of a value that is looked up are leaves of the object. -/
theorem leaves_subset_of_get? {fields : Fields} {key : String} {v : Value}
    (h : fields.get? key = some v) : v.leaves ⊆ (Value.object fields).leaves :=
  leaves_subset_of_mem_fields (Fields.mem_of_get? h)

/-- The leaves of the value of a key that the object has. -/
theorem leaves_valueOf_subset {fields : Fields} {key : String} (h : key ∈ fields.keys) :
    (fields.valueOf key).leaves ⊆ (Value.object fields).leaves := by
  obtain ⟨v, hv⟩ := Option.isSome_iff_exists.1 ((Fields.get?_isSome_iff fields key).2 h)
  rw [Fields.valueOf_eq, hv]
  exact leaves_subset_of_get? hv

end Value

end QueryTree
