import QueryTree.Registry

/-!
# Laws of registries

**Names.**  `sortNames` keeps exactly the names of a list (`mem_sortNames`), in strictly ascending
order (`pairwise_sortNames`).

**Layers.**  A registration is seen by its own name alone (`get?_register_self`,
`get?_register_of_ne`), and a frozen layer refuses every registration (`register_frozen`).

**Registries.**  The nearest layer that has a name decides (`find?_of_own`, `find?_of_not_own`), and
the names of a registry are those that have a handler (`mem_names_iff`).
-/

namespace QueryTree

/-! ## Names -/

theorem mem_insertName (name other : String) (names : List String) :
    other ∈ insertName name names ↔ other = name ∨ other ∈ names := by
  induction names with
  | nil => simp [insertName]
  | cons first rest ih =>
    simp only [insertName]
    split
    · simp
    · split
      · next heq =>
        subst heq
        simp
      · simp only [List.mem_cons, ih]
        constructor
        · rintro (h | h | h) <;> simp [h]
        · rintro (h | h | h) <;> simp [h]

/-- Sorting keeps exactly the names of a list. -/
theorem mem_sortNames (name : String) (names : List String) :
    name ∈ sortNames names ↔ name ∈ names := by
  induction names with
  | nil => simp [sortNames]
  | cons first rest ih =>
    have hstep : sortNames (first :: rest) = insertName first (sortNames rest) := rfl
    rw [hstep, mem_insertName, ih, List.mem_cons]

theorem pairwise_insertName (name : String) {names : List String} (h : names.Pairwise (· < ·)) :
    (insertName name names).Pairwise (· < ·) := by
  induction names with
  | nil => simp [insertName]
  | cons first rest ih =>
    obtain ⟨hfirst, hrest⟩ := List.pairwise_cons.1 h
    simp only [insertName]
    split
    · rename_i hlt
      refine List.pairwise_cons.2 ⟨fun other hother => ?_, h⟩
      rcases List.mem_cons.1 hother with rfl | hother
      · exact hlt
      · exact String.lt_trans hlt (hfirst other hother)
    · split
      · exact h
      · rename_i hlt hne
        refine List.pairwise_cons.2 ⟨fun other hother => ?_, ih hrest⟩
        rcases (mem_insertName name other rest).1 hother with rfl | hother
        · refine Decidable.byContradiction fun hge => hne ?_
          exact String.le_antisymm (String.not_lt.1 hge) (String.not_lt.1 hlt)
        · exact hfirst other hother

/-- Sorted names ascend strictly. -/
theorem pairwise_sortNames (names : List String) : (sortNames names).Pairwise (· < ·) := by
  induction names with
  | nil => exact .nil
  | cons first rest ih => exact pairwise_insertName first ih

/-! ## Layers -/

theorem lookup_setEntry_self {α : Type} (name : String) (handler : α)
    (entries : List (String × α)) : (setEntry name handler entries).lookup name = some handler := by
  induction entries with
  | nil => simp [setEntry]
  | cons first rest ih =>
    obtain ⟨key, old⟩ := first
    by_cases h : key = name
    · simp [setEntry, h]
    · have h' : (name == key) = false := beq_eq_false_iff_ne.2 fun e => h e.symm
      simp [setEntry, h, List.lookup_cons, h', ih]

theorem lookup_setEntry_of_ne {α : Type} {name other : String} (hne : other ≠ name) (handler : α)
    (entries : List (String × α)) :
    (setEntry name handler entries).lookup other = entries.lookup other := by
  induction entries with
  | nil => simp [setEntry, List.lookup_cons, beq_eq_false_iff_ne.2 hne]
  | cons first rest ih =>
    obtain ⟨key, old⟩ := first
    by_cases h : key = name
    · subst h
      simp [setEntry, List.lookup_cons, beq_eq_false_iff_ne.2 hne]
    · simp only [setEntry, if_neg h, List.lookup_cons, ih]

/-- Giving a name the handler that it has. -/
theorem setEntry_of_lookup {α : Type} {name : String} {handler : α} {entries : List (String × α)}
    (h : entries.lookup name = some handler) : setEntry name handler entries = entries := by
  induction entries with
  | nil => simp at h
  | cons first rest ih =>
    obtain ⟨key, old⟩ := first
    by_cases hkey : key = name
    · subst hkey
      have hold : old = handler := by simpa using h
      simp [setEntry, hold]
    · have hkey' : (name == key) = false := beq_eq_false_iff_ne.2 fun e => hkey e.symm
      rw [List.lookup_cons, hkey'] at h
      simp [setEntry, hkey, ih h]

namespace Layer

variable {α : Type}

/-- A frozen layer refuses every registration. -/
theorem register_frozen {layer : Layer α} (h : layer.frozen = true) (name : Value) (handler : α) :
    layer.register name handler = .error (.frozen name layer.dialect) := by
  simp [register, h]

/-- An open layer accepts exactly the names of operators. -/
theorem register_open {layer : Layer α} (h : layer.frozen = false) (name : String) (handler : α) :
    layer.register (.str name) handler =
      if isOperatorName name then
        .ok { layer with entries := setEntry name handler layer.entries }
      else .error (.badName (.str name)) := by
  simp [register, h]

theorem get?_register_self {layer layer' : Layer α} {name : String} {handler : α}
    (h : layer.register (.str name) handler = .ok layer') : layer'.get? name = some handler := by
  simp only [register] at h
  split at h
  · cases h
  · split at h
    · cases h
      exact lookup_setEntry_self name handler layer.entries
    · cases h

theorem get?_register_of_ne {layer layer' : Layer α} {name other : String} {handler : α}
    (hne : other ≠ name) (h : layer.register (.str name) handler = .ok layer') :
    layer'.get? other = layer.get? other := by
  simp only [register] at h
  split at h
  · cases h
  · split at h
    · cases h
      exact lookup_setEntry_of_ne hne handler layer.entries
    · cases h

theorem mem_names_iff {layer : Layer α} {name : String} :
    name ∈ layer.names ↔ (layer.get? name).isSome = true := by
  rw [names, get?, List.lookup_isSome_iff, List.mem_map]
  constructor
  · rintro ⟨entry, hentry, rfl⟩
    exact ⟨entry, hentry, beq_self_eq_true _⟩
  · rintro ⟨entry, hentry, heq⟩
    exact ⟨entry, hentry, (beq_iff_eq.1 heq).symm⟩

end Layer

/-! ## Registries -/

namespace Registry

variable {α : Type}

/-- A name of the registry itself hides the layers below. -/
theorem find?_of_own {r : Registry α} {name : String} {handler : α}
    (h : r.own.get? name = some handler) : r.find? name = some handler := by
  simp [find?, layers, h]

/-- A name that the registry itself does not have is looked up below. -/
theorem find?_of_not_own {r : Registry α} {name : String} (h : r.own.get? name = none) :
    r.find? name = r.below.findSome? fun layer => layer.get? name := by
  simp [find?, layers, h]

/-- The names of a registry are those that have a handler. -/
theorem mem_names_iff {r : Registry α} {name : String} :
    name ∈ r.names ↔ (r.find? name).isSome = true := by
  simp only [names, mem_sortNames, List.mem_flatMap, Layer.mem_names_iff, find?,
    List.findSome?_isSome_iff]

end Registry

end QueryTree
