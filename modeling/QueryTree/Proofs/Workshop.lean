import QueryTree.Proofs.History

/-!
# Compositions that share registries

A dialect that is composed on top of another one does not copy its handlers: its registry stands
above the registry of the other dialect, and a name is looked up through the present state of both.
Here compositions live side by side, each above the dialect of an earlier one or from nothing, and
operations on them come in any order.

* `Workshop` holds the compositions.  `builder?` and `dialect?` read a registry through the pool of
  all of them, in its present state.
* `Action` starts a composition or performs an operation of one, and `run` does several.
* `Workshop.Sound` is the invariant.  **`builder?_eq`** says that under it the shared registries
  hold what each composition saw when it was started.
* **`getElem?_run`** : what becomes of a composition is decided by its own operations alone, and
  `accepted_eq` : so is which of them are accepted.
-/

namespace QueryTree

/-- Compositions in the order in which they were started, each with the number of the one whose
dialect it stands above. -/
structure Workshop where
  cells : List (Builder × Option Nat) := []

/-- What can be done in a workshop. -/
inductive Action where
  | start (name : String) (base : Option Nat)
  | perform (index : Nat) (operation : Operation)

/-- The operations that a history has for one composition. -/
def Action.operations (index : Nat) (history : List Action) : List Operation :=
  history.filterMap fun
    | .start _ _ => none
    | .perform other operation => if other = index then some operation else none

namespace Action

@[simp] theorem operations_nil (index : Nat) : operations index [] = [] := rfl

/-- Starting a builder is no operation on one. -/
@[simp] theorem operations_start (index : Nat) (name : String) (base : Option Nat)
    (rest : List Action) : operations index (.start name base :: rest) = operations index rest :=
  rfl

/-- An operation belongs to the builder that it is performed on. -/
@[simp] theorem operations_perform (index other : Nat) (operation : Operation)
    (rest : List Action) : operations index (.perform other operation :: rest) =
      if other = index then operation :: operations index rest else operations index rest := by
  by_cases h : other = index <;> simp [operations, h]

end Action

namespace Workshop

/-- The registries of all compositions. -/
def pool (w : Workshop) : Pool Handler :=
  ⟨w.cells.map fun cell => (cell.1.registry.own, cell.2)⟩

/-- A composition, with its registry in the present state. -/
def builder? (w : Workshop) (index : Nat) : Option Builder := do
  let cell ← w.cells[index]?
  let registry ← w.pool.registry? index
  return { cell.1 with registry }

/-- The dialect of a composition that is built, with its registry in the present state. -/
def dialect? (w : Workshop) (index : Nat) : Option Dialect := do
  let b ← w.builder? index
  if b.built then some b.edition else none

/-- Change a composition. -/
def put (w : Workshop) (index : Nat) (b : Builder) : Workshop :=
  ⟨w.cells.modify index fun cell => (b, cell.2)⟩

/-- How an operation of a composition goes. -/
def outcome? (w : Workshop) (index : Nat) (operation : Operation) :
    Option (Except ComposeFault Unit) :=
  (w.builder? index).map fun b => (b.perform operation).1

/-- Do one thing.  Only a dialect that is built can be the base of a composition. -/
def step (w : Workshop) : Action → Workshop
  | .start name none => ⟨w.cells ++ [(Builder.start name none, none)]⟩
  | .start name (some base) =>
    match w.dialect? base with
    | none => w
    | some d => ⟨w.cells ++ [(Builder.start name (some d), some base)]⟩
  | .perform index operation =>
    match w.builder? index with
    | none => w
    | some b => w.put index (b.perform operation).2

/-- Do several things in order. -/
def run (w : Workshop) (history : List Action) : Workshop :=
  history.foldl step w

/-- The operations of a composition that are accepted along a history. -/
def accepted (w : Workshop) (index : Nat) : List Action → List Operation
  | [] => []
  | .start name base :: rest => (w.step (.start name base)).accepted index rest
  | .perform other operation :: rest =>
    let later := (w.step (.perform other operation)).accepted index rest
    match w.outcome? other operation with
    | some (.ok _) => if other = index then operation :: later else later
    | _ => later

/-! ## The invariant -/

/-- The layers below the composition of a number are those of the dialect it stands above. -/
def Stands (w : Workshop) (index : Nat) (below : List (Layer Handler)) : Option Nat → Prop
  | none => below = []
  | some base => base < index ∧ ∃ cell, w.cells[base]? = some cell ∧ cell.1.built = true ∧
    below = cell.1.registry.layers

/-- Every composition is sound and stands above a dialect that was built before it. -/
structure Sound (w : Workshop) : Prop where
  builder : ∀ {index : Nat} {cell : Builder × Option Nat},
    w.cells[index]? = some cell → cell.1.Sound
  stands : ∀ {index : Nat} {cell : Builder × Option Nat},
    w.cells[index]? = some cell → w.Stands index cell.1.registry.below cell.2

variable {w : Workshop} {index : Nat}

/-- A workshop without builders is sound. -/
theorem sound_empty : Sound {} where
  builder h := by simp at h
  stands h := by simp at h

/-- Following the registries of the pool gives the layers that the composition has seen. -/
theorem Sound.chain_eq (hw : w.Sound) {cell : Builder × Option Nat}
    (hcell : w.cells[index]? = some cell) :
    Pool.chain w.pool.cells index = cell.1.registry.layers := by
  induction index using Nat.strongRecOn generalizing cell with
  | ind index ih =>
    have hstands := hw.stands hcell
    have hpool : w.pool.cells[index]? = some (cell.1.registry.own, cell.2) := by
      simp [pool, hcell]
    obtain ⟨b, base⟩ := cell
    rw [Pool.chain, hpool]
    cases base with
    | none => simp [Registry.layers, show b.registry.below = [] from hstands]
    | some base =>
      obtain ⟨hlt, below, hbelow, -, heq⟩ := hstands
      simp [hlt, ih base hlt hbelow, Registry.layers, show b.registry.below = _ from heq]

/-- **Nothing that is done later shows through the shared registries.** -/
theorem Sound.builder?_eq (hw : w.Sound) (index : Nat) :
    w.builder? index = (w.cells[index]?).map Prod.fst := by
  cases hcell : w.cells[index]? with
  | none => simp [builder?, hcell]
  | some cell =>
    have hregistry : w.pool.registry? index = some cell.1.registry := by
      rw [Pool.registry?, hw.chain_eq hcell]
      rfl
    simp [builder?, hcell, hregistry]

/-- A builder has a dialect exactly if it was built, and then it is its edition. -/
theorem Sound.dialect?_eq (hw : w.Sound) {cell : Builder × Option Nat}
    (hcell : w.cells[index]? = some cell) :
    w.dialect? index = if cell.1.built then some cell.1.edition else none := by
  rw [dialect?, hw.builder?_eq, hcell]
  rfl

theorem Sound.dialect?_eq_some (hw : w.Sound) {d : Dialect} (h : w.dialect? index = some d) :
    ∃ cell, w.cells[index]? = some cell ∧ cell.1.built = true ∧ d = cell.1.edition := by
  cases hcell : w.cells[index]? with
  | none =>
    rw [dialect?, hw.builder?_eq, hcell] at h
    cases h
  | some cell =>
    rw [hw.dialect?_eq hcell] at h
    split at h
    · rename_i hbuilt
      exact ⟨cell, rfl, hbuilt, (Option.some.inj h).symm⟩
    · cases h

/-! ## One action -/

/-- Putting a builder back changes no other one. -/
theorem getElem?_put (w : Workshop) (index : Nat) (b : Builder) (other : Nat) :
    (w.put index b).cells[other]? =
      if index = other then (w.cells[other]?).map fun cell => (b, cell.2) else w.cells[other]? := by
  simp only [put, List.getElem?_modify]
  split
  · rfl
  · exact Option.map_id'

/-- Changing a composition keeps what stands above the dialects that are built. -/
theorem Stands.put {cell : Builder × Option Nat} (hcell : w.cells[index]? = some cell) {b : Builder}
    (hbuilt : cell.1.built = true → b = cell.1) {other : Nat} {below : List (Layer Handler)}
    {base : Option Nat} (h : w.Stands other below base) :
    (w.put index b).Stands other below base := by
  cases base with
  | none => exact h
  | some base =>
    obtain ⟨hlt, under, hunder, hclosed, heq⟩ := h
    refine ⟨hlt, under, ?_, hclosed, heq⟩
    rw [getElem?_put]
    split
    · rename_i hindex
      subst hindex
      cases hcell.symm.trans hunder
      rw [hcell, hbuilt hclosed]
      rfl
    · exact hunder

/-- A builder can be put back after an operation that keeps what is below it; a closed one stays the
same. -/
theorem Sound.put (hw : w.Sound) {cell : Builder × Option Nat}
    (hcell : w.cells[index]? = some cell) {b : Builder} (hb : b.Sound)
    (hbelow : b.registry.below = cell.1.registry.below)
    (hbuilt : cell.1.built = true → b = cell.1) : (w.put index b).Sound := by
  have hcases : ∀ {other : Nat} {cell' : Builder × Option Nat},
      (w.put index b).cells[other]? = some cell' →
      (other = index ∧ cell' = (b, cell.2)) ∨ w.cells[other]? = some cell' := by
    intro other cell' h
    rw [getElem?_put] at h
    split at h
    · rename_i hindex
      subst hindex
      rw [hcell] at h
      exact .inl ⟨rfl, (Option.some.inj h).symm⟩
    · exact .inr h
  constructor
  · intro other cell' h
    rcases hcases h with ⟨-, rfl⟩ | hold
    · exact hb
    · exact hw.builder hold
  · intro other cell' h
    refine Stands.put hcell hbuilt ?_
    rcases hcases h with ⟨rfl, rfl⟩ | hold
    · rw [hbelow]
      exact hw.stands hcell
    · exact hw.stands hold

/-- A new builder stands on a dialect that was built before. -/
theorem Sound.add (hw : w.Sound) {b : Builder} (hb : b.Sound) {base : Option Nat}
    (hbase : w.Stands w.cells.length b.registry.below base) :
    Sound ⟨w.cells ++ [(b, base)]⟩ := by
  have hstands : ∀ {index : Nat} {below : List (Layer Handler)} {base' : Option Nat},
      w.Stands index below base' → Stands ⟨w.cells ++ [(b, base)]⟩ index below base' := by
    intro index below base' h
    cases base' with
    | none => exact h
    | some base' =>
      obtain ⟨hlt, cell, hcell, hbuilt⟩ := h
      have hbound := (List.getElem?_eq_some_iff.1 hcell).1
      exact ⟨hlt, cell, (List.getElem?_append_left hbound).trans hcell, hbuilt⟩
  have hcases : ∀ {index : Nat} {cell : Builder × Option Nat},
      (w.cells ++ [(b, base)])[index]? = some cell →
      w.cells[index]? = some cell ∨ index = w.cells.length ∧ cell = (b, base) := by
    intro index cell h
    by_cases hlt : index < w.cells.length
    · exact .inl ((List.getElem?_append_left hlt).symm.trans h)
    · rw [List.getElem?_append_right (Nat.le_of_not_lt hlt), List.getElem?_singleton] at h
      split at h
      · exact .inr ⟨by omega, (Option.some.inj h).symm⟩
      · cases h
  constructor
  · intro index cell h
    rcases hcases h with hold | ⟨-, rfl⟩
    · exact hw.builder hold
    · exact hb
  · intro index cell h
    refine hstands ?_
    rcases hcases h with hold | ⟨rfl, rfl⟩
    · exact hw.stands hold
    · exact hbase

/-- **Every action keeps a workshop sound.** -/
theorem Sound.step (hw : w.Sound) (action : Action) : (w.step action).Sound := by
  cases action with
  | start name base =>
    cases base with
    | none => exact hw.add (Builder.start_sound name) rfl
    | some base =>
      simp only [Workshop.step]
      split
      · exact hw
      · rename_i d hd
        obtain ⟨cell, hcell, hbuilt, rfl⟩ := hw.dialect?_eq_some hd
        have hbound := (List.getElem?_eq_some_iff.1 hcell).1
        exact hw.add ((hw.builder hcell).start hbuilt name) ⟨hbound, cell, hcell, hbuilt, rfl⟩
  | perform index operation =>
    simp only [Workshop.step, hw.builder?_eq]
    cases hcell : w.cells[index]? with
    | none => exact hw
    | some cell =>
      have hb := hw.builder hcell
      obtain ⟨-, -, hbelow⟩ := hb.consistent.perform operation
      refine hw.put hcell (hb.perform operation) hbelow fun hbuilt => ?_
      obtain ⟨fault, heq⟩ := Builder.perform_of_built hb.consistent hbuilt operation
      rw [heq]

/-- So does every history. -/
theorem Sound.run (hw : w.Sound) (history : List Action) : (w.run history).Sound := by
  induction history generalizing w with
  | nil => exact hw
  | cons action rest ih => exact ih (hw.step action)

/-! ## Histories -/

/-- One action does to a composition what its own operation says, and nothing if it is another's. -/
theorem Sound.getElem?_step (hw : w.Sound) {cell : Builder × Option Nat}
    (hcell : w.cells[index]? = some cell) (action : Action) :
    (w.step action).cells[index]? =
      some (cell.1.performAll (Action.operations index [action]), cell.2) := by
  have hbound := (List.getElem?_eq_some_iff.1 hcell).1
  cases action with
  | start name base =>
    cases base with
    | none => exact (List.getElem?_append_left hbound).trans hcell
    | some base =>
      simp only [Workshop.step]
      split
      · exact hcell
      · exact (List.getElem?_append_left hbound).trans hcell
  | perform other operation =>
    simp only [Workshop.step, hw.builder?_eq]
    by_cases hother : other = index
    · subst hother
      simp [hcell, getElem?_put, Builder.performAll]
    · cases hcell' : w.cells[other]? with
      | none => simp [hcell, hother, Builder.performAll]
      | some cell' => simp [hcell, getElem?_put, hother, Builder.performAll]

/-- **Each composition goes its own way**, whatever is done to the others. -/
theorem Sound.getElem?_run (hw : w.Sound) {cell : Builder × Option Nat}
    (hcell : w.cells[index]? = some cell) (history : List Action) :
    (w.run history).cells[index]? =
      some (cell.1.performAll (Action.operations index history), cell.2) := by
  induction history generalizing w cell with
  | nil => exact hcell
  | cons action rest ih =>
    have hoperations : Action.operations index (action :: rest) =
        Action.operations index [action] ++ Action.operations index rest :=
      List.filterMap_append (l := [action])
    rw [hoperations, Builder.performAll_append]
    exact ih (hw.step action) (hw.getElem?_step hcell action)

/-- Which operations are accepted depends on the builder alone, whatever happens to others in
between. -/
theorem Sound.accepted_eq (hw : w.Sound) {cell : Builder × Option Nat}
    (hcell : w.cells[index]? = some cell) (history : List Action) :
    w.accepted index history = cell.1.acceptedAll (Action.operations index history) := by
  induction history generalizing w cell with
  | nil => rfl
  | cons action rest ih =>
    have hrest := ih (hw.step action) (hw.getElem?_step hcell action)
    cases action with
    | start name base => exact hrest
    | perform other operation =>
      simp only [accepted, hrest, outcome?, hw.builder?_eq]
      by_cases hother : other = index
      · subst hother
        simp only [hcell, Action.operations_perform, if_true, Builder.acceptedAll, Builder.accepted]
        cases h : (cell.1.perform operation).1 <;> simp [h, Builder.performAll]
      · simp only [hother, if_false, Action.operations_perform]
        split <;> rfl

/-! ## Starting a composition -/

/-- A composition that is started above a built dialect, or from nothing, is the last one. -/
theorem getElem?_start {base : Option Nat}
    (hbase : ∀ number ∈ base, (w.dialect? number).isSome = true) (name : String) :
    (w.step (.start name base)).cells[w.cells.length]? =
      some (Builder.start name (base.bind w.dialect?), base) := by
  cases base with
  | none => exact List.getElem?_concat_length
  | some number =>
    obtain ⟨d, hd⟩ := Option.isSome_iff_exists.1 (hbase number rfl)
    simp [step, hd]

end Workshop

end QueryTree
