import QueryTree.Registry.Lemmas
import QueryTree.Report

/-!
# Runs of registries

Registries are created above each other, filled and frozen in any order.  What a registry answers
depends on the whole run, since a name that it does not have is looked up through the present state
of those below it.

* `RegistryStep` is one thing that can be done, and `Registrar` the registries with the
  registrations that were asked for and still wait for a handler.
* `Ledger` keeps what a run did in plain lists: who was created above whom, who was frozen, and the
  successful registrations, the latest first.
* `Registrar.Tracks` relates the two.  **`Tracks.next`** says that every step keeps it.
* **`lookup_of_run`** : after every run, every registry answers by the ledger.
-/

namespace QueryTree

/-- What can be done with registries.  A registry is given by its number, and a registration that
waits for its handler by the number of its request. -/
inductive RegistryStep (α : Type) where
  | create (dialect : String) (fallback : Option Nat)
  | register (index : Nat) (name : Value) (handler : α)
  | request (index : Nat) (name : Value)
  | supply (ticket : Nat) (handler : α)
  | freeze (index : Nat)

/-! ## The registries -/

/-- Registries, and the registrations that were asked for without a handler. -/
structure Registrar (α : Type) where
  pool : Pool α := {}
  requests : List (Nat × Value) := []

namespace Registrar

variable {α : Type}

/-- Register a handler. -/
def enter (s : Registrar α) (index : Nat) (name : Value) (handler : α) :
    Except RegistryFault (Registrar α) :=
  (s.pool.register index name handler).map fun pool => { s with pool }

/-- Do one thing.  Registries and requests that are not there are passed over. -/
def perform (s : Registrar α) : RegistryStep α → Except RegistryFault (Registrar α)
  | .create dialect fallback =>
    if fallback.all (· < s.pool.cells.length) then
      .ok { s with pool := (s.pool.create dialect fallback).1 }
    else .ok s
  | .register index name handler => s.enter index name handler
  | .request index name =>
    if index < s.pool.cells.length then .ok { s with requests := s.requests ++ [(index, name)] }
    else .ok s
  | .supply ticket handler =>
    match s.requests[ticket]? with
    | none => .ok s
    | some (index, name) => s.enter index name handler
  | .freeze index => .ok { s with pool := s.pool.freeze index }

/-- The registries after a step, which a failing one leaves as they are. -/
def next (s : Registrar α) (step : RegistryStep α) : Registrar α :=
  match s.perform step with
  | .ok s' => s'
  | .error _ => s

/-- The registries after several steps. -/
def run (steps : List (RegistryStep α)) : Registrar α :=
  steps.foldl next {}

end Registrar

/-! ## The ledger -/

/-- The name of an operator that a value is: a text of two characters or more, a dollar first. -/
def Value.operatorName? : Value → Option String
  | .str text => if text.toList.head? = some '$' ∧ 2 ≤ text.length then some text else none
  | _ => none

/-- What a run did. -/
structure Ledger (α : Type) where
  /-- The dialect of every registry and the registries below it, nearest first. -/
  created : List (String × List Nat) := []
  requests : List (Nat × Value) := []
  frozen : List Nat := []
  /-- The successful registrations, the latest first. -/
  entries : List (Nat × String × α) := []

namespace Ledger

variable {α : Type}

/-- Whether a registration fails. -/
def Refuses (l : Ledger α) (index : Nat) (name : Value) : Prop :=
  index ∈ l.frozen ∨ name.operatorName? = none

/-- The registration that a step tries. -/
def attempt? (l : Ledger α) : RegistryStep α → Option (Nat × Value × α)
  | .register index name handler =>
    if index < l.created.length then some (index, name, handler) else none
  | .supply ticket handler => (l.requests[ticket]?).map fun (index, name) => (index, name, handler)
  | _ => none

/-- Whether a step is a registration that fails. -/
def Fails (l : Ledger α) (step : RegistryStep α) : Prop :=
  ∃ index name handler, l.attempt? step = some (index, name, handler) ∧ l.Refuses index name

/-- Add a registration, if it succeeds. -/
def note (l : Ledger α) (index : Nat) (name : Value) (handler : α) : Ledger α :=
  match name.operatorName? with
  | none => l
  | some text =>
    if index ∈ l.frozen then l else { l with entries := (index, text, handler) :: l.entries }

/-- Add a step. -/
def step (l : Ledger α) : RegistryStep α → Ledger α
  | .create dialect none => { l with created := l.created ++ [(dialect, [])] }
  | .create dialect (some base) =>
    match l.created[base]? with
    | none => l
    | some (_, below) => { l with created := l.created ++ [(dialect, base :: below)] }
  | .request index name =>
    if index < l.created.length then { l with requests := l.requests ++ [(index, name)] } else l
  | .freeze index =>
    if index < l.created.length then { l with frozen := index :: l.frozen } else l
  | step =>
    match l.attempt? step with
    | none => l
    | some (index, name, handler) => l.note index name handler

/-- The ledger of a run. -/
def of (steps : List (RegistryStep α)) : Ledger α :=
  steps.foldl step {}

/-- The handler of the last successful registration of a name in one registry. -/
def last? (l : Ledger α) (index : Nat) (name : String) : Option α :=
  l.entries.findSome? fun entry =>
    if entry.1 = index ∧ entry.2.1 = name then some entry.2.2 else none

/-- The handler of a name in the nearest registry that has one, among one and those below it. -/
def handler? (l : Ledger α) (index : Nat) (below : List Nat) (name : String) : Option α :=
  (index :: below).findSome? fun i => l.last? i name

theorem last?_cons (l : Ledger α) (index : Nat) (text : String) (handler : α) (other : Nat)
    (name : String) :
    last? { l with entries := (index, text, handler) :: l.entries } other name =
      if index = other ∧ text = name then some handler else l.last? other name := by
  simp only [last?, List.findSome?_cons]
  split
  · rename_i h
    split at h
    · rename_i hmatch
      rw [if_pos hmatch, h]
    · cases h
  · rename_i h
    split at h
    · cases h
    · rename_i hmatch
      rw [if_neg hmatch]

/-- A step that fails leaves no trace in the ledger. -/
theorem step_of_fails (l : Ledger α) {step : RegistryStep α} (h : l.Fails step) :
    l.step step = l := by
  obtain ⟨index, name, handler, hattempt, hrefuses⟩ := h
  have hnote : l.note index name handler = l := by
    unfold note
    split
    · rfl
    · rename_i hname
      rcases hrefuses with hfrozen | hnone
      · rw [if_pos hfrozen]
      · cases hname.symm.trans hnone
  cases step with
  | register other _ _ | supply ticket _ => simpa only [Ledger.step, hattempt] using hnote
  | create dialect fallback | request other _ | freeze other => cases hattempt

/-- Nothing was registered in a registry that does not exist. -/
theorem last?_of_not_mem {l : Ledger α} {index : Nat} (h : ∀ entry ∈ l.entries, entry.1 ≠ index)
    (name : String) : l.last? index name = none := by
  rw [last?, List.findSome?_eq_none_iff]
  intro entry hentry
  exact if_neg fun hmatch => h entry hentry hmatch.1

end Ledger

/-! ## What a registry answers -/

/-- The answers of a registry of a dialect whose names have the given handlers. -/
structure Registry.Answers {α : Type} (r : Registry α) (dialect : String)
    (handler? : String → Option α) : Prop where
  get? : ∀ name, r.get? (.str name) = handler? name
  resolve_some : ∀ {name handler}, handler? name = some handler →
    r.resolve (.str name) = .ok handler
  resolve_none : ∀ {name}, handler? name = none →
    r.resolve (.str name) = .error ⟨.str name, dialect⟩
  contains : ∀ v, r.contains v = true ↔ ∃ name, v = .str name ∧ (handler? name).isSome = true
  ascending : r.names.Pairwise (· < ·)
  names : ∀ name, name ∈ r.names ↔ (handler? name).isSome = true

/-- All answers follow from the look-up. -/
theorem Registry.answers_of_find? {α : Type} {r : Registry α} {handler? : String → Option α}
    (h : ∀ name, r.find? name = handler? name) : r.Answers r.own.dialect handler? where
  get? := h
  resolve_some {name handler} hsome := by simp [resolve, Registry.get?, h, hsome]
  resolve_none {name} hnone := by simp [resolve, Registry.get?, h, hnone]
  contains v := by
    cases v with
    | str name => simp [Registry.contains, Registry.get?, h]
    | null | bool flag | int number | float number | list items | object fields =>
      simp [Registry.contains, Registry.get?]
  ascending := pairwise_sortNames _
  names name := by rw [mem_names_iff, h]

/-! ## One registration -/

variable {α : Type}

theorem Value.operatorName?_str (text : String) :
    (Value.str text).operatorName? = if isOperatorName text then some text else none := by
  have hiff : (text.toList.head? = some '$' ∧ 2 ≤ text.length) ↔ isOperatorName text = true := by
    unfold isOperatorName
    rw [← String.length_toList]
    split
    · rename_i heq
      simp [heq]
    · rename_i hnot
      cases hchars : text.toList with
      | nil => simp
      | cons first rest =>
        cases rest with
        | nil => simp
        | cons second rest =>
          have hfirst : first ≠ '$' := fun h => hnot second rest (h ▸ hchars)
          simp [hfirst]
  rw [operatorName?]
  simp only [hiff]

/-- How a registration goes. -/
theorem Layer.register_eq (layer : Layer α) (name : Value) (handler : α) :
    layer.register name handler =
      if layer.frozen then .error (.frozen name layer.dialect)
      else
        match name.operatorName? with
        | none => .error (.badName name)
        | some text => .ok { layer with entries := setEntry text handler layer.entries } := by
  cases name with
  | str text =>
    simp only [register, Value.operatorName?_str]
    by_cases htext : isOperatorName text = true
    · simp [htext]
    · simp [htext]
  | null | bool flag | int number | float number | list items | object fields => rfl

/-- Only the layer that is set changes. -/
theorem Pool.getElem?_setLayer (pool : Pool α) (index : Nat) (layer : Layer α) (other : Nat) :
    (pool.setLayer index layer).cells[other]? =
      if index = other then (pool.cells[other]?).map fun cell => (layer, cell.2)
      else pool.cells[other]? := by
  simp only [setLayer, List.getElem?_modify]
  split
  · rfl
  · exact Option.map_id'

/-! ## The invariant -/

namespace Ledger

/-- The registries below one are the one it was created above and those below that. -/
def Under (l : Ledger α) (index : Nat) (below : List Nat) : Option Nat → Prop
  | none => below = []
  | some base => base < index ∧ ∃ dialect rest, l.created[base]? = some (dialect, rest) ∧
    below = base :: rest

/-- The ledger tells the present state of a registry. -/
structure Describes (l : Ledger α) (index : Nat) (cell : Layer α × Option Nat)
    (below : List Nat) : Prop where
  created : l.created[index]? = some (cell.1.dialect, below)
  under : l.Under index below cell.2
  frozen : cell.1.frozen = true ↔ index ∈ l.frozen
  get? : ∀ name, cell.1.get? name = l.last? index name

variable {l : Ledger α} {index : Nat} {below : List Nat}

theorem getElem?_created_append {base : Nat} {known : String × List Nat}
    (h : l.created[base]? = some known) (entry : String × List Nat) :
    (l.created ++ [entry])[base]? = some known :=
  (List.getElem?_append_left (List.getElem?_eq_some_iff.1 h).1).trans h

theorem Under.append {fallback : Option Nat} (h : l.Under index below fallback)
    (entry : String × List Nat) :
    Under { l with created := l.created ++ [entry] } index below fallback := by
  cases fallback with
  | none => exact h
  | some base =>
    obtain ⟨hlt, dialect, rest, hcreated, hbelow⟩ := h
    exact ⟨hlt, dialect, rest, getElem?_created_append hcreated entry, hbelow⟩

theorem Describes.append {cell : Layer α × Option Nat} (h : l.Describes index cell below)
    (entry : String × List Nat) :
    Describes { l with created := l.created ++ [entry] } index cell below :=
  ⟨getElem?_created_append h.created entry, h.under.append entry, h.frozen, h.get?⟩

end Ledger

namespace Registrar

open Ledger (Under Describes)

/-- The ledger tells the present state of all registries. -/
structure Tracks (s : Registrar α) (l : Ledger α) : Prop where
  requests : s.requests = l.requests
  length : s.pool.cells.length = l.created.length
  cell : ∀ {index cell}, s.pool.cells[index]? = some cell → ∃ below, l.Describes index cell below
  requests_lt : ∀ request ∈ l.requests, request.1 < l.created.length
  frozen_lt : ∀ index ∈ l.frozen, index < l.created.length
  entries_lt : ∀ entry ∈ l.entries, entry.1 < l.created.length

namespace Tracks

variable {s : Registrar α} {l : Ledger α}

/-- Nothing has been done at the start. -/
theorem empty : Tracks (α := α) {} {} where
  requests := rfl
  length := rfl
  cell h := by simp at h
  requests_lt := by simp
  frozen_lt := by simp
  entries_lt := by simp

/-- Every registry that was created has its layer and what is below it. -/
theorem exists_cell (h : s.Tracks l) {index : Nat} (hindex : index < l.created.length) :
    ∃ layer fallback below, s.pool.cells[index]? = some (layer, fallback) ∧
      l.Describes index (layer, fallback) below := by
  have hcell := List.getElem?_eq_getElem (h.length.symm ▸ hindex)
  obtain ⟨below, hdescribes⟩ := h.cell hcell
  exact ⟨_, _, below, hcell, hdescribes⟩

/-- A registry that is created is open and has no handlers. -/
theorem create (h : s.Tracks l) (dialect : String) {fallback : Option Nat} {below : List Nat}
    (hunder : l.Under l.created.length below fallback) :
    Tracks { s with pool := (s.pool.create dialect fallback).1 }
      { l with created := l.created ++ [(dialect, below)] } := by
  have hgrow : ∀ {i}, i < l.created.length → i < (l.created ++ [(dialect, below)]).length := by
    simp only [List.length_append]
    omega
  refine ⟨h.requests, by simp [Pool.create, h.length], fun {index cell} hcell => ?_,
    fun request hr => hgrow (h.requests_lt request hr), fun i hi => hgrow (h.frozen_lt i hi),
    fun entry he => hgrow (h.entries_lt entry he)⟩
  by_cases hindex : index < s.pool.cells.length
  · obtain ⟨below', hdescribes⟩ := h.cell ((List.getElem?_append_left hindex).symm.trans hcell)
    exact ⟨below', hdescribes.append _⟩
  · have hlast : index = s.pool.cells.length := by
      have := (List.getElem?_eq_some_iff.1 hcell).1
      simp only [Pool.create, List.length_append, List.length_singleton] at this
      omega
    subst hlast
    simp only [Pool.create, List.getElem?_concat_length, Option.some.injEq] at hcell
    subst hcell
    rw [h.length]
    refine ⟨below, List.getElem?_concat_length, hunder.append _, ?_, fun name => ?_⟩
    · exact ⟨fun hfrozen => (Bool.noConfusion hfrozen),
        fun hmem => absurd (h.frozen_lt _ hmem) (Nat.lt_irrefl _)⟩
    · refine (Ledger.last?_of_not_mem (fun entry hentry => ?_) name).symm
      exact Nat.ne_of_lt (h.entries_lt entry hentry)

/-- A registration that is asked for changes no registry. -/
theorem request (h : s.Tracks l) {index : Nat} (hindex : index < l.created.length)
    (name : Value) :
    Tracks { s with requests := s.requests ++ [(index, name)] }
      { l with requests := l.requests ++ [(index, name)] } := by
  refine ⟨congrArg (· ++ _) h.requests, h.length, fun hcell => ?_, ?_, h.frozen_lt, h.entries_lt⟩
  · obtain ⟨below, hdescribes⟩ := h.cell hcell
    exact ⟨below, hdescribes.created, hdescribes.under, hdescribes.frozen, hdescribes.get?⟩
  · intro request hrequest
    rcases List.mem_append.1 hrequest with hold | hnew
    · exact h.requests_lt request hold
    · obtain rfl := List.mem_singleton.1 hnew
      exact hindex

/-- The layer of one registry changes, and the ledger says the same of it and nothing new of the
others. -/
theorem setLayer (h : s.Tracks l) {index : Nat} {cell : Layer α × Option Nat}
    (hcell : s.pool.cells[index]? = some cell) {layer : Layer α}
    (hdialect : layer.dialect = cell.1.dialect) {frozen : List Nat}
    {entries : List (Nat × String × α)}
    (hfrozen : layer.frozen = true ↔ index ∈ frozen)
    (hget : ∀ name, layer.get? name = Ledger.last? { l with entries } index name)
    (hfrozen_other : ∀ other, other ≠ index → (other ∈ frozen ↔ other ∈ l.frozen))
    (hget_other : ∀ other, other ≠ index → ∀ name,
      Ledger.last? { l with entries } other name = l.last? other name)
    (hentries : ∀ entry ∈ entries, entry.1 = index ∨ entry ∈ l.entries) :
    Tracks { s with pool := s.pool.setLayer index layer } { l with frozen, entries } := by
  have hindex : index < l.created.length := h.length ▸ (List.getElem?_eq_some_iff.1 hcell).1
  refine ⟨h.requests, by simp [Pool.setLayer, h.length], fun {other cell'} hcell' => ?_,
    h.requests_lt, fun i hi => ?_, fun entry he => ?_⟩
  · rw [Pool.getElem?_setLayer] at hcell'
    split at hcell'
    · rename_i heq
      subst heq
      rw [hcell] at hcell'
      cases hcell'
      obtain ⟨below, hdescribes⟩ := h.cell hcell
      exact ⟨below, hdialect ▸ hdescribes.created, hdescribes.under, hfrozen, hget⟩
    · rename_i hne
      obtain ⟨below, hdescribes⟩ := h.cell hcell'
      refine ⟨below, hdescribes.created, hdescribes.under, ?_, fun name => ?_⟩
      · exact hdescribes.frozen.trans (hfrozen_other other (Ne.symm hne)).symm
      · exact (hdescribes.get? name).trans (hget_other other (Ne.symm hne) name).symm
  · by_cases hi' : i = index
    · exact hi' ▸ hindex
    · exact h.frozen_lt i ((hfrozen_other i hi').1 hi)
  · rcases hentries entry he with heq | hold
    · exact heq ▸ hindex
    · exact h.entries_lt entry hold

/-- Freezing a registry keeps the ledger right. -/
theorem freeze (h : s.Tracks l) {index : Nat} (hindex : index < l.created.length) :
    Tracks { s with pool := s.pool.freeze index } { l with frozen := index :: l.frozen } := by
  obtain ⟨layer, fallback, below, hcell, hdescribes⟩ := h.exists_cell hindex
  have hdialect : layer.freeze.dialect = layer.dialect := rfl
  rw [Pool.freeze, hcell]
  exact h.setLayer hcell hdialect (by simp [Layer.freeze]) hdescribes.get?
    (fun other hne => by simp [hne]) (fun _ _ _ => rfl) fun _ he => .inr he

/-- A registration succeeds unless the ledger refuses it, and is then the last one of its name. -/
theorem enter (h : s.Tracks l) {index : Nat} (hindex : index < l.created.length) (name : Value)
    (handler : α) :
    (l.Refuses index name ∧ ∃ fault, s.enter index name handler = .error fault) ∨
      ¬ l.Refuses index name ∧
        ∃ s', s.enter index name handler = .ok s' ∧ s'.Tracks (l.note index name handler) := by
  obtain ⟨layer, fallback, below, hcell, hdescribes⟩ := h.exists_cell hindex
  rw [Registrar.enter, Pool.register, hcell]
  dsimp only
  rw [Layer.register_eq]
  by_cases hfrozen : layer.frozen = true
  · rw [if_pos hfrozen]
    exact .inl ⟨.inl (hdescribes.frozen.1 hfrozen), _, rfl⟩
  · have hopen : index ∉ l.frozen := fun hmem => hfrozen (hdescribes.frozen.2 hmem)
    rw [if_neg hfrozen]
    cases hname : name.operatorName? with
    | none => exact .inl ⟨.inr hname, _, rfl⟩
    | some text =>
      refine .inr ⟨?_, _, rfl, ?_⟩
      · rintro (hmem | hnone)
        · exact hopen hmem
        · rw [hname] at hnone
          cases hnone
      · simp only [Ledger.note, hname, if_neg hopen]
        have hdialect : (Layer.mk layer.dialect (setEntry text handler layer.entries)
          layer.frozen).dialect = layer.dialect := rfl
        refine h.setLayer hcell hdialect hdescribes.frozen (fun other => ?_) (fun _ _ => Iff.rfl)
          (fun other hne other' => ?_) (fun entry he => ?_)
        · rw [Ledger.last?_cons]
          by_cases htext : text = other
          · subst htext
            rw [if_pos ⟨rfl, rfl⟩]
            exact lookup_setEntry_self text handler layer.entries
          · rw [if_neg fun hboth => htext hboth.2, ← hdescribes.get? other]
            exact lookup_setEntry_of_ne (Ne.symm htext) handler layer.entries
        · rw [Ledger.last?_cons, if_neg fun hboth => hne hboth.1.symm]
        · rcases List.mem_cons.1 he with rfl | hold
          · exact .inl rfl
          · exact .inr hold

/-! ## Steps and runs -/

theorem attempt_lt (h : s.Tracks l) {step : RegistryStep α} {index : Nat} {name : Value}
    {handler : α} (hattempt : l.attempt? step = some (index, name, handler)) :
    index < l.created.length := by
  cases step with
  | register other _ _ =>
    simp only [Ledger.attempt?] at hattempt
    split at hattempt
    · rename_i hlt
      cases hattempt
      exact hlt
    · cases hattempt
  | supply ticket _ =>
    obtain ⟨request, hrequest, heq⟩ := Option.map_eq_some_iff.1 hattempt
    cases heq
    exact h.requests_lt _ (List.mem_of_getElem? hrequest)
  | create dialect fallback | request other _ | freeze other => cases hattempt

/-- Whatever the step is, an entry is made in the same way. -/
theorem perform_of_attempt (h : s.Tracks l) {step : RegistryStep α} {index : Nat} {name : Value}
    {handler : α} (hattempt : l.attempt? step = some (index, name, handler)) :
    s.perform step = s.enter index name handler ∧ l.step step = l.note index name handler := by
  cases step with
  | register other name' handler' =>
    have hlt := h.attempt_lt hattempt
    simp only [Ledger.attempt?] at hattempt
    split at hattempt
    · cases hattempt
      simp [Registrar.perform, Ledger.step, Ledger.attempt?, hlt]
    · cases hattempt
  | supply ticket handler' =>
    obtain ⟨request, hrequest, heq⟩ := Option.map_eq_some_iff.1 hattempt
    cases heq
    simp [Registrar.perform, Ledger.step, Ledger.attempt?, h.requests, hrequest]
  | create dialect fallback | request other _ | freeze other => cases hattempt

/-- The steps that try no registration. -/
theorem perform_of_no_attempt (h : s.Tracks l) {step : RegistryStep α}
    (hattempt : l.attempt? step = none) :
    ∃ s', s.perform step = .ok s' ∧ s'.Tracks (l.step step) := by
  cases step with
  | create dialect fallback =>
    cases fallback with
    | none => exact ⟨_, rfl, h.create dialect rfl⟩
    | some base =>
      simp only [Registrar.perform, Ledger.step, Option.all_some, decide_eq_true_eq, h.length]
      cases hbase : l.created[base]? with
      | none =>
        rw [if_neg (Nat.not_lt.2 (List.getElem?_eq_none_iff.1 hbase))]
        exact ⟨s, rfl, h⟩
      | some known =>
        obtain ⟨hlt, -⟩ := List.getElem?_eq_some_iff.1 hbase
        rw [if_pos hlt]
        exact ⟨_, rfl, h.create dialect ⟨hlt, _, _, hbase, rfl⟩⟩
  | request index name =>
    simp only [Registrar.perform, Ledger.step, h.length]
    split
    · rename_i hlt
      exact ⟨_, rfl, h.request hlt name⟩
    · exact ⟨s, rfl, h⟩
  | freeze index =>
    simp only [Registrar.perform, Ledger.step]
    split
    · rename_i hlt
      exact ⟨_, rfl, h.freeze hlt⟩
    · rename_i hge
      have hnone : s.pool.cells[index]? = none :=
        List.getElem?_eq_none_iff.2 (h.length ▸ Nat.not_lt.1 hge)
      refine ⟨_, rfl, ?_⟩
      simpa only [Pool.freeze, hnone] using h
  | register index name handler =>
    have hge : ¬ index < l.created.length := fun hlt => by simp [Ledger.attempt?, hlt] at hattempt
    have hnone : s.pool.cells[index]? = none :=
      List.getElem?_eq_none_iff.2 (h.length ▸ Nat.not_lt.1 hge)
    refine ⟨s, ?_, ?_⟩
    · simp only [Registrar.perform, Registrar.enter, Pool.register, hnone]
      rfl
    · simpa only [Ledger.step, hattempt] using h
  | supply ticket handler =>
    have hnone : l.requests[ticket]? = none := Option.map_eq_none_iff.1 hattempt
    refine ⟨s, ?_, ?_⟩
    · simp only [Registrar.perform, h.requests, hnone]
    · simpa only [Ledger.step, hattempt] using h

/-- A step fails exactly if it is a registration that the ledger refuses. -/
theorem perform (h : s.Tracks l) (step : RegistryStep α) :
    (l.Fails step ∧ ∃ fault, s.perform step = .error fault) ∨
      ¬ l.Fails step ∧ ∃ s', s.perform step = .ok s' ∧ s'.Tracks (l.step step) := by
  cases hattempt : l.attempt? step with
  | none =>
    refine .inr ⟨?_, h.perform_of_no_attempt hattempt⟩
    rintro ⟨index, name, handler, hsome, -⟩
    cases hattempt.symm.trans hsome
  | some attempt =>
    obtain ⟨index, name, handler⟩ := attempt
    obtain ⟨hperform, hstep⟩ := h.perform_of_attempt hattempt
    rw [hperform, hstep]
    rcases h.enter (h.attempt_lt hattempt) name handler with ⟨hrefuses, hfault⟩ | ⟨hnot, hok⟩
    · exact .inl ⟨⟨index, name, handler, hattempt, hrefuses⟩, hfault⟩
    · refine .inr ⟨?_, hok⟩
      rintro ⟨index', name', handler', hsome, hrefuses⟩
      cases hattempt.symm.trans hsome
      exact hnot hrefuses

/-- **Every step keeps the ledger true.** -/
theorem next (h : s.Tracks l) (step : RegistryStep α) : (s.next step).Tracks (l.step step) := by
  rcases h.perform step with ⟨hfails, fault, hperform⟩ | ⟨-, s', hperform, htracks⟩
  · rw [Registrar.next, hperform, l.step_of_fails hfails]
    exact h
  · rw [Registrar.next, hperform]
    exact htracks

/-- **The ledger of any steps tells what the registries hold.** -/
theorem run (steps : List (RegistryStep α)) : (Registrar.run steps).Tracks (Ledger.of steps) := by
  suffices hfold : ∀ {s : Registrar α} {l : Ledger α}, s.Tracks l →
      (steps.foldl Registrar.next s).Tracks (steps.foldl Ledger.step l) from hfold empty
  induction steps with
  | nil => exact id
  | cons step rest ih => exact fun h => ih (h.next step)

/-! ## Look-up -/

/-- Following the registries from one to the next finds what the ledger says. -/
theorem findSome?_chain (h : s.Tracks l) {index : Nat} {dialect : String} {below : List Nat}
    (hcreated : l.created[index]? = some (dialect, below)) (name : String) :
    (Pool.chain s.pool.cells index).findSome? (fun layer => layer.get? name) =
      l.handler? index below name := by
  induction index using Nat.strongRecOn generalizing dialect below with
  | ind index ih =>
    obtain ⟨hlt, -⟩ := List.getElem?_eq_some_iff.1 hcreated
    obtain ⟨layer, fallback, below', hcell, hdescribes⟩ := h.exists_cell hlt
    cases hcreated.symm.trans hdescribes.created
    have hunder := hdescribes.under
    rw [Pool.chain, hcell]
    cases fallback with
    | none =>
      obtain rfl : below = [] := hunder
      simp only [Ledger.handler?, List.findSome?_cons, List.findSome?_nil, hdescribes.get?]
    | some base =>
      obtain ⟨hbase, dialect', rest, hknown, rfl⟩ := hunder
      have hrest := ih base hbase hknown
      simp only [hbase, if_true, Ledger.handler?, List.findSome?_cons, hdescribes.get?] at hrest ⊢
      rw [hrest]

/-- The registry of a number, and what it answers. -/
theorem registry? (h : s.Tracks l) {index : Nat} {dialect : String} {below : List Nat}
    (hcreated : l.created[index]? = some (dialect, below)) :
    ∃ r, s.pool.registry? index = some r ∧ r.Answers dialect (l.handler? index below) := by
  obtain ⟨hlt, -⟩ := List.getElem?_eq_some_iff.1 hcreated
  obtain ⟨layer, fallback, below', hcell, hdescribes⟩ := h.exists_cell hlt
  cases hcreated.symm.trans hdescribes.created
  obtain ⟨rest, hchain⟩ : ∃ rest, Pool.chain s.pool.cells index = layer :: rest := by
    rw [Pool.chain, hcell]
    cases fallback with
    | none => exact ⟨[], rfl⟩
    | some base =>
      dsimp only
      split
      · exact ⟨_, rfl⟩
      · exact ⟨[], rfl⟩
  refine ⟨⟨layer, rest⟩, by rw [Pool.registry?, hchain], ?_⟩
  refine Registry.answers_of_find? fun name => ?_
  rw [← h.findSome?_chain hcreated, hchain]
  rfl

theorem registry?_eq_none (h : s.Tracks l) {index : Nat} (hcreated : l.created[index]? = none) :
    s.pool.registry? index = none := by
  have hnone : s.pool.cells[index]? = none := by
    rw [List.getElem?_eq_none_iff, h.length]
    exact List.getElem?_eq_none_iff.1 hcreated
  rw [Pool.registry?, Pool.chain, hnone]

end Tracks

/-- **After every run, every registry answers by the ledger of the run**: with the last successful
registration of a name, in the nearest registry that has one.  A registration fails exactly if the
registry is frozen or the name is not an operator's, and then leaves all registries as they are. -/
theorem lookup_of_run (steps : List (RegistryStep α)) :
    (∀ index,
      match (Ledger.of steps).created[index]? with
      | none => (run steps).pool.registry? index = none
      | some (dialect, below) => ∃ r, (run steps).pool.registry? index = some r ∧
        r.Answers dialect ((Ledger.of steps).handler? index below) ∧
        ∀ name, ∃ message, (Failure.unresolved ⟨.str name, dialect⟩).report =
          .refusal .unknownOperator message "UNKNOWN_OPERATOR"
            [("operator", .value (.str name)), ("dialect", .value (.str dialect))]) ∧
    ∀ step,
      ((Ledger.of steps).Fails step ∧ (∃ fault, (run steps).perform step = .error fault) ∧
        run (steps ++ [step]) = run steps) ∨
      ¬ (Ledger.of steps).Fails step ∧ ∃ s, (run steps).perform step = .ok s := by
  have htracks := Tracks.run steps
  refine ⟨fun index => ?_, fun step => ?_⟩
  · cases hcreated : (Ledger.of steps).created[index]? with
    | none => exact htracks.registry?_eq_none hcreated
    | some known =>
      obtain ⟨r, hr, hanswers⟩ := htracks.registry? hcreated
      exact ⟨r, hr, hanswers, fun name => ⟨_, rfl⟩⟩
  · have hrun : run (steps ++ [step]) = (run steps).next step := List.foldl_append
    rcases htracks.perform step with ⟨hfails, fault, hperform⟩ | ⟨hnot, s, hperform, -⟩
    · refine .inl ⟨hfails, ⟨fault, hperform⟩, ?_⟩
      rw [hrun, next, hperform]
    · exact .inr ⟨hnot, s, hperform⟩

/-- A handler that is supplied to a fallback is seen from above, and one that comes after it was
frozen is not. -/
example :
    (Ledger.of [.create "base" none, .create "top" (some 0), .request 0 (.str "$x"), .supply 0 1,
      .freeze 0, .register 0 (.str "$x") 2]).handler? 1 [0] "$x" = some 1 := by decide

end Registrar

end QueryTree
