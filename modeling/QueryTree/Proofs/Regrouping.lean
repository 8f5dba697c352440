import QueryTree.Proofs.Bodies

/-!
# Entries in one object or in several

Where a clause takes the entries of an object, it also takes a list of objects, and it does not
matter how the entries are spread over them.  Lists of names can be nested in the same way.

* `Rendering.each_flatten` : going through several lists is going through all of their items.
* `nameList_regroup`, `sortColumns_regroup`, `projection_regroup` : the entries of an object, given
  in several objects.
* `Dialect.same_define_regroup` : the same for the columns of a table, whose entries are rendered by
  an operator of their own.
* `Value.flat` lists the names of nested lists, and `nameList_flat` says that they are rendered one
  by one; a list that `HasEmptyList` is refused.
* **`Dialect.regrouped_outcome`** : it does not matter how entries and names are grouped.
-/

namespace QueryTree

open Rendering (each)

/-- The value of a key in an object with an entry in the middle. -/
theorem Fields.valueOf_append_cons (before after : Fields) (key : String) (v : Value)
    (other : String) :
    Fields.valueOf (before ++ (key, v) :: after) other =
      (before.get? other).getD (if other = key then v else after.valueOf other) := by
  induction before with
  | nil =>
    rw [List.nil_append, valueOf_eq, get?_cons, get?_nil, Option.getD_none, valueOf_eq]
    split <;> rfl
  | cons entry rest ih =>
    rw [List.cons_append, valueOf_eq, get?_cons, get?_cons]
    split
    · rfl
    · exact ih

/-! ## Lists of lists -/

namespace Rendering

variable {α β γ : Type}

/-- Going through several lists is going through all of their items. -/
theorem each_flatten (f : α → Rendering β) (chunks : List (List α)) :
    each f chunks.flatten = do
      let parts ← each (each f) chunks
      return parts.flatten := by
  induction chunks with
  | nil => rfl
  | cons chunk rest ih => simp [each_append, each, ih]

/-- Results that are put into others, item by item. -/
theorem each_pure (f : α → Rendering β) (g : β → γ) (items : List α) :
    each (fun a => do let b ← f a; return g b) items = do
      let bs ← each f items
      return bs.map g := by
  induction items with
  | nil => rfl
  | cons a rest ih => simp only [each, ih, bind_assoc, pure_bind, List.map_cons]

/-- What follows lists of programs sees as many results as there are items. -/
theorem each_each_bind_congr (f : α → Rendering β) {chunks : List (List α)}
    (hchunks : ∀ chunk ∈ chunks, chunk ≠ []) {g g' : List (List β) → Rendering γ}
    (h : ∀ parts, (∀ part ∈ parts, part ≠ []) → g parts = g' parts) :
    each (each f) chunks >>= g = each (each f) chunks >>= g' := by
  induction chunks generalizing g g' with
  | nil => exact h [] (by simp)
  | cons chunk rest ih =>
    obtain ⟨hchunk, hrest⟩ := List.forall_mem_cons.1 hchunks
    simp only [each, bind_assoc, pure_bind]
    refine each_bind_congr f fun part hpart => ih hrest fun parts hparts => h _ ?_
    refine List.forall_mem_cons.2 ⟨?_, hparts⟩
    rintro rfl
    exact hchunk (List.length_eq_zero_iff.1 hpart.symm)

/-- The program has a result or refuses, without any effect before. -/
def Settled (x : Rendering α) : Prop :=
  (∃ a, x = pure a) ∨ ∃ fault, x = .refuse fault

theorem Settled.bind {x : Rendering α} {f : α → Rendering β} (hx : x.Settled)
    (hf : ∀ a, (f a).Settled) : (x >>= f).Settled := by
  rcases hx with ⟨a, rfl⟩ | ⟨fault, rfl⟩
  · rw [pure_bind]
    exact hf a
  · exact .inr ⟨fault, rfl⟩

theorem Settled.ofExcept (result : Except Fault α) : (Rendering.ofExcept result).Settled := by
  cases result with
  | ok a => exact .inl ⟨a, rfl⟩
  | error fault => exact .inr ⟨fault, rfl⟩

theorem Settled.each {f : α → Rendering β} {items : List α} (hf : ∀ a ∈ items, (f a).Settled) :
    (each f items).Settled := by
  induction items with
  | nil => exact .inl ⟨[], rfl⟩
  | cons a rest ih =>
    obtain ⟨ha, hrest⟩ := List.forall_mem_cons.1 hf
    exact ha.bind fun b => (ih hrest).bind fun bs => .inl ⟨b :: bs, rfl⟩

/-- A list is refused if one of its items is. -/
theorem each_refused {f : α → Rendering β} (hf : ∀ a, (f a).Settled) {items : List α} {a : α}
    (ha : a ∈ items) (hrefused : ∃ fault, f a = .refuse fault) :
    ∃ fault, Rendering.each f items = .refuse fault := by
  induction ha with
  | head rest =>
    obtain ⟨fault, hfault⟩ := hrefused
    exact ⟨fault, by rw [Rendering.each, hfault]; rfl⟩
  | tail other _ ih =>
    obtain ⟨fault, hfault⟩ := ih
    rcases hf other with ⟨b, hb⟩ | ⟨fault', hfault'⟩
    · exact ⟨fault, by rw [Rendering.each, hb, hfault]; rfl⟩
    · exact ⟨fault', by rw [Rendering.each, hfault']; rfl⟩

end Rendering

/-- Lists with commas between them, put into one. -/
theorem commaList_flatten {parts : List (List String)} (hparts : ∀ part ∈ parts, part ≠ []) :
    commaList (parts.map commaList) = commaList parts.flatten := by
  suffices h : ∀ before, commaList (before ++ parts.map commaList) =
      commaList (before ++ parts.flatten) from h []
  induction parts with
  | nil => exact fun _ => rfl
  | cons part rest ih =>
    intro before
    obtain ⟨hpart, hrest⟩ := List.forall_mem_cons.1 hparts
    calc commaList (before ++ commaList part :: rest.map commaList)
        = commaList (before ++ part ++ rest.map commaList) :=
          Filter.intercalate_nested ", " hpart before _
      _ = commaList (before ++ part ++ rest.flatten) := ih hrest _
      _ = commaList (before ++ (part :: rest).flatten) := by simp

/-- Lists of texts, each with commas between its texts and with commas between them. -/
theorem each_commaList {α : Type} (f : α → Rendering String) {chunks : List (List α)}
    (hchunks : ∀ chunk ∈ chunks, chunk ≠ []) :
    (do
      let parts ← each (fun chunk => do let parts ← each f chunk; return commaList parts) chunks
      return commaList parts) = do
      let parts ← each f chunks.flatten
      return commaList parts := by
  rw [Rendering.each_pure, Rendering.each_flatten]
  simp only [bind_assoc, pure_bind]
  exact Rendering.each_each_bind_congr f hchunks fun parts hparts => by
    rw [commaList_flatten hparts]

/-! ## Expressions -/

section

variable {chunks : List Fields} (ctx : Context)

theorem nameList_list (operator : Option String) {items : List Value} (hitems : items ≠ []) :
    nameList ctx operator (.list items) = do
      let parts ← each (nameList ctx operator) items
      return commaList parts := by
  rw [nameList, if_neg (by simpa using hitems), nameItems_eq_each]

/-- Aliases of names, given in several objects. -/
theorem nameList_regroup (hchunks : ∀ chunk ∈ chunks, chunk ≠ []) (hne : chunks ≠ [])
    (operator : Option String) :
    nameList ctx operator (.object chunks.flatten) =
      nameList ctx operator (.list (chunks.map .object)) := by
  rw [nameList_list ctx operator (by simpa using hne), Rendering.each_map]
  simp only [nameList]
  exact (each_commaList _ hchunks).symm

/-- Columns to sort by, given in several objects. -/
theorem sortColumns_regroup (hne : chunks ≠ []) :
    Operator.sortColumns ctx (.object chunks.flatten) =
      Operator.sortColumns ctx (.list (chunks.map .object)) := by
  simp only [Operator.sortColumns, List.isEmpty_map, List.isEmpty_iff, hne, if_false,
    Rendering.each_map, Operator.sortItem, Rendering.each_flatten, bind_assoc, pure_bind]

theorem columnEntries_append (fields others : Fields) :
    columnEntries ctx (fields ++ others) = do
      let columns ← columnEntries ctx fields
      let more ← columnEntries ctx others
      return columns ++ more := by
  induction fields with
  | nil => simp [columnEntries]
  | cons entry rest ih =>
    obtain ⟨name, spec⟩ := entry
    rw [List.cons_append, columnEntries, columnEntries]
    split
    · rfl
    · simp only [ih, bind_assoc, pure_bind, List.append_assoc]

/-- Columns of a result, given in several objects. -/
theorem projection_regroup (chunks : List Fields) :
    projection ctx (.object chunks.flatten) =
      projection ctx (.list (chunks.map .object)) := by
  have hentries : columnEntries ctx chunks.flatten = do
      let columns ← each (columnEntries ctx) chunks
      return columns.flatten := by
    induction chunks with
    | nil => rfl
    | cons chunk rest ih => simp [columnEntries_append, each, ih]
  simp only [projection, Rendering.each_map, columnItem, hentries, bind_assoc, pure_bind]

end

/-! ## Nested lists of names -/

namespace Value

mutual

/-- The items of nested lists, in order. -/
def flat : Value → List Value
  | .list items => flatItems items
  | v => [v]
termination_by structural v => v

def flatItems : List Value → List Value
  | [] => []
  | v :: rest => v.flat ++ flatItems rest
termination_by structural vs => vs

end

theorem flat_list (items : List Value) : (Value.list items).flat = (items.map flat).flatten := by
  rw [flat]
  induction items with
  | nil => rfl
  | cons v rest ih => rw [flatItems, ih, List.map_cons, List.flatten_cons]

theorem flat_object (fields : Fields) : (Value.object fields).flat = [.object fields] := rfl

theorem flat_of_isScalar {v : Value} (h : v.isScalar = true) : v.flat = [v] := by
  cases v with
  | list items => simp [isScalar] at h
  | object fields => rfl
  | null | bool _ | int _ | float _ | str _ => rfl

end Value

/-- A value that is an empty list, or a list with an empty one somewhere in it. -/
inductive HasEmptyList : Value → Prop where
  | empty : HasEmptyList (.list [])
  | item {items : List Value} {v : Value} (mem : v ∈ items) (inside : HasEmptyList v) :
      HasEmptyList (.list items)

theorem flat_ne_nil {v : Value} (hv : ¬ HasEmptyList v) : v.flat ≠ [] := by
  induction v using Value.induct with
  | scalar v hscalar => simp [Value.flat_of_isScalar hscalar]
  | object fields _ => simp [Value.flat_object]
  | list items ih =>
    cases items with
    | nil => exact absurd .empty hv
    | cons v rest =>
      have hflat := ih v List.mem_cons_self fun h => hv (.item List.mem_cons_self h)
      simp [Value.flat_list, hflat]

section

variable (ctx : Context) (operator : Option String)

/-- A list of one name is the name. -/
theorem nameList_singleton (v : Value) :
    nameList ctx operator (.list [v]) = nameList ctx operator v := by
  simp [nameList, nameItems, commaList]

/-- Nested lists of names are rendered name by name. -/
theorem nameList_flat {v : Value} (hv : ¬ HasEmptyList v) :
    nameList ctx operator v = nameList ctx operator (.list v.flat) := by
  induction v using Value.induct with
  | scalar v hscalar => rw [Value.flat_of_isScalar hscalar, nameList_singleton]
  | object fields _ => rw [Value.flat_object, nameList_singleton]
  | list items ih =>
    have hitems : ∀ v ∈ items, ¬ HasEmptyList v := fun v hv' h => hv (.item hv' h)
    have hne : items ≠ [] := by
      rintro rfl
      exact hv .empty
    have hflat := flat_ne_nil hv
    rw [Value.flat_list] at hflat ⊢
    have hchunks : ∀ chunk ∈ items.map Value.flat, chunk ≠ [] :=
      List.forall_mem_map.2 fun v hv' => flat_ne_nil (hitems v hv')
    rw [nameList_list ctx operator hne, nameList_list ctx operator hflat,
      ← each_commaList _ hchunks, Rendering.each_map]
    congr 1
    refine Rendering.each_congr fun v hv' => ?_
    rw [ih v hv' (hitems v hv'), nameList_list ctx operator (flat_ne_nil (hitems v hv'))]

theorem aliasedName_settled (name : String) (spec : Value) :
    (aliasedName ctx operator name spec).Settled := by
  unfold aliasedName
  split
  · exact .ofExcept _
  · split
    · exact (Rendering.Settled.ofExcept _).bind fun source =>
        (Rendering.Settled.ofExcept _).bind fun target => .inl ⟨_, rfl⟩
    · exact .inr ⟨_, rfl⟩

/-- Names have no effect. -/
theorem nameList_settled (v : Value) : (nameList ctx operator v).Settled := by
  induction v using Value.induct with
  | scalar v hscalar =>
    cases v with
    | str text => exact .ofExcept _
    | list items => simp [Value.isScalar] at hscalar
    | object fields => simp [Value.isScalar] at hscalar
    | null | bool _ | int _ | float _ => exact .inr ⟨_, rfl⟩
  | object fields _ =>
    rw [nameList]
    exact (Rendering.Settled.each fun entry _ => aliasedName_settled ctx operator _ _).bind
      fun parts => .inl ⟨_, rfl⟩
  | list items ih =>
    rw [nameList, nameItems_eq_each]
    split
    · exact .inr ⟨_, rfl⟩
    · exact (Rendering.Settled.each ih).bind fun parts => .inl ⟨_, rfl⟩

/-- A list with an empty list somewhere in it is refused. -/
theorem nameList_of_hasEmptyList {v : Value} (hv : HasEmptyList v) :
    ∃ fault, nameList ctx operator v = .refuse fault := by
  induction hv with
  | empty => exact ⟨_, rfl⟩
  | item mem _ ih =>
    obtain ⟨fault, hfault⟩ :=
      Rendering.each_refused (fun v => nameList_settled ctx operator v) mem ih
    exact ⟨fault, by rw [nameList_list ctx operator (List.ne_nil_of_mem mem), hfault]; rfl⟩

end

/-! ## Programs with a property -/

namespace Dialect

variable {d : Dialect} {α β : Type}

/-- Whatever the program gives has the property, after whichever values. -/
def Assures (d : Dialect) (P : α → Prop) (x : Rendering α) : Prop :=
  ∀ a s s', (x.run d.placeholder d.respond).run.run s = (.ok a, s') → P a

namespace Assures

variable {P : α → Prop} {Q : β → Prop}

theorem pure {a : α} (ha : P a) : d.Assures P (pure a) := by
  intro b s s' h
  cases h
  exact ha

theorem refuse (fault : Fault) : d.Assures P (.refuse fault) := by
  intro b s s' h
  cases h

theorem bind {x : Rendering α} {f : α → Rendering β} (hx : d.Assures P x)
    (hf : ∀ a, P a → d.Assures Q (f a)) : d.Assures Q (x >>= f) := by
  intro b s s' h
  rw [Rendering.run_andThen] at h
  obtain ⟨a, s₁, ha, hb⟩ := Rendering.bind_eq_ok_iff.1 h
  exact hf a (hx a s s₁ ha) b s₁ s' hb

/-- What comes before does not matter. -/
theorem andThen (x : Rendering α) {f : α → Rendering β} (hf : ∀ a, d.Assures Q (f a)) :
    d.Assures Q (x >>= f) :=
  bind (P := fun _ => True) (fun _ _ _ _ => trivial) fun a _ => hf a

theorem mono {P' : α → Prop} {x : Rendering α} (hx : d.Assures P x) (h : ∀ a, P a → P' a) :
    d.Assures P' x :=
  fun a s s' hrun => h a (hx a s s' hrun)

theorem each {f : α → Rendering β} {items : List α} (hf : ∀ a ∈ items, d.Assures Q (f a)) :
    d.Assures (fun bs => (items ≠ [] → bs ≠ []) ∧ ∀ b ∈ bs, Q b) (each f items) := by
  induction items with
  | nil => exact pure ⟨fun h => absurd rfl h, by simp⟩
  | cons a rest ih =>
    obtain ⟨ha, hrest⟩ := List.forall_mem_cons.1 hf
    refine ha.bind fun b hb => (ih hrest).bind fun bs hbs => pure ⟨by simp, ?_⟩
    exact List.forall_mem_cons.2 ⟨hb, hbs.2⟩

end Assures

theorem Same.symm {x y : Rendering α} (h : d.Same x y) : d.Same y x := Eq.symm h

theorem Same.trans {x y z : Rendering α} (h : d.Same x y) (h' : d.Same y z) : d.Same x z :=
  Eq.trans h h'

/-- What follows a program sees only results with the property. -/
theorem Same.bind_of_assures {P : α → Prop} {x : Rendering α} {f g : α → Rendering β}
    (hx : d.Assures P x) (h : ∀ a, P a → f a = g a) : d.Same (x >>= f) (x >>= g) := by
  rw [Same, Rendering.run_andThen, Rendering.run_andThen]
  refine ExceptT.ext (StateT.ext fun s => ?_)
  rw [ExceptT.run_bind, ExceptT.run_bind, StateT.run_bind, StateT.run_bind]
  rcases hrun : (x.run d.placeholder d.respond).run.run s with ⟨fault | a, s'⟩
  · rfl
  · exact congrArg (fun m => (m.run d.placeholder d.respond).run.run s') (h a (hx a s s' hrun))

/-! ## Tables -/

open Operator

theorem commaList_ne_empty {parts : List String} (hparts : parts ≠ [])
    (h : ∀ part ∈ parts, part ≠ "") : commaList parts ≠ "" := by
  match parts with
  | [] => exact absurd rfl hparts
  | [part] =>
    have hpart := h part List.mem_cons_self
    simpa [commaList] using hpart
  | part :: other :: rest =>
    rw [commaList, String.intercalate_cons_cons]
    simp

theorem columnDefinition_assures (ctx : Context) (name : String) (spec : Value) :
    d.Assures (· ≠ "") (columnDefinition ctx name spec) := by
  unfold columnDefinition
  split
  · exact .andThen _ fun column => .andThen _ fun text => .pure (by simp)
  · exact .refuse _

theorem constraint_assures (ctx : Context) (entry : String × Value) :
    d.Assures (· ≠ "") (constraint ctx entry) := by
  unfold constraint
  split
  · exact .andThen _ fun body => .andThen _ fun name => .pure (by simp)
  · exact .refuse _

theorem constraints_assures (ctx : Context) (call : Call) :
    d.Assures (· ≠ "") (constraints.render ctx call) := by
  unfold constraints
  dsimp only
  split
  · rename_i fields _
    split
    · exact .refuse _
    · rename_i hne
      refine (Assures.each fun entry _ => constraint_assures ctx entry).bind fun parts hparts => ?_
      exact .pure (commaList_ne_empty (hparts.1 (by simpa using hne)) hparts.2)
  · exact .refuse _

/-- No part of a definition is empty. -/
theorem definition_assures (hd : d ∈ library) (ctx : Context) (node : Fields)
    (entry : String × Value) : d.Assures (· ≠ "") (definition ctx node entry) := by
  unfold definition
  split
  · have hfind : d.registry.find? "$constraint" = some constraints := find?_of_ansi hd rfl rfl rfl
    intro text s s' hrun
    rw [Context.invoke, Rendering.run_invoke, respond_eq hd, hfind] at hrun
    exact constraints_assures _ _ text s s' hrun
  · split
    · exact .refuse _
    · exact columnDefinition_assures ctx _ _

/-- The entries of a definition, rendered in any object. -/
theorem same_define (hd : d ∈ library) {fields : Fields} (hfields : fields ≠ [])
    (combinator : Option Combinator) (body : Fields) (column : Option String) :
    d.Same ((d.context combinator).invoke "$define" (.object fields) body column) (do
      let parts ← each (definition (d.context combinator) []) fields
      return commaList parts) := by
  have hfind : d.registry.find? "$define" = some definitions := find?_of_ansi hd rfl rfl rfl
  rw [Same, Context.invoke, Rendering.run_invoke, respond_eq hd, hfind]
  simp only [definitions, if_neg (show ¬ fields.isEmpty = true by simpa using hfields)]
  refine Same.bind (Same.each fun entry _ => ?_) fun parts => Same.refl _
  unfold definition
  split
  · exact same_invoke_node hd (by decide) _ _ _ _ _
  · exact Same.refl _

section

variable {chunks : List Fields} {combinator : Option Combinator} {column : Option String}

/-- Texts that are not empty are joined, whichever of them are joined first. -/
theorem join_flatten {parts : List (List String)}
    (hparts : ∀ part ∈ parts, part ≠ [] ∧ ∀ text ∈ part, text ≠ "") :
    commaList (parts.flatten.filter fun text => !text.isEmpty) =
      commaList ((parts.map commaList).filter fun text => !text.isEmpty) := by
  have hall : ∀ {texts : List String}, (∀ text ∈ texts, text ≠ "") →
      texts.filter (fun text => !text.isEmpty) = texts := by
    intro texts htexts
    exact List.filter_eq_self.2 fun text htext => by simpa using htexts text htext
  rw [hall, hall, commaList_flatten fun part hpart => (hparts part hpart).1]
  · exact List.forall_mem_map.2 fun part hpart =>
      commaList_ne_empty (hparts part hpart).1 (hparts part hpart).2
  · intro text htext
    obtain ⟨part, hpart, htext⟩ := List.mem_flatten.1 htext
    exact (hparts part hpart).2 text htext

/-- Going through the entries of a table one by one and going through objects of them. -/
theorem same_define_regroup (hd : d ∈ library) (hchunks : ∀ chunk ∈ chunks, chunk ≠ [])
    (body body' : Fields) (spaced : Bool) :
    let joined : List String → List Fragment := fun parts =>
      Fragment.ofText (", ".intercalate (parts.filter fun part => !part.isEmpty)) spaced
    d.Same
      (do
        let parts ← each (fun item => (d.context combinator).invoke "$define" item body column)
          (seriesItems (.object chunks.flatten))
        return joined parts)
      (do
        let parts ← each (fun item => (d.context combinator).invoke "$define" item body' column)
          (seriesItems (.list (chunks.map .object)))
        return joined parts) := by
  intro joined
  set entryText := definition (d.context combinator) [] with hentryText
  -- Both sides render the entries in order; they differ in what is joined first.
  have hsingle : d.Same
      (each (fun item => (d.context combinator).invoke "$define" item body column)
        (seriesItems (.object chunks.flatten))) (each entryText chunks.flatten) := by
    rw [seriesItems, Rendering.each_map]
    refine Same.each fun entry _ => ?_
    have hone := same_define hd (List.cons_ne_nil entry []) combinator body column
    simpa [each, commaList] using hone
  have hseveral : d.Same
      (each (fun item => (d.context combinator).invoke "$define" item body' column)
        (seriesItems (.list (chunks.map .object))))
      (each (fun chunk => do let parts ← each entryText chunk; return commaList parts) chunks) := by
    rw [seriesItems, Rendering.each_map]
    exact Same.each fun chunk hchunk =>
      same_define hd (hchunks chunk hchunk) combinator body' column
  refine Same.trans (hsingle.bind fun _ => Same.refl _) (Same.trans ?_
    (hseveral.bind fun _ => Same.refl _).symm)
  rw [Rendering.each_flatten, Rendering.each_pure]
  simp only [bind_assoc, pure_bind]
  have hparts : ∀ chunk ∈ chunks, d.Assures
      (fun part => part ≠ [] ∧ ∀ text ∈ part, text ≠ "") (each entryText chunk) :=
    fun chunk hchunk => (Assures.each fun entry _ => definition_assures hd _ _ entry).mono
      fun part hpart => ⟨hpart.1 (hchunks chunk hchunk), hpart.2⟩
  refine Same.bind_of_assures (Assures.each hparts) fun parts hparts => ?_
  exact congrArg (fun text => pure (Fragment.ofText text spaced)) (join_flatten hparts.2)

/-- The columns of a table, given in several objects. -/
theorem same_series_regroup (hd : d ∈ library) (hchunks : ∀ chunk ∈ chunks, chunk ≠ [])
    (hne : chunks ≠ []) {body body' : Fields}
    (hbody : body.valueOf "$define" = .object chunks.flatten)
    (hbody' : body'.valueOf "$define" = .list (chunks.map .object)) (name : String)
    (required spaced : Bool) :
    d.Same
      (Template.renderNode (d.context combinator) name body column
        (.series "$define" ", " required spaced))
      (Template.renderNode (d.context combinator) name body' column
        (.series "$define" ", " required spaced)) := by
  have hflatten : chunks.flatten ≠ [] := by
    obtain ⟨chunk, rest, rfl⟩ := List.exists_cons_of_ne_nil hne
    simp [hchunks chunk List.mem_cons_self]
  have hpresent : (Value.object chunks.flatten).isPresent = true := by
    simpa [Value.isPresent] using hflatten
  have hpresent' : (Value.list (chunks.map .object)).isPresent = true := by
    simpa [Value.isPresent] using hne
  simp only [Template.renderNode, hbody, hbody', hpresent, hpresent', if_true]
  exact same_define_regroup hd hchunks body body' spaced

/-- The keys on which some parts of a template depend. -/
def readKeys (nodes : List Template.Node) : List String :=
  Template.lookupsOf nodes ++
    (Template.referencesOf [] nodes).flatMap fun r => r.key :: watchedKeys r.key

/-- Parts of a template are rendered alike where the keys on which they depend are. -/
theorem same_renderNodes_of_readKeys (hd : d ∈ library) {nodes : List Template.Node}
    {body body' : Fields} (h : ∀ key ∈ readKeys nodes, body.valueOf key = body'.valueOf key)
    (ctx : Context) (name : String) (column : Option String) :
    d.Same (Template.renderNodes ctx name body column nodes)
      (Template.renderNodes ctx name body' column nodes) := by
  have hon : List.all [] (fun guard => (body.valueOf guard).isPresent) = true := rfl
  refine Template.same_renderNodes hon nodes (agree_of_valueOf_eq hd ?_ ?_ ctx column)
  · exact fun key hkey => h key (List.mem_append_left _ hkey)
  · exact fun r hr key hkey => h key (List.mem_append_right _ (List.mem_flatMap.2 ⟨r, hr, hkey⟩))

/-- The statement that makes a table lists the columns in one place, and nothing else depends on
them. -/
theorem find?_createTable (hd : d ∈ library) :
    ∃ t : Template, d.registry.find? "$createTable" = some (t.handler []) ∧
      ∃ before after required spaced,
        t.nodes = before ++ .series "$define" ", " required spaced :: after ∧
          "$define" ∉ readKeys before ∧ "$define" ∉ readKeys after := by
  simp only [library, List.mem_cons, List.not_mem_nil, or_false] at hd
  rcases hd with rfl | rfl | rfl
  · refine ⟨Ansi.createTableTemplate, by rw [ansi_eq]; rfl, ?_⟩
    exact ⟨Ansi.createTableTemplate.nodes.take 6, Ansi.createTableTemplate.nodes.drop 7, true,
      false, rfl, by decide, by decide⟩
  · refine ⟨Ansi.createTableTemplate, by rw [mysql_eq]; rfl, ?_⟩
    exact ⟨Ansi.createTableTemplate.nodes.take 6, Ansi.createTableTemplate.nodes.drop 7, true,
      false, rfl, by decide, by decide⟩
  · refine ⟨Postgres.createTableTemplate, by rw [postgres_eq]; rfl, ?_⟩
    exact ⟨Postgres.createTableTemplate.nodes.take 7, Postgres.createTableTemplate.nodes.drop 8,
      true, false, rfl, by decide, by decide⟩

/-- A template that lists the columns of a table in one place is rendered alike, whether they come
in one object or in several. -/
theorem same_render_regroup (hd : d ∈ library) (hchunks : ∀ chunk ∈ chunks, chunk ≠ [])
    (hne : chunks ≠ []) {t : Template} {first last : List Template.Node} {required spaced : Bool}
    (hnodes : t.nodes = first ++ .series "$define" ", " required spaced :: last)
    (hfirst : "$define" ∉ readKeys first) (hlast : "$define" ∉ readKeys last)
    (before after : Fields) :
    d.Same
      (t.render (d.context combinator)
        (before ++ ("$define", .object chunks.flatten) :: after) column)
      (t.render (d.context combinator)
        (before ++ ("$define", .list (chunks.map .object)) :: after) column) := by
  have hother : ∀ v v' : Value, ∀ key ≠ "$define",
      Fields.valueOf (before ++ ("$define", v) :: after) key =
        Fields.valueOf (before ++ ("$define", v') :: after) key := by
    intro v v' key hkey
    rw [Fields.valueOf_append_cons, Fields.valueOf_append_cons, if_neg hkey, if_neg hkey]
  refine Same.bind ?_ fun fragments => Same.refl _
  cases hdefine : before.get? "$define" with
  | some v =>
    -- A key that is repeated counts where it stands first.
    refine same_renderNodes_of_readKeys hd (fun key _ => ?_) _ _ _
    by_cases hkey : key = "$define"
    · rw [hkey, Fields.valueOf_append_cons, Fields.valueOf_append_cons, hdefine]
      rfl
    · exact hother _ _ key hkey
  | none =>
    have hself : ∀ v, Fields.valueOf (before ++ ("$define", v) :: after) "$define" = v := by
      intro v
      rw [Fields.valueOf_append_cons, hdefine, Option.getD_none, if_pos rfl]
    rw [hnodes, Template.renderNodes_append, Template.renderNodes_append, Template.renderNodes,
      Template.renderNodes]
    refine (same_renderNodes_of_readKeys hd (fun key hkey => ?_) _ _ _).bind fun before =>
      Same.bind ?_ fun others => Same.refl _
    · exact hother _ _ key fun h => hfirst (h ▸ hkey)
    · refine (same_series_regroup hd hchunks hne (hself _) (hself _) _ _ _).bind fun columns =>
        (same_renderNodes_of_readKeys hd (fun key hkey => ?_) _ _ _).bind fun after => Same.refl _
      exact hother _ _ key fun h => hlast (h ▸ hkey)

/-- A table is made alike, whether its columns come in one object or in several. -/
theorem respond_createTable_regroup (hd : d ∈ library) (hchunks : ∀ chunk ∈ chunks, chunk ≠ [])
    (hne : chunks ≠ []) (before after node : Fields) :
    d.respond ⟨"$createTable",
        .object (before ++ ("$define", .object chunks.flatten) :: after), node, column,
        combinator⟩ =
      d.respond ⟨"$createTable",
        .object (before ++ ("$define", .list (chunks.map .object)) :: after), node, column,
        combinator⟩ := by
  obtain ⟨t, hfind, first, last, required, spaced, hnodes, hfirst, hlast⟩ := find?_createTable hd
  have hkeys : ∀ v : Value, Fields.keys (before ++ ("$define", v) :: after) =
      before.keys ++ "$define" :: after.keys := by
    intro v
    simp [Fields.keys]
  rw [respond_eq hd, respond_eq hd, hfind]
  simp only [Template.handler, hkeys]
  exact Same.bind (Same.refl _) fun _ =>
    same_render_regroup hd hchunks hne hnodes hfirst hlast before after

/-- The operators that take a list of names render it as such, or refuse whatever they are given
because of the entries next to them. -/
theorem respond_names (hd : d ∈ library) {operator : String}
    (hoperator : operator ∈ ["$groupBy", "$from", "$table"]) (node : Fields)
    (column : Option String) (combinator : Option Combinator) :
    (∃ label, ∀ v, d.respond ⟨operator, v, node, column, combinator⟩ =
      (nameList (d.context combinator) (some label) v).run d.placeholder d.respond) ∨
    ∃ fault, ∀ v, d.respond ⟨operator, v, node, column, combinator⟩ = throw fault := by
  simp only [List.mem_cons, List.not_mem_nil, or_false] at hoperator
  rcases hoperator with rfl | htable
  · have hfind : d.registry.find? "$groupBy" = some grouping := find?_of_ansi hd rfl rfl rfl
    exact .inl ⟨"$groupBy", fun v => by simp only [respond_eq hd, hfind, grouping]⟩
  · have hfind : d.registry.find? operator = some tables := by
      rcases htable with rfl | rfl <;> exact find?_of_ansi hd rfl rfl rfl
    simp only [respond_eq hd, hfind, tables]
    split
    · exact .inr ⟨.twoTables, fun v => rfl⟩
    · exact .inl ⟨"$from", fun v => rfl⟩

/-- A clause is rendered alike, whether its entries come in one object or in several. -/
theorem respond_regroup (hd : d ∈ library) (hchunks : ∀ chunk ∈ chunks, chunk ≠ [])
    (hne : chunks ≠ []) {operator : String}
    (hoperator : operator ∈ ["$sort", "$columns", "$groupBy", "$from", "$table"]) (node : Fields) :
    d.respond ⟨operator, .object chunks.flatten, node, column, combinator⟩ =
      d.respond ⟨operator, .list (chunks.map .object), node, column, combinator⟩ := by
  rcases List.mem_cons.1 hoperator with rfl | hoperator
  · have hfind : d.registry.find? "$sort" = some sorting := find?_of_ansi hd rfl rfl rfl
    simp only [respond_eq hd, hfind, sorting, sortColumns_regroup _ hne]
  rcases List.mem_cons.1 hoperator with rfl | hoperator
  · have hfind : d.registry.find? "$columns" = some resultColumns := find?_of_ansi hd rfl rfl rfl
    simp only [respond_eq hd, hfind, resultColumns, projection_regroup]
  · obtain ⟨label, hnames⟩ | ⟨fault, hfault⟩ := respond_names hd hoperator node column combinator
    · rw [hnames, hnames, nameList_regroup _ hchunks hne]
    · rw [hfault, hfault]

/-- An operator is answered alike at an object with another value for it, if neither is `null`. -/
theorem respond_entry_congr (hd : d ∈ library) (v v' : Value) (hv : v.isNull = false)
    (hv' : v'.isNull = false) (operator : String) (operand : Value) (before after : Fields) :
    d.respond ⟨operator, operand, before ++ (operator, v) :: after, column, combinator⟩ =
      d.respond ⟨operator, operand, before ++ (operator, v') :: after, column, combinator⟩ := by
  refine respond_node_congr hd (fun key _ => ?_) _ _ _
  rw [Fields.valueOf_append_cons, Fields.valueOf_append_cons]
  cases before.get? key with
  | some w => rfl
  | none => by_cases hkey : key = operator <;> simp [hkey, hv, hv']

/-- Nested lists of names are rendered as if they were one list. -/
theorem respond_flat (hd : d ∈ library) {operator : String}
    (hoperator : operator ∈ ["$groupBy", "$from", "$table"]) {v : Value} (hv : ¬ HasEmptyList v)
    (node : Fields) :
    d.respond ⟨operator, v, node, column, combinator⟩ =
      d.respond ⟨operator, .list v.flat, node, column, combinator⟩ := by
  obtain ⟨label, hnames⟩ | ⟨fault, hfault⟩ := respond_names hd hoperator node column combinator
  · rw [hnames, hnames, nameList_flat _ _ hv]
  · rw [hfault, hfault]

/-- An empty list among names is refused. -/
theorem respond_of_hasEmptyList (hd : d ∈ library) {operator : String}
    (hoperator : operator ∈ ["$groupBy", "$from", "$table"]) {v : Value} (hv : HasEmptyList v)
    (node : Fields) :
    ∃ fault, d.respond ⟨operator, v, node, column, combinator⟩ = throw fault := by
  obtain ⟨label, hnames⟩ | ⟨fault, hfault⟩ := respond_names hd hoperator node column combinator
  · obtain ⟨fault, hfault⟩ := nameList_of_hasEmptyList (d.context combinator) (some label) hv
    exact ⟨fault, by rw [hnames, hfault]; rfl⟩
  · exact ⟨fault, hfault v⟩

end

/-! ## Grouping does not matter -/

/-- **Entries count in their order, however they are grouped.**  Take the entries of an object in a
list of objects that are not empty.  The columns, the tables, the grouping and the order of a
statement have the same outcome as with the one object, whatever stands next to them, and so has a
statement that makes a table with these columns: the same text and the same values, or the same
refusal.  Names in nested lists are rendered as if they were in one list, and an empty list among
them is refused before anything is bound. -/
theorem regrouped_outcome (hd : d ∈ library) {chunks : List Fields}
    (hchunks : ∀ chunk ∈ chunks, chunk ≠ []) (hne : chunks ≠ []) (before after : Fields)
    (combinator : Option Combinator) (column : Option String) (binder : Array Value) :
    (∀ operator ∈ ["$sort", "$columns", "$groupBy", "$from", "$table"],
      d.invocation combinator operator (.object chunks.flatten)
          (before ++ (operator, .object chunks.flatten) :: after) column binder =
        d.invocation combinator operator (.list (chunks.map .object))
          (before ++ (operator, .list (chunks.map .object)) :: after) column binder) ∧
    (∀ node,
      d.invocation combinator "$createTable"
          (.object (before ++ ("$define", .object chunks.flatten) :: after)) node column binder =
        d.invocation combinator "$createTable"
          (.object (before ++ ("$define", .list (chunks.map .object)) :: after)) node column
          binder) ∧
    ∀ operator ∈ ["$groupBy", "$from", "$table"], ∀ items : List Value,
      (¬ HasEmptyList (.list items) →
        d.invocation combinator operator (.list items)
            (before ++ (operator, .list items) :: after) column binder =
          d.invocation combinator operator (.list (Value.list items).flat)
            (before ++ (operator, .list (Value.list items).flat) :: after) column binder) ∧
      (HasEmptyList (.list items) →
        ∃ fault, d.invocation combinator operator (.list items)
          (before ++ (operator, .list items) :: after) column binder = (.error fault, binder)) := by
  simp only [invocation_eq hd]
  refine ⟨fun operator hoperator => ?_, fun node => ?_, fun operator hoperator items => ⟨?_, ?_⟩⟩
  · rw [respond_regroup hd hchunks hne hoperator,
      respond_entry_congr hd (.object _) (.list (chunks.map .object)) rfl rfl]
  · rw [respond_createTable_regroup hd hchunks hne]
  · intro hfull
    rw [respond_flat hd hoperator hfull,
      respond_entry_congr hd (.list items) (.list (Value.list items).flat) rfl rfl]
  · intro hempty
    obtain ⟨fault, hfault⟩ := respond_of_hasEmptyList hd hoperator hempty
      (before ++ (operator, .list items) :: after)
    exact ⟨fault, by rw [hfault]; rfl⟩

/-- Two columns and a constraint. -/
def groupedColumns : List Fields :=
  [[("id", .object [("$type", .str "int"), ("$default", .int 7)]),
      ("$constraint", .object [("pk", .object [("$primary", .list [.str "id"])])])],
    [("n", .object [("$column", .object [("$type", .str "text")])])]]

set_option maxRecDepth 4000 in
theorem invocation_groupedColumns :
    mysql.invocation none "$createTable"
        (.object [("$table", .str "t"), ("$define", .object groupedColumns.flatten)]) [] none
        #[.null] =
      (.ok "CREATE TABLE `t` (`id` INT DEFAULT ?, CONSTRAINT `pk` PRIMARY KEY (`id`), `n` TEXT)",
        #[.null, .int 7]) := by
  rw [mysql_eq]
  rfl

/-- The entries in two objects. -/
theorem regrouped_outcome_groupedColumns :
    mysql ∈ library ∧ (∀ chunk ∈ groupedColumns, chunk ≠ []) ∧ groupedColumns ≠ [] ∧
      mysql.invocation none "$createTable"
          (.object [("$table", .str "t"), ("$define", .list (groupedColumns.map .object))]) [] none
          #[.null] =
        (.ok "CREATE TABLE `t` (`id` INT DEFAULT ?, CONSTRAINT `pk` PRIMARY KEY (`id`), `n` TEXT)",
          #[.null, .int 7]) := by
  have hd : mysql ∈ library := by simp [library]
  have hchunks : ∀ chunk ∈ groupedColumns, chunk ≠ [] := by simp [groupedColumns]
  have hne : groupedColumns ≠ [] := by simp [groupedColumns]
  have hsame := regrouped_outcome hd hchunks hne [("$table", .str "t")] [] none none #[.null]
  exact ⟨hd, hchunks, hne, (hsame.2.1 []).symm.trans invocation_groupedColumns⟩

end Dialect

end QueryTree
