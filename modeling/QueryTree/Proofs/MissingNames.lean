import QueryTree.Proofs.FilledOperators

/-!
# Lists of names with a gap

An empty object in a list of names leaves an empty item between two commas.  That the item is empty
in the text, and that no other one is, follows from where the names of a list end: a quoted name
holds its commas and parentheses between its marks.

* `Sql.Whole` : a text within one item.
* `Sql.Separable` : a text after which a comma ends an item.
* **`Sql.nameList_gapless_iff`** : a list of names has no gap exactly if no empty object is in it.
* **`Sql.sortColumns_gapless_iff`** : the same for what rows are sorted by.
-/

namespace QueryTree

namespace Sql

variable {mark : Char} {cs ds : List Char}

/-! ## Items of a text -/

/-- The text is part of one item. -/
def Whole (mark : Char) (cs : List Char) : Prop :=
  ∀ item rest, itemsFrom mark false 0 item (cs ++ rest) = itemsFrom mark false 0 (item ++ cs) rest

/-- A comma after the text ends its last item. -/
def Separable (mark : Char) (cs : List Char) : Prop :=
  ∀ item rest, itemsFrom mark false 0 item (cs ++ ',' :: rest) =
    itemsFrom mark false 0 item cs ++ itemsFrom mark false 0 [] rest

/-- Two texts within one item are so together. -/
theorem Whole.append (hcs : Whole mark cs) (hds : Whole mark ds) : Whole mark (cs ++ ds) := by
  intro item rest
  rw [List.append_assoc, hcs, hds, List.append_assoc]

/-- A comma after a text within one item ends the item. -/
theorem Whole.separable (hmark : IsMark mark) (h : Whole mark cs) : Separable mark cs := by
  intro item rest
  have hcomma : ',' ≠ mark := hmark.plain rfl
  have hwhole := h item []
  rw [List.append_nil] at hwhole
  rw [h, hwhole]
  simp [itemsFrom, hcomma]

/-- Characters that are neither marks nor commas nor parentheses. -/
theorem whole_of_all (h : ∀ c ∈ cs, c ≠ mark ∧ c ∉ [',', '(', ')']) : Whole mark cs := by
  induction cs with
  | nil => simp [Whole]
  | cons c cs ih =>
    obtain ⟨⟨hmark, hother⟩, hcs⟩ := List.forall_mem_cons.1 h
    intro item rest
    simp only [List.mem_cons, List.not_mem_nil, or_false, not_or] at hother
    simp only [List.cons_append, itemsFrom, hmark, hother, if_false, false_and, Bool.false_eq_true]
    rw [ih hcs]
    simp

/-- Inside quotes no comma counts. -/
theorem itemsFrom_double (mark : Char) (cs item rest : List Char) :
    itemsFrom mark true 0 item (QuoteStyle.double mark cs ++ mark :: rest) =
      itemsFrom mark false 0 (item ++ QuoteStyle.double mark cs ++ [mark]) rest := by
  induction cs generalizing item with
  | nil => simp [QuoteStyle.double, itemsFrom]
  | cons c cs ih =>
    unfold QuoteStyle.double
    split
    · rename_i hc
      subst hc
      simp [itemsFrom, ih]
    · rename_i hc
      simp [itemsFrom, hc, ih]

/-- The items before a comma and those after it and its space. -/
theorem Separable.items_sep (hmark : IsMark mark) (h : Separable mark cs) (item : List Char) :
    itemsFrom mark false 0 item (cs ++ ',' :: ' ' :: ds) =
      itemsFrom mark false 0 item cs ++ itemsFrom mark false 0 [' '] ds := by
  have hspace : ' ' ≠ mark := hmark.plain rfl
  rw [h]
  simp [itemsFrom, hspace]

/-- A comma between two texts separates their items. -/
theorem Separable.sep (hmark : IsMark mark) (hcs : Separable mark cs) (hds : Separable mark ds) :
    Separable mark (cs ++ ',' :: ' ' :: ds) := by
  intro item rest
  rw [hcs.items_sep hmark, List.append_assoc, List.cons_append, List.cons_append,
    hcs.items_sep hmark, hds, List.append_assoc]

/-- What stands before a text becomes part of its first item. -/
theorem itemsFrom_append (mark : Char) (before : List Char) (quoted : Bool) (depth : Nat)
    (item cs : List Char) :
    ∃ first others, itemsFrom mark quoted depth item cs = first :: others ∧
      itemsFrom mark quoted depth (before ++ item) cs = (before ++ first) :: others := by
  induction cs generalizing quoted depth item with
  | nil => exact ⟨item, [], rfl, rfl⟩
  | cons c rest ih =>
    have hnext := fun quoted depth => ih quoted depth (item ++ [c])
    simp only [← List.append_assoc] at hnext
    unfold itemsFrom
    split_ifs
    · exact hnext _ _
    · exact hnext _ _
    · exact ⟨item, _, rfl, rfl⟩
    · exact hnext _ _
    · exact hnext _ _
    · exact hnext _ _

/-- The text has an item without content. -/
def HasBlankItem (mark : Char) (cs : List Char) : Prop :=
  ∃ item ∈ itemsFrom mark false 0 [] cs, IsBlank item

/-- A gap stays one when further items follow. -/
theorem HasBlankItem.sep_left (hmark : IsMark mark) (hcs : Separable mark cs)
    (h : HasBlankItem mark cs) : HasBlankItem mark (cs ++ ',' :: ' ' :: ds) := by
  obtain ⟨item, hitem, hblank⟩ := h
  refine ⟨item, ?_, hblank⟩
  rw [hcs.items_sep hmark]
  exact List.mem_append_left _ hitem

/-- The space after a comma does not fill an item. -/
theorem HasBlankItem.sep_right (hmark : IsMark mark) (hcs : Separable mark cs)
    (h : HasBlankItem mark ds) : HasBlankItem mark (cs ++ ',' :: ' ' :: ds) := by
  obtain ⟨item, hitem, hblank⟩ := h
  obtain ⟨first, others, hitems, hspaced⟩ := itemsFrom_append mark [' '] false 0 [] ds
  rw [List.append_nil] at hspaced
  unfold HasBlankItem
  rw [hcs.items_sep hmark, hspaced]
  rw [hitems] at hitem
  rcases List.mem_cons.1 hitem with rfl | hothers
  · exact ⟨' ' :: item, by simp, List.forall_mem_cons.2 ⟨rfl, hblank⟩⟩
  · exact ⟨item, by simp [hothers], hblank⟩

/-! ## Lists with commas -/

theorem toList_commaList_cons (first second : String) (rest : List String) :
    (commaList (first :: second :: rest)).toList =
      first.toList ++ ',' :: ' ' :: (commaList (second :: rest)).toList := by
  simp [commaList]

/-- Texts with commas between them are separated into their items. -/
theorem separable_commaList (hmark : IsMark mark) {parts : List String}
    (h : ∀ part ∈ parts, Separable mark part.toList) : Separable mark (commaList parts).toList := by
  induction parts with
  | nil => exact Whole.separable hmark (whole_of_all (by simp [commaList]))
  | cons first rest ih =>
    obtain ⟨hfirst, hrest⟩ := List.forall_mem_cons.1 h
    cases rest with
    | nil => simpa [commaList] using hfirst
    | cons second others =>
      rw [toList_commaList_cons]
      exact hfirst.sep hmark (ih hrest)

/-- A gap in one of the texts is a gap in the list. -/
theorem hasBlankItem_commaList (hmark : IsMark mark) {parts : List String}
    (h : ∀ part ∈ parts, Separable mark part.toList) {part : String} (hpart : part ∈ parts)
    (hblank : HasBlankItem mark part.toList) : HasBlankItem mark (commaList parts).toList := by
  induction parts with
  | nil => cases hpart
  | cons first rest ih =>
    obtain ⟨hfirst, hrest⟩ := List.forall_mem_cons.1 h
    cases rest with
    | nil =>
      rw [List.mem_singleton.1 hpart] at hblank
      simpa [commaList] using hblank
    | cons second others =>
      rw [toList_commaList_cons]
      rcases List.mem_cons.1 hpart with rfl | hmem
      · exact hblank.sep_left hmark hfirst
      · exact (ih hrest hmem).sep_right hmark hfirst

/-! ## Names -/

variable {S : Scheme} {style : QuoteStyle}

/-- A segment of a name is within one item, whatever it holds. -/
theorem whole_segmentChars (hmark : style.mark = S.mark) (cs : List Char) :
    Whole S.mark (style.segmentChars cs) := by
  unfold QuoteStyle.segmentChars
  split
  · rename_i hstar
    subst hstar
    have hplain : '*' ≠ S.mark := S.isMark.plain rfl
    exact whole_of_all (by simp [hplain])
  · intro item rest
    rw [hmark]
    simpa [itemsFrom] using itemsFrom_double S.mark cs (item ++ [S.mark]) rest

theorem whole_joinSegments (hmark : style.mark = S.mark) (parts : List (List Char)) :
    Whole S.mark (style.joinSegments parts) := by
  induction parts with
  | nil => exact whole_of_all (by simp [QuoteStyle.joinSegments])
  | cons cs rest ih =>
    cases rest with
    | nil => simpa [QuoteStyle.joinSegments, List.intercalate] using whole_segmentChars hmark cs
    | cons cs' rest =>
      have hjoin : style.joinSegments (cs :: cs' :: rest) =
          style.segmentChars cs ++ (['.'] ++ style.joinSegments (cs' :: rest)) := by
        simp [QuoteStyle.joinSegments, List.intercalate]
      have hdot : Whole S.mark ['.'] := by
        have hplain : '.' ≠ S.mark := S.isMark.plain rfl
        exact whole_of_all (by simp [hplain])
      rw [hjoin]
      exact (whole_segmentChars hmark cs).append (hdot.append ih)

variable {ctx : Context} {replies : ReplyRel}

/-- A name is within one item, also if it has a comma in it. -/
theorem name_whole (hmark : ctx.quoting.mark = S.mark) (text : String) :
    Ensures S replies (fun _ t _ => Whole S.mark t.toList) (ctx.name text) := by
  intro n t vs hyields
  obtain ⟨parts, -, rfl⟩ := segments_of_name hyields
  rw [String.toList_ofList]
  exact whole_joinSegments hmark parts

theorem identifier_whole (hmark : ctx.quoting.mark = S.mark) (v : Value) :
    Ensures S replies (fun _ t _ => Whole S.mark t.toList) (ctx.identifier v) := by
  cases v with
  | str text => exact name_whole hmark text
  | null | bool flag | int number | float number | list items | object fields => exact .refuse _

theorem aliasedName_whole (hmark : ctx.quoting.mark = S.mark) (operator : Option String)
    (name : String) (spec : Value) :
    Ensures S replies (fun _ t _ => Whole S.mark t.toList)
      (aliasedName ctx operator name spec) := by
  have has : Whole S.mark " AS ".toList := by
    have hspace : ' ' ≠ S.mark := S.isMark.plain rfl
    have hletters : 'A' ≠ S.mark ∧ 'S' ≠ S.mark := ⟨S.isMark.wordStart rfl, S.isMark.wordStart rfl⟩
    exact whole_of_all (by simp [hspace, hletters])
  unfold aliasedName
  split
  · exact name_whole hmark name
  · split
    · refine (name_whole hmark name).map₂ (identifier_whole hmark _) fun ha hb => ?_
      rw [String.toList_append, String.toList_append]
      exact (ha.append has).append hb
    · exact .refuse _

/-- A program for every item, whose result fits the item. -/
theorem Ensures.forall₂_each {α β : Type} {R : α → β → Prop} {f : α → Rendering β}
    {items : List α} (hf : ∀ a ∈ items, Ensures S replies (fun _ b _ => R a b) (f a)) :
    Ensures S replies (fun _ bs _ => List.Forall₂ R items bs) (Rendering.each f items) := by
  induction items with
  | nil => exact .pure fun _ => .nil
  | cons a rest ih =>
    exact (hf a List.mem_cons_self).map₂ (ih fun b hb => hf b (List.mem_cons_of_mem _ hb))
      fun hfirst hothers => .cons hfirst hothers

/-! ## Lists of names -/

/-- What is known of the text of a list of names. -/
structure NamesText (mark : Char) (v : Value) (text : String) : Prop where
  separable : Separable mark text.toList
  blank : LacksNames v → HasBlankItem mark text.toList

/-- A list of names has a gap if one of its members has one, or if it has no members. -/
theorem NamesText.list (hmark : IsMark mark) {items : List Value} {parts : List String}
    (h : List.Forall₂ (NamesText mark) items parts) :
    NamesText mark (.list items) (commaList parts) := by
  obtain ⟨hlength, hget⟩ := List.forall₂_iff_get.1 h
  have hseparable : ∀ part ∈ parts, Separable mark part.toList := by
    intro part hpart
    obtain ⟨i, rfl⟩ := List.mem_iff_get.1 hpart
    exact (hget i (Nat.lt_of_lt_of_eq i.isLt hlength.symm) i.isLt).separable
  refine ⟨separable_commaList hmark hseparable, ?_⟩
  rintro (_ | ⟨hv, hlacks⟩)
  obtain ⟨i, rfl⟩ := List.mem_iff_get.1 hv
  have hi : i < parts.length := Nat.lt_of_lt_of_eq i.isLt hlength
  exact hasBlankItem_commaList hmark hseparable (List.get_mem parts ⟨i, hi⟩)
    ((hget i i.isLt hi).blank hlacks)

/-- **Lists of names have a gap exactly where they lack names**, at any depth. -/
theorem nameList_namesText (hmark : ctx.quoting.mark = S.mark) (operator : Option String)
    (v : Value) :
    Ensures S replies (fun _ t _ => NamesText S.mark v t) (nameList ctx operator v) := by
  induction v using Value.induct with
  | scalar v hscalar =>
    cases v with
    | str text =>
      rw [nameList]
      intro n t vs hyields
      refine ⟨(name_whole hmark text n t vs hyields).separable S.isMark, fun hlacks => ?_⟩
      cases hlacks
    | null | bool flag | int number | float number => exact .refuse _
    | list items | object fields => cases hscalar
  | list items ih =>
    rw [nameList, nameItems_eq_each]
    split
    · exact .refuse _
    · exact (Ensures.forall₂_each ih).map fun hparts => .list S.isMark hparts
  | object fields _ =>
    rw [nameList]
    refine (Ensures.each fun entry _ => aliasedName_whole hmark operator entry.1 entry.2).map
      fun {n parts vs} hparts => ?_
    have hseparable := fun part hpart => (hparts.2 part hpart).separable S.isMark
    refine ⟨separable_commaList S.isMark hseparable, ?_⟩
    rintro (_ | _)
    rw [List.length_eq_zero_iff.1 hparts.1]
    exact ⟨[], by simp [commaList, itemsFrom], by simp [IsBlank]⟩

/-- A list of names has no gap exactly if no empty object is in it. -/
theorem nameList_gapless_iff (hmark : ctx.quoting.mark = S.mark) (operator : Option String)
    (v : Value) :
    Ensures S replies (fun _ t _ => Gapless S.mark t ↔ ¬ LacksNames v)
      (nameList ctx operator v) := by
  intro n t vs hyields
  constructor
  · intro hgapless hlacks
    obtain ⟨item, hitem, hblank⟩ :=
      (nameList_namesText hmark operator v n t vs hyields).blank hlacks
    exact hgapless.items item hitem hblank
  · exact fun hnames => (nameList_fills hmark operator hnames n t vs hyields).gapless

/-- So do the tables of a statement. -/
theorem tables_gapless_iff (hmark : ctx.quoting.mark = S.mark) (call : Call) :
    Ensures S replies (fun _ t _ => Gapless S.mark t ↔ ¬ LacksNames call.operand)
      (Operator.tables.render ctx call) := by
  unfold Operator.tables
  dsimp only
  split
  · exact .refuse _
  · exact nameList_gapless_iff hmark _ call.operand

/-- Nothing to sort by leaves nothing. -/
theorem sortColumns_empty {v : Value} (h : LacksColumns v) :
    Ensures S replies (fun _ t _ => t = "") (Operator.sortColumns ctx v) := by
  rcases h with rfl | ⟨items, rfl, hitems⟩
  · exact .pure fun _ => rfl
  · unfold Operator.sortColumns
    dsimp only
    split
    · exact .refuse _
    · have hnone : ∀ item ∈ items,
          Ensures S replies (fun _ ts _ => ts = []) (Operator.sortItem ctx item) := by
        intro item hitem
        rw [hitems item hitem]
        exact .pure fun _ => rfl
      refine (Ensures.forall₂_each hnone).map fun {n tss vs} htss => ?_
      have hflatten : tss.flatten = [] := by
        refine List.flatten_eq_nil_iff.2 fun ts hts => ?_
        obtain ⟨i, rfl⟩ := List.mem_iff_get.1 hts
        exact (List.forall₂_iff_get.1 htss).2 i
          (Nat.lt_of_lt_of_eq i.isLt htss.length_eq.symm) i.isLt
      rw [hflatten]
      rfl

/-- What rows are sorted by has no gap exactly if there is a column in it. -/
theorem sortColumns_gapless_iff (hmark : ctx.quoting.mark = S.mark) (v : Value) :
    Ensures S replies (fun _ t _ => Gapless S.mark t ↔ ¬ LacksColumns v)
      (Operator.sortColumns ctx v) := by
  intro n t vs hyields
  constructor
  · exact fun hgapless hlacks => hgapless.nonempty (sortColumns_empty hlacks n t vs hyields)
  · exact fun hcolumns => (sortColumns_fills hmark hcolumns n t vs hyields).gapless

end Sql

end QueryTree
