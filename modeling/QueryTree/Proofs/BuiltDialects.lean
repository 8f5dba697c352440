import Mathlib
import QueryTree.Proofs.Workshop

/-!
# Built dialects

A built dialect is the sum of the operations that its composition accepted, and it stays what it is.

* `Dialect.Folds` says what operations make of a base, in terms of dialects alone, and
  `Dialect.Sound` that the tables of a dialect agree with each other and are closed.
* **`built_dialect_folds`** : whatever is done in a workshop, building a composition gives the fold
  of its accepted operations, and nothing that is done later changes the dialect.
* **`leftover_of_perform_error`** : an operation that fails leaves the composition as it was, except
  for one template.  Its name is not an operator's and never has a handler; all other templates of a
  built dialect have one.
-/

namespace QueryTree

/-! ## The dialect of a composition -/

/-- The dialect is what the operations `done`, accepted one after another, make of `base`. -/
structure Dialect.Folds (d : Dialect) (base : Option Dialect) (done : List Operation) : Prop where
  resolves : ∀ name, d.registry.find? name =
    (Operation.last? (Operation.handler? name) done).or
      (base.bind fun below => below.registry.find? name)
  statements : ∀ name, name ∈ d.statements ↔
    (∃ below ∈ base, name ∈ below.statements) ∨
      ∃ operation ∈ done, operation.makesStatement name = true
  predicates : ∀ name, name ∈ d.predicates ↔
    (∃ below ∈ base, name ∈ below.predicates) ∨
      ∃ operation ∈ done, operation.makesPredicate name = true
  quoting : d.quoting =
    (Operation.last? Operation.quoting? done).getD (base.elim .backtick Dialect.quoting)
  placeholder : d.placeholder =
    (Operation.last? Operation.placeholder? done).getD (base.elim .question Dialect.placeholder)
  maxLimit : d.maxLimit =
    (Operation.last? Operation.maxLimit? done).getD (base.elim defaultMaxLimit Dialect.maxLimit)

/-- The tables of the dialect agree with each other, and every layer of its registry is closed. -/
structure Dialect.Sound (d : Dialect) : Prop where
  statements : ∀ name ∈ d.statements, (d.registry.find? name).isSome = true
  predicates : ∀ name ∈ d.predicates, (d.registry.find? name).isSome = true
  operators : ∀ name, (d.registry.find? name).isSome = true →
    ∃ first rest, name.toList = '$' :: first :: rest
  frozen : ∀ layer ∈ d.registry.layers, layer.frozen = true

/-- The name of an operator is a dollar sign and something after it. -/
theorem isOperatorName_iff {name : String} :
    isOperatorName name = true ↔ ∃ first rest, name.toList = '$' :: first :: rest := by
  unfold isOperatorName
  split
  · rename_i first rest heq
    exact ⟨fun _ => ⟨first, rest, heq⟩, fun _ => rfl⟩
  · rename_i hnone
    constructor
    · intro h
      cases h
    · rintro ⟨first, rest, heq⟩
      exact absurd heq (hnone first rest)

namespace Builder

variable {b : Builder} {name : String} {base : Option Dialect} {done : List Operation}

/-- The edition of a builder has folded the same operations as the builder. -/
theorem Folds.edition (h : b.Folds (start name base) done) : b.edition.Folds base done := by
  obtain ⟨hresolves, hstatements, hpredicates, hquoting, hplaceholder, hmaxLimit⟩ := h
  cases base <;> refine ⟨hresolves, ?_, ?_, hquoting, hplaceholder, hmaxLimit⟩
  · simpa [start, Builder.edition, toDialect] using hstatements
  · simpa [start, Builder.edition, toDialect] using hpredicates
  · simpa [start, Builder.edition, toDialect] using hstatements
  · simpa [start, Builder.edition, toDialect] using hpredicates

/-- The edition of a sound builder is a sound dialect. -/
theorem Sound.edition (hb : b.Sound) (hbuilt : b.built = true) : b.edition.Sound where
  statements := hb.statements
  predicates := hb.predicates
  operators other h := isOperatorName_iff.1 (hb.operators other h)
  frozen layer hlayer := by
    rcases List.mem_cons.1 hlayer with rfl | hbelow
    · exact hb.consistent.trans hbuilt
    · exact hb.below layer hbelow

/-- A template changes nothing only if it is stored already. -/
theorem storing_eq_self_iff {template : Template} :
    b.storing name template = b ↔ b.templates.lookup name = some template := by
  constructor
  · intro h
    rw [← h]
    exact lookup_setEntry_self name template b.templates
  · intro h
    rw [storing, setEntry_of_lookup h]

/-- Building closes the composition and is no part of what it adds up to. -/
theorem perform_build_closes (b : Builder) :
    (b.perform .build).2.built = true ∧ (b.perform .build).2.Folds b [] := by
  constructor <;> rw [perform_build] <;> split
  · assumption
  · rfl
  · exact .refl b
  · exact { Folds.refl b with }

end Builder

/-! ## Histories -/

namespace Workshop

/-- A dialect that is built stays what it is, and its composition accepts nothing any more. -/
theorem Sound.built_stays {w : Workshop} {index : Nat} (hw : w.Sound)
    {cell : Builder × Option Nat} (hcell : w.cells[index]? = some cell)
    (hbuilt : cell.1.built = true) (later : List Action) :
    (w.run later).dialect? index = some cell.1.edition ∧
      ∀ operation, ∃ fault, (w.run later).outcome? index operation = some (.error fault) := by
  have hconsistent := (hw.builder hcell).consistent
  have hlater := hw.run later
  have hcellLater : (w.run later).cells[index]? = some cell := by
    rw [hw.getElem?_run hcell, Builder.performAll_of_built hconsistent hbuilt]
  refine ⟨by rw [hlater.dialect?_eq hcellLater, if_pos hbuilt], fun operation => ?_⟩
  obtain ⟨fault, heq⟩ := Builder.perform_of_built hconsistent hbuilt operation
  refine ⟨fault, ?_⟩
  rw [outcome?, hlater.builder?_eq, hcellLater]
  simp [heq]

/-- **A dialect is the fold of its composition.**  A composition is started in any workshop, above a
dialect that was built there or from nothing; anything is done, to this composition and to others;
then it is built.  The dialect is what the accepted operations of the composition make of the base,
its tables agree, and later on every operation on it fails while it stays the same. -/
theorem built_dialect_folds (before during : List Action) (name : String) (base : Option Nat)
    (hbase : ∀ number ∈ base, ((run {} before).dialect? number).isSome = true) :
    let w := run {} before
    let index := w.cells.length
    let started := w.step (.start name base)
    let ready := started.run during
    let closed := ready.step (.perform index .build)
    ∃ d, closed.dialect? index = some d ∧
      d.Folds (base.bind w.dialect?) (started.accepted index during) ∧ d.Sound ∧
      (∀ b ∈ ready.builder? index, b.built = false → (Compose.build.run.run b).1 = .ok d) ∧
      ∀ later, (closed.run later).dialect? index = some d ∧
        ∀ operation, ∃ fault,
          (closed.run later).outcome? index operation = some (.error fault) := by
  intro w index started ready closed
  have hw : w.Sound := sound_empty.run before
  have hstarted : started.Sound := hw.step _
  have hready : ready.Sound := hstarted.run during
  have hclosed : closed.Sound := hready.step _
  -- The composition that is started, as it is when it is built, and once it is built.
  have hcell : started.cells[index]? = some (Builder.start name (base.bind w.dialect?), base) :=
    getElem?_start hbase name
  have hstart := hstarted.builder hcell
  have hsound := hstart.performAll (Action.operations index during)
  obtain ⟨-, hfolds, -⟩ := hstart.consistent.performAll (Action.operations index during)
  have hcellReady := hstarted.getElem?_run hcell during
  generalize (Builder.start name (base.bind w.dialect?)).performAll
    (Action.operations index during) = b at hsound hfolds hcellReady
  obtain ⟨hbuilt, hfoldsClosed⟩ := b.perform_build_closes
  have hcellClosed : closed.cells[index]? = some ((b.perform .build).2, base) := by
    simpa [Builder.performAll] using hready.getElem?_step hcellReady (.perform index .build)
  have hstays := hclosed.built_stays hcellClosed hbuilt
  refine ⟨_, (hstays []).1, ?_, (hsound.perform .build).edition hbuilt, ?_, hstays⟩
  · rw [hstarted.accepted_eq hcell during, ← List.append_nil (Builder.acceptedAll _ _)]
    exact (hfolds.trans hfoldsClosed).edition
  · rintro b' hb' hopen
    rw [hready.builder?_eq, hcellReady] at hb'
    cases hb'
    rw [Builder.run_build hopen, Builder.perform_build, hopen]
    rfl

/-- An operator that is a word. -/
def wordHandler (word : String) : Handler where
  name := word
  render _ _ := pure word

/-- A dialect with a statement of either kind. -/
def auditBase : List Action :=
  [.start "base" none, .perform 0 (.register "$audit" (wordHandler "AUDIT") true false),
    .perform 0 (.registerTemplate "$merge" (.str "MERGE <$table>") [] true), .perform 0 .build]

/-- Operations on a composition above it, among others: a name that is refused, a dialect of the
same base that gives `$audit` another meaning, and a template that is replaced. -/
def auditChanges : List Action :=
  [.perform 1 (.register "audit" (wordHandler "LOST") true true), .start "other" (some 0),
    .perform 2 (.register "$audit" (wordHandler "OTHER") false false),
    .perform 1 (.register "$audit" (wordHandler "LOG") false true),
    .perform 1 (.updateTemplate "$merge" (.str "MERGE INTO <$table>") []),
    .perform 1 (.maxLimit "10")]

theorem built_dialect_folds_auditChanges :
    (∀ number ∈ some 0, ((run {} auditBase).dialect? number).isSome = true) ∧
      ∃ d, ((((run {} auditBase).step (.start "derived" (some 0))).run auditChanges).step
          (.perform 1 .build)).dialect? 1 = some d ∧
        d.registry.find? "$audit" = some (wordHandler "LOG") ∧ "$merge" ∈ d.statements ∧
        "audit" ∉ d.predicates ∧ "$audit" ∈ d.predicates ∧ d.quoting = .backtick ∧
        d.maxLimit = "10" := by
  have hbase : ∀ number ∈ some 0, ((run {} auditBase).dialect? number).isSome = true := by
    rintro _ ⟨⟩
    cbv
  have hlength : (run {} auditBase).cells.length = 1 := by cbv
  have hdone : ((run {} auditBase).step (.start "derived" (some 0))).accepted 1 auditChanges =
      [.register "$audit" (wordHandler "LOG") false true,
        .updateTemplate "$merge" (.str "MERGE INTO <$table>") [], .maxLimit "10"] := by cbv
  have htables : ((run {} auditBase).dialect? 0).elim ([], [], .doubleQuote)
      (fun below => (below.statements, below.predicates, below.quoting)) =
        (["$audit", "$merge"], [], .backtick) := by cbv
  obtain ⟨d, hd, hfolds, -⟩ := built_dialect_folds auditBase auditChanges "derived" (some 0) hbase
  obtain ⟨below, hbelow⟩ := Option.isSome_iff_exists.1 (hbase 0 rfl)
  rw [hlength] at hd hfolds
  rw [hdone, Option.bind_some, hbelow] at hfolds
  simp only [hbelow, Option.elim_some, Prod.mk.injEq] at htables
  obtain ⟨hstatements, hpredicates, hquoting⟩ := htables
  refine ⟨hbase, d, hd, ?_, ?_, ?_, ?_, ?_, ?_⟩
  · rw [hfolds.resolves]
    rfl
  · exact (hfolds.statements _).2 (.inl ⟨below, rfl, by simp [hstatements]⟩)
  · simp [hfolds.predicates, hpredicates, Operation.makesPredicate]
  · exact (hfolds.predicates _).2 (.inr ⟨_, List.mem_cons_self, rfl⟩)
  · rw [hfolds.quoting]
    exact hquoting
  · rw [hfolds.maxLimit]
    rfl

/-- **How far a failing operation is undone.**  A composition reached by any history in which an
operation fails stays as it was, except that the template the operation leaves behind is stored; so
it is unchanged exactly if that template was stored already or there is none.  A name that has a
template in a built dialect has a handler exactly if it is the name of an operator. -/
theorem leftover_of_perform_error (history : List Action) :
    let w := run {} history
    (∀ index b operation fault b', w.builder? index = some b →
      b.perform operation = (.error fault, b') →
        b' = (operation.leftover? b).elim b (fun left => b.storing left.1 left.2) ∧
        (b' = b ↔ ∀ left ∈ operation.leftover? b, b.templates.lookup left.1 = some left.2)) ∧
    ∀ index d, w.dialect? index = some d → ∀ name, (d.templates.lookup name).isSome = true →
      ((d.registry.find? name).isSome = true ↔ isOperatorName name = true) := by
  intro w
  have hw : w.Sound := sound_empty.run history
  constructor
  · intro index b operation fault b' hb herror
    rw [hw.builder?_eq] at hb
    obtain ⟨cell, hcell, rfl⟩ := Option.map_eq_some_iff.1 hb
    have hleft := Builder.eq_of_perform_error (hw.builder hcell).consistent herror
    refine ⟨hleft, ?_⟩
    rw [hleft]
    cases operation.leftover? cell.1 with
    | none => simp
    | some left => simp [Builder.storing_eq_self_iff]
  · intro index d hd name htemplate
    obtain ⟨cell, hcell, -, rfl⟩ := hw.dialect?_eq_some hd
    have hb := hw.builder hcell
    exact ⟨hb.operators name, hb.templates name htemplate⟩

/-- A template under a name that is not an operator's. -/
def mergeOperation : Operation :=
  .registerTemplate "merge" (.str "MERGE <$table>") [] false

/-- The template that is left behind. -/
def mergeTemplate : Template :=
  ⟨"merge", "MERGE <$table>", [.word "MERGE" false, .required "$table" true]⟩

theorem leftover_of_perform_error_merge :
    (∃ b fault b', (run {} [.start "x" none]).builder? 0 = some b ∧
      b.perform mergeOperation = (.error fault, b') ∧ b' ≠ b) ∧
    ∃ d, (run {} [.start "x" none, .perform 0 mergeOperation, .perform 0 .build]).dialect? 0 =
      some d ∧ (d.templates.lookup "merge").isSome = true ∧ d.registry.find? "merge" = none := by
  constructor
  · have hb : (run {} [.start "x" none]).builder? 0 = some (Builder.start "x" none) := by cbv
    have herror : (Builder.start "x" none).perform mergeOperation =
        (.error (.registry (.badName (.str "merge"))),
          (Builder.start "x" none).storing "merge" mergeTemplate) := rfl
    obtain ⟨-, hunchanged⟩ :=
      (leftover_of_perform_error [.start "x" none]).1 0 _ mergeOperation _ _ hb herror
    refine ⟨_, _, _, hb, herror, fun h => ?_⟩
    cases hunchanged.1 h ("merge", mergeTemplate) rfl
  · have htemplate : ((run {} [.start "x" none, .perform 0 mergeOperation,
        .perform 0 .build]).dialect? 0).any
          (fun d => (d.templates.lookup "merge").isSome) = true := by cbv
    obtain ⟨d, hd, htemplate⟩ := (Option.any_eq_true _ _).1 htemplate
    have hhandler := (leftover_of_perform_error _).2 0 d hd "merge" htemplate
    refine ⟨d, hd, htemplate, ?_⟩
    rw [← Option.not_isSome_iff_eq_none, hhandler]
    decide

end Workshop

end QueryTree
