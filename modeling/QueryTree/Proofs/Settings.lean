import QueryTree.Proofs.DataIndependence
import QueryTree.Proofs.Extension

/-!
# Settings of a dialect

A dialect has three settings: the mark that names are quoted with, the style of placeholders and the
literal for "no limit".  They change the text of a statement and nothing else.

* `Dialect.withSettingsOf` gives a dialect the settings of another one.
* `Likeness.styled` is the likeness of texts that differ in style.
* `Dialect.values_withSettingsOf` : settings decide neither which queries compile nor which values
  they bind.
* **`compile_postgres_of_ansi_restyled`** : the base dialect with the settings of PostgreSQL
  compiles the queries of the base dialect to the same values, and PostgreSQL compiles them as it
  does.
-/

namespace QueryTree

/-- A dialect with the settings of another one. -/
def Dialect.withSettingsOf (d other : Dialect) : Dialect :=
  { d with quoting := other.quoting, placeholder := other.placeholder, maxLimit := other.maxLimit }

/-! ## Settings only change the text -/

/-- Texts of which nothing is asked but that they are empty together. -/
def Likeness.styled : Likeness :=
  .ofCongruence
    { rel _ _ _ := True
      refl _ := trivial
      append _ _ := trivial }

/-- A quoted segment has at least its marks. -/
theorem QuoteStyle.segmentChars_ne_nil (style : QuoteStyle) (cs : List Char) :
    style.segmentChars cs ≠ [] := by
  unfold segmentChars
  split
  · rename_i hstar
    simp [hstar]
  · simp

/-- Only a name without segments is empty. -/
theorem QuoteStyle.joinSegments_isEmpty (style : QuoteStyle) (parts : List (List Char)) :
    (String.ofList (style.joinSegments parts)).isEmpty = parts.isEmpty := by
  cases parts with
  | nil => rfl
  | cons first rest =>
    have hne : style.joinSegments (first :: rest) ≠ [] := by
      cases rest with
      | nil => simpa [joinSegments, List.intercalate] using style.segmentChars_ne_nil first
      | cons second rest => simp [joinSegments, List.intercalate]
    rw [List.isEmpty_cons, ← Bool.not_eq_true, String.isEmpty_iff]
    intro hempty
    exact hne (by simpa using congrArg String.toList hempty)

theorem Likeness.styled_rel {a a' : String} (h : a.isEmpty = a'.isEmpty) :
    styled.rel False 0 a a' :=
  ⟨h, fun _ => ⟨id, rfl⟩, fun _ => trivial⟩

namespace Dialect

/-- The word for no limit is a word in every dialect. -/
theorem maxLimit_isEmpty {d : Dialect} (hd : d ∈ library) : d.maxLimit.isEmpty = false := by
  simp only [library, List.mem_cons, List.not_mem_nil, or_false] at hd
  rcases hd with rfl | rfl | rfl
  · rw [ansi_eq]
    rfl
  · rw [mysql_eq]
    rfl
  · rw [postgres_eq]
    rfl

/-- A dialect of the library next to itself with the settings of another one. -/
theorem like_withSettingsOf {d other : Dialect} (hd : d ∈ library) (hother : other ∈ library) :
    d.Like .styled 0 0 (d.withSettingsOf other) where
  known := find?_mem hd
  registry := rfl
  statements := rfl
  predicates := rfl
  names parts := Likeness.styled_rel (by
    rw [QuoteStyle.joinSegments_isEmpty, QuoteStyle.joinSegments_isEmpty])
  maxLimit := Likeness.styled_rel ((maxLimit_isEmpty hd).trans (maxLimit_isEmpty hother).symm)
  tokens i :=
    Likeness.ofCongruence_rel (Placeholder.isEmpty_eq_false (settled_of_mem hd).placeholder _)
      (Placeholder.isEmpty_eq_false (settled_of_mem hother).placeholder _) trivial

/-- Settings decide neither which queries compile nor which values they bind. -/
theorem values_withSettingsOf {d other : Dialect} (hd : d ∈ library) (hother : other ∈ library)
    (query : Value) :
    ((d.withSettingsOf other).compile query).toOption.map Statement.values =
      (d.compile query).toOption.map Statement.values := by
  have hself : Alike (fun _ _ => False) .nested query query := .same _ _
  refine ((like_withSettingsOf hd hother).toOption_map_eq hself fun hvalues _ => ?_).symm
  simpa using hvalues

end Dialect

/-! ## The extension -/

/-- The definition of a table in the base dialect is the one of PostgreSQL without what is new. -/
theorem Postgres.restrict_createTable :
    Template.restrict Ansi.createTableTemplate.keys.contains createTableTemplate.nodes =
      Ansi.createTableTemplate.nodes := rfl

theorem Postgres.restrict_column :
    Template.restrict Ansi.columnTemplate.keys.contains columnTemplate.nodes =
      Ansi.columnTemplate.nodes := rfl

/-- What PostgreSQL replaces does all that the base dialect did. -/
theorem Postgres.coveredBy_of_lookup {known : String → Prop} : ∀ entry ∈ table, ∀ handler,
    Ansi.table.lookup entry.1 = some handler → handler.CoveredBy known entry.2 := by
  simp only [table, operators, List.forall_mem_append, List.forall_mem_cons]
  refine ⟨⟨?_, ?_, ?_, by simp⟩, ?_, ?_, ?_, ?_, ?_, ?_, ?_, ?_, by simp⟩
  · intro handler hfind
    have hcreate : Ansi.table.lookup "$createTable" =
        some (Ansi.createTableTemplate.handler []) := rfl
    obtain rfl := Option.some.inj (hcreate.symm.trans hfind)
    exact Template.coveredBy_of_restrict restrict_createTable rfl (by decide)
  · intro handler hfind
    have hcolumn : Ansi.table.lookup "$column" = some (Ansi.columnTemplate.handler []) := rfl
    obtain rfl := Option.some.inj (hcolumn.symm.trans hfind)
    exact Template.coveredBy_of_restrict restrict_column rfl (by decide)
  -- the base dialect does not have the others
  all_goals
    intro handler hfind
    cases hfind

/-- PostgreSQL extends the base dialect with its own settings. -/
theorem Dialect.postgres_extends_ansi_restyled :
    Dialect.postgres.Extends (Dialect.ansi.withSettingsOf Dialect.postgres) := by
  rw [Dialect.postgres_eq, Dialect.ansi_eq]
  refine ⟨rfl, rfl, rfl, fun _ _ => rfl, fun _ _ => rfl, by decide, fun name handler hfind => ?_⟩
  refine Ansi.exists_coveredBy Postgres.coveredBy_of_lookup ?_
  simpa [Dialect.withSettingsOf, Registry.find?, Registry.layers, Layer.get?] using hfind

/-- **PostgreSQL extends the base dialect up to its settings.** The base dialect with the double
quotes, the numbered placeholders and the limit of PostgreSQL compiles the queries of the base
dialect, to the same values; and PostgreSQL compiles them to the same text and the same values. -/
theorem compile_postgres_of_ansi_restyled (query : Value) :
    (Dialect.postgres.quoting = .doubleQuote ∧ Dialect.postgres.placeholder = .numbered ∧
        Dialect.postgres.maxLimit = "ALL") ∧
      ((Dialect.ansi.withSettingsOf Dialect.postgres).compile query).toOption.map Statement.values =
        (Dialect.ansi.compile query).toOption.map Statement.values ∧
      ∀ statement, (Dialect.ansi.withSettingsOf Dialect.postgres).compile query = .ok statement →
        Dialect.postgres.compile query =
          .ok { statement with dialect := Dialect.postgres.name } := by
  have hansi : Dialect.ansi ∈ Dialect.library := by simp [Dialect.library]
  have hpostgres : Dialect.postgres ∈ Dialect.library := by simp [Dialect.library]
  refine ⟨?_, Dialect.values_withSettingsOf hansi hpostgres query, fun statement hcompile => ?_⟩
  · rw [Dialect.postgres_eq]
    exact ⟨rfl, rfl, rfl⟩
  · exact Dialect.postgres_extends_ansi_restyled.compile hcompile

/-- The statement of `groupedQuery` in the base dialect with the settings of PostgreSQL. -/
def restyledStatement : Statement where
  sql :=
    "SELECT DISTINCT COUNT(*) AS \"n\" FROM \"t\" WHERE \"a\" NOT IN " ++
      "(SELECT \"b\" FROM \"u\") AND (\"c\" IS NULL OR \"d\" = $1) " ++
      "GROUP BY \"e\" LIMIT ALL OFFSET $2"
  values := [.int 1, .int 2]
  dialect := "ansi"

set_option maxRecDepth 4000 in
theorem compile_groupedQuery_restyled :
    (Dialect.ansi.withSettingsOf Dialect.postgres).compile groupedQuery =
      .ok restyledStatement := by
  rw [Dialect.ansi_eq, Dialect.postgres_eq]
  rfl

theorem compile_postgres_of_ansi_restyled_groupedQuery :
    (Dialect.ansi.withSettingsOf Dialect.postgres).compile groupedQuery = .ok restyledStatement ∧
      (Dialect.ansi.compile groupedQuery).toOption.map Statement.values = some [.int 1, .int 2] ∧
      Dialect.postgres.compile groupedQuery =
        .ok { restyledStatement with dialect := Dialect.postgres.name } := by
  obtain ⟨-, hvalues, hcompile⟩ := compile_postgres_of_ansi_restyled groupedQuery
  refine ⟨compile_groupedQuery_restyled, ?_, hcompile _ compile_groupedQuery_restyled⟩
  rw [← hvalues, compile_groupedQuery_restyled]
  rfl

end QueryTree
