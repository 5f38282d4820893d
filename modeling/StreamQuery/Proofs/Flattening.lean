import Mathlib.Data.List.Basic
import Mathlib.Data.List.Induction
import StreamQuery.Roster
import StreamQuery.Schema

/-! # Flattened schemas

Flattening shows one value column for each name that it exposes, the first one: metadata columns come
before key columns, these before the window bounds, and these before the value columns. Whatever a name
denotes is then a value column, so flattening a second time changes nothing.
-/

set_option autoImplicit false

namespace StreamQuery.Schema

/-! ## What flattening keeps

A name denotes a column of a schema exactly if some column has it. Flattening adds the two window
bounds to the names that denote a column and takes none away.
-/

theorem named?_isSome_iff {name : ColumnName} {columns : List Column} :
    (named? name columns).isSome ↔ ∃ column ∈ columns, column.name = name := by
  simp [named?]

theorem find?_isSome_iff {schema : Schema} {name : ColumnName} :
    (schema.find? name).isSome ↔ ∃ column ∈ schema.columns, column.name = name := by
  simp only [find?, findValue?, Option.isSome_or, Bool.or_eq_true, named?_isSome_iff, columns,
    List.mem_append]
  constructor
  · intro given
    rcases given with ⟨column, isValue, named⟩ | ⟨column, isKey, named⟩ | ⟨column, isMeta, named⟩
    · exact ⟨column, .inr isValue, named⟩
    · exact ⟨column, .inl (.inr isKey), named⟩
    · exact ⟨column, .inl (.inl isMeta), named⟩
  · intro given
    rcases given with ⟨column, (isMeta | isKey) | isValue, named⟩
    · exact .inr (.inr ⟨column, isMeta, named⟩)
    · exact .inr (.inl ⟨column, isKey, named⟩)
    · exact .inl ⟨column, isValue, named⟩

theorem named?_append (name : ColumnName) (front columns : List Column) :
    named? name (front ++ columns) = (named? name front).or (named? name columns) :=
  List.find?_append

/-- The value columns of a flattened schema before repeated names are dropped. -/
def exposed (schema : Schema) : List Column :=
  (schema.metaColumns ++ schema.keyColumns).map Column.asValue ++ windowBounds ++
    schema.valueColumns

theorem firstByName_sublist (columns : List Column) : (firstByName columns).Sublist columns := by
  induction columns with
  | nil => exact .slnil
  | cons column rest ih => exact (List.filter_sublist.trans ih).cons_cons column

theorem nodup_names_firstByName (columns : List Column) :
    ((firstByName columns).map (·.name)).Nodup := by
  induction columns with
  | nil => exact List.nodup_nil
  | cons column rest ih =>
    rw [firstByName, List.map_cons, List.nodup_cons]
    refine ⟨?_, ih.sublist (List.filter_sublist.map _)⟩
    intro again
    obtain ⟨other, isOther, sameName⟩ := List.mem_map.mp again
    have different := (List.mem_filter.mp isOther).2
    exact of_decide_eq_true different sameName

theorem findValue?_flatten (schema : Schema) (name : ColumnName) :
    schema.flatten.findValue? name = named? name schema.exposed :=
  named?_firstByName name schema.exposed

theorem exists_exposed_iff {schema : Schema} {name : ColumnName} :
    (∃ column ∈ schema.exposed, column.name = name) ↔
      name = .windowStart ∨ name = .windowEnd ∨ ∃ column ∈ schema.columns, column.name = name := by
  simp only [exposed, windowBounds, columns, List.mem_append, List.mem_map, List.mem_cons,
    List.not_mem_nil, or_false]
  constructor
  · intro given
    rcases given with ⟨column, ((⟨original, isOriginal, rfl⟩ | rfl | rfl) | isValue), named⟩
    · exact .inr (.inr ⟨original, .inl isOriginal, named⟩)
    · exact .inl named.symm
    · exact .inr (.inl named.symm)
    · exact .inr (.inr ⟨column, .inr isValue, named⟩)
  · intro given
    rcases given with rfl | rfl | ⟨column, isOriginal | isValue, named⟩
    · exact ⟨_, .inl (.inr (.inl rfl)), rfl⟩
    · exact ⟨_, .inl (.inr (.inr rfl)), rfl⟩
    · exact ⟨column.asValue, .inl (.inl ⟨column, isOriginal, rfl⟩), named⟩
    · exact ⟨column, .inr isValue, named⟩

theorem findValue?_flatten_isSome_iff {schema : Schema} {name : ColumnName} :
    (schema.flatten.findValue? name).isSome ↔
      name = .windowStart ∨ name = .windowEnd ∨ (schema.find? name).isSome := by
  rw [findValue?_flatten, named?_isSome_iff, exists_exposed_iff, find?_isSome_iff]

theorem find?_flatten (schema : Schema) (name : ColumnName) :
    schema.flatten.find? name = schema.flatten.findValue? name := by
  cases shown : schema.flatten.findValue? name with
  | some column => rw [find?, shown, Option.some_or]
  | none =>
    have notShown : ¬(schema.flatten.findValue? name).isSome := by simp [shown]
    rw [findValue?_flatten_isSome_iff, not_or, not_or] at notShown
    -- Keys and metadata are the same before and after, and none of them has this name.
    have unknown : schema.find? name = none := by simpa using notShown.2.2
    have hidden := (Option.or_eq_none_iff.mp unknown).2
    rw [find?, shown, Option.none_or]
    exact hidden

theorem find?_flatten_isSome_iff {schema : Schema} {name : ColumnName} :
    (schema.flatten.find? name).isSome ↔
      name = .windowStart ∨ name = .windowEnd ∨ (schema.find? name).isSome := by
  rw [find?_flatten, findValue?_flatten_isSome_iff]

theorem find?_flattenIf_or_isSome {schema : Schema} {name : ColumnName} {first : Bool}
    (second : Bool) (found : ((schema.flattenIf first).find? name).isSome) :
    ((schema.flattenIf (first || second)).find? name).isSome := by
  cases first with
  | true => exact found
  | false =>
    cases second with
    | false => exact found
    | true => exact find?_flatten_isSome_iff.mpr (.inr (.inr found))

/-! ## Items in the order in which they first occur -/

section FirstOccurrences

variable {α : Type} [DecidableEq α]

theorem eraseDups_concat (items : List α) (item : α) :
    (items ++ [item]).eraseDups =
      if item ∈ items then items.eraseDups else items.eraseDups ++ [item] := by
  have single : [item].eraseDups = [item] := rfl
  rw [List.eraseDups_append]
  by_cases present : item ∈ items
  · simp [List.removeAll, present]
  · simp [List.removeAll, present, single]

theorem eraseDups_append_eraseDups (front items : List α) :
    (front ++ items.eraseDups).eraseDups = (front ++ items).eraseDups := by
  induction items using List.reverseRecOn with
  | nil => rfl
  | append_singleton items item ih =>
    rw [eraseDups_concat, ← List.append_assoc, eraseDups_concat (front ++ items)]
    by_cases present : item ∈ items
    · rw [if_pos present, if_pos (List.mem_append_right front present), ih]
    · simp only [if_neg present, ← List.append_assoc, eraseDups_concat, List.mem_append,
        List.mem_eraseDups, ih]

theorem eraseDups_append_again (front items : List α) :
    (front ++ (front ++ items).eraseDups).eraseDups = (front ++ items).eraseDups := by
  have nothing : front.removeAll front = [] := by
    rw [List.removeAll, List.filter_eq_nil_iff]
    intro item isItem
    simpa using isItem
  have twice : items.removeAll (front ++ front) = items.removeAll front := by
    simp [List.removeAll]
  rw [eraseDups_append_eraseDups, ← List.append_assoc]
  simp only [List.eraseDups_append, nothing, twice, List.eraseDups_nil, List.append_nil]

end FirstOccurrences

/-! ## First columns of a name -/

/-- For each name of a list of columns, in the order in which the names first occur, its first
column. -/
def firstOfEachName (columns : List Column) : List Column :=
  (columns.map (·.name)).eraseDups.filterMap fun name => named? name columns

theorem firstByName_concat (columns : List Column) (column : Column) :
    firstByName (columns ++ [column]) =
      if column.name ∈ columns.map (·.name) then firstByName columns
      else firstByName columns ++ [column] := by
  induction columns with
  | nil => rfl
  | cons first rest ih =>
    rw [List.cons_append, firstByName, ih, firstByName, List.map_cons]
    by_cases sameName : column.name = first.name
    · rw [if_pos (List.mem_cons.mpr (.inl sameName))]
      split
      · rfl
      · simp [sameName]
    · by_cases later : column.name ∈ rest.map (·.name)
      · rw [if_pos later, if_pos (List.mem_cons_of_mem _ later)]
      · rw [if_neg later, if_neg (List.not_mem_cons_of_ne_of_not_mem sameName later)]
        simp [sameName]

theorem names_firstByName (columns : List Column) :
    (firstByName columns).map (·.name) = (columns.map (·.name)).eraseDups := by
  induction columns using List.reverseRecOn with
  | nil => rfl
  | append_singleton columns column ih =>
    rw [firstByName_concat, List.map_append, List.map_singleton, eraseDups_concat, ← ih]
    split
    · rfl
    · rw [List.map_append, List.map_singleton]

theorem firstByName_eq_firstOfEachName (columns : List Column) :
    firstByName columns = firstOfEachName columns := by
  have found : ∀ column ∈ firstByName columns, named? column.name columns = some column := by
    intro column isFirst
    rw [← named?_firstByName]
    exact Roster.find?_key_of_mem (nodup_names_firstByName columns) isFirst
  rw [firstOfEachName, ← names_firstByName, List.filterMap_map]
  calc firstByName columns
      = (firstByName columns).filterMap some := List.filterMap_some.symm
    _ = _ := List.filterMap_congr fun column isFirst => (found column isFirst).symm

theorem firstByName_congr {first second : List Column}
    (names : (first.map (·.name)).eraseDups = (second.map (·.name)).eraseDups)
    (found : ∀ name, named? name first = named? name second) :
    firstByName first = firstByName second := by
  simp only [firstByName_eq_firstOfEachName, firstOfEachName, names, found]

theorem firstByName_append_again (front columns : List Column) :
    firstByName (front ++ firstByName (front ++ columns)) = firstByName (front ++ columns) := by
  apply firstByName_congr
  · rw [List.map_append, names_firstByName, List.map_append, eraseDups_append_again]
  · intro name
    rw [named?_append, named?_firstByName, named?_append, ← Option.or_assoc, Option.or_self]

/-! ## The flattened schema -/

theorem flatten_flatten (schema : Schema) : schema.flatten.flatten = schema.flatten := by
  have again := firstByName_append_again
    ((schema.metaColumns ++ schema.keyColumns).map Column.asValue ++ windowBounds)
    schema.valueColumns
  rw [flatten, flatten]
  exact congrArg (Schema.mk schema.metaColumns schema.keyColumns) again

theorem names_exposed (schema : Schema) :
    schema.exposed.map (·.name) =
      schema.metaColumns.map (·.name) ++ schema.keyColumns.map (·.name) ++
        [.windowStart, .windowEnd] ++ schema.valueColumns.map (·.name) := by
  simp [exposed, windowBounds, Function.comp_def]

theorem columnNames_flatten (schema : Schema) :
    schema.flatten.columnNames = (schema.exposed.map (·.name)).eraseDups := by
  have shown : schema.flatten.valueColumns = firstByName schema.exposed := rfl
  rw [columnNames, names_firstByName, columns, List.map_append, List.map_append,
    metaColumns_flatten, keyColumns_flatten, shown, names_firstByName, names_exposed,
    List.append_assoc (_ ++ _), eraseDups_append_again]

/-- All that a flattened schema is. -/
theorem flatten_exactly (schema : Schema) :
    schema.flatten.metaColumns = schema.metaColumns ∧
    schema.flatten.keyColumns = schema.keyColumns ∧
    (schema.flatten.valueColumns.map (·.name)).Nodup ∧
    schema.flatten.valueColumns = firstOfEachName
      ((schema.metaColumns ++ schema.keyColumns).map
          (fun column => ⟨column.name, column.type, .value⟩) ++
        [⟨.windowStart, .bigint, .value⟩, ⟨.windowEnd, .bigint, .value⟩] ++
        schema.valueColumns) ∧
    (∀ name, schema.flatten.find? name = schema.flatten.findValue? name ∧
      ((schema.flatten.find? name).isSome ↔
        name = .windowStart ∨ name = .windowEnd ∨ (schema.find? name).isSome)) ∧
    schema.flatten.columnNames =
      (schema.metaColumns.map (·.name) ++ schema.keyColumns.map (·.name) ++
        [.windowStart, .windowEnd] ++ schema.valueColumns.map (·.name) :
        List ColumnName).eraseDups ∧
    schema.flatten.flatten = schema.flatten := by
  refine ⟨rfl, rfl, nodup_names_firstByName _, firstByName_eq_firstOfEachName _, ?_, ?_,
    flatten_flatten schema⟩
  · intro name
    exact ⟨find?_flatten schema name, find?_flatten_isSome_iff⟩
  · rw [columnNames_flatten, names_exposed]

/-! ## What a name denotes in a flattened schema

In a schema a value column hides a key column of its name, and this one a metadata column. Flattening
puts all of them in one list, the metadata columns first, so there the order is turned round. In a schema
that was declared column by column this shows for one name only: the timestamp of the platform hides a
key column of its name, whatever the type of that is.
-/

/-- A schema that was made from the empty one by adding key columns and value columns. -/
inductive Declared : Schema → Prop where
  | empty : Declared empty
  | addKey {schema : Schema} (declared : Declared schema) (name : ColumnName) (type : SqlType) :
      Declared (schema.addKey name type)
  | addValue {schema : Schema} (declared : Declared schema) (name : ColumnName) (type : SqlType) :
      Declared (schema.addValue name type)

variable {schema : Schema} {name : ColumnName} {column : Column}

theorem Declared.metaColumns (declared : Declared schema) :
    schema.metaColumns = [⟨.rowtime, .bigint, .metadata⟩] := by
  induction declared with
  | empty => rfl
  | addKey _ _ _ ih => exact ih
  | addValue _ _ _ ih => exact ih

theorem named?_map_asValue (name : ColumnName) (columns : List Column) :
    named? name (columns.map Column.asValue) = (named? name columns).map Column.asValue :=
  List.find?_map

theorem find?_flatten_eq_or (schema : Schema) (name : ColumnName) :
    schema.flatten.find? name =
      (((named? name schema.metaColumns).or (named? name schema.keyColumns)).map
        Column.asValue).or ((named? name windowBounds).or (schema.findValue? name)) := by
  rw [find?_flatten, findValue?_flatten, exposed, named?_append, named?_append, named?_map_asValue,
    named?_append, Option.or_assoc]
  rfl

theorem findValue?_eq_none (notValue : ∀ value ∈ schema.valueColumns, value.name ≠ name) :
    schema.findValue? name = none := by
  rw [findValue?, named?, List.find?_eq_none]
  intro value isValue
  simpa using notValue value isValue

theorem Declared.find?_flatten (declared : Declared schema) (found : schema.find? name = some column)
    (notValue : ∀ value ∈ schema.valueColumns, value.name ≠ name) :
    schema.flatten.find? name =
      some (if name = .rowtime then ⟨.rowtime, .bigint, .value⟩ else column.asValue) := by
  have noValue := findValue?_eq_none notValue
  rw [find?_flatten_eq_or, noValue, declared.metaColumns]
  rw [find?, noValue, Option.none_or, declared.metaColumns] at found
  by_cases isRowtime : name = .rowtime
  · subst isRowtime
    rfl
  · have noMeta : named? name [⟨.rowtime, .bigint, .metadata⟩] = none := by
      simp [named?, Ne.symm isRowtime]
    rw [noMeta, Option.or_none] at found
    rw [noMeta, Option.none_or, found, if_neg isRowtime]
    rfl

/-- Flattening keeps the type of what a name denotes, unless the name is that of the timestamp and
denotes a key column of another type. -/
theorem type_flatten_of_declared (declared : Declared schema)
    (found : schema.find? name = some column)
    (notValue : ∀ value ∈ schema.valueColumns, value.name ≠ name) :
    schema.flatten.find? name =
      some (if name = .rowtime then ⟨.rowtime, .bigint, .value⟩ else column.asValue) ∧
    ((schema.flatten.find? name).map (·.type) = (schema.find? name).map (·.type) ↔
      (name = .rowtime → column.type = .bigint)) := by
  have shown := declared.find?_flatten found notValue
  refine ⟨shown, ?_⟩
  rw [shown, found, Option.map_some, Option.map_some, Option.some.injEq]
  by_cases isRowtime : name = .rowtime
  · simp [isRowtime, eq_comm]
  · simp [isRowtime, Column.asValue]

def keyedByTime : Schema :=
  empty.addKey .rowtime .string

theorem declared_keyedByTime : Declared keyedByTime :=
  .addKey .empty .rowtime .string

def numberedItems : Schema :=
  (keyedByTime.addKey ⟨"ID"⟩ .integer).addValue ⟨"ITEM"⟩ .string

theorem type_flatten_numberedItems :
    Declared numberedItems ∧ numberedItems.find? ⟨"ID"⟩ = some ⟨⟨"ID"⟩, .integer, .key⟩ ∧
      (∀ value ∈ numberedItems.valueColumns, value.name ≠ ⟨"ID"⟩) ∧
      numberedItems.flatten.find? ⟨"ID"⟩ = some ⟨⟨"ID"⟩, .integer, .value⟩ ∧
      (numberedItems.flatten.find? ⟨"ID"⟩).map (·.type) =
        (numberedItems.find? ⟨"ID"⟩).map (·.type) := by
  have declared : Declared numberedItems := (declared_keyedByTime.addKey _ _).addValue _ _
  have found : numberedItems.find? ⟨"ID"⟩ = some ⟨⟨"ID"⟩, .integer, .key⟩ := by decide
  have notValue : ∀ value ∈ numberedItems.valueColumns, value.name ≠ ⟨"ID"⟩ := by decide
  have otherName : (⟨"ID"⟩ : ColumnName) ≠ .rowtime := by decide
  obtain ⟨shown, sameType⟩ := type_flatten_of_declared declared found notValue
  refine ⟨declared, found, notValue, shown, sameType.mpr ?_⟩
  intro isRowtime
  exact absurd isRowtime otherName

/-- The name of the timestamp denotes a text, and when the schema is flattened a number. -/
theorem rowtime_retyped :
    Declared keyedByTime ∧ keyedByTime.find? .rowtime = some ⟨.rowtime, .string, .key⟩ ∧
      (∀ value ∈ keyedByTime.valueColumns, value.name ≠ .rowtime) ∧
      keyedByTime.flatten.find? .rowtime = some ⟨.rowtime, .bigint, .value⟩ :=
  ⟨declared_keyedByTime, by decide, by decide, by decide⟩

end StreamQuery.Schema
