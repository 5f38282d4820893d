import StreamQuery.Catalog
import StreamQuery.Proofs.Flattening
import StreamQuery.Stored.Source

/-! # Reading what was stored

A catalog entry is read from its stored form as it was. The members of the objects in that form may
stand in any order, so nothing is lost if the form is kept in a canonical order. A duration can be
stored with any number of nanoseconds; whole seconds among them are carried, and it is refused only
if its seconds become too many.
-/

set_option autoImplicit false

namespace StreamQuery

open Json (Value)

namespace Stored

/-- A change of values that at most puts the members of objects into another order. -/
structure Rearranges (form : Value → Value) : Prop where
  null : form .null = .null
  str : ∀ s, form (.str s) = .str s
  num : ∀ number, form (.num number) = .num number
  arr : ∀ items, form (.arr items) = .arr (items.map form)
  obj : ∀ members : List (String × Value), (members.map Prod.fst).Nodup →
    ∃ others, form (.obj members) = .obj others ∧
      others.Perm (members.map fun member => (member.1, form member.2))

theorem rearranges_id : Rearranges id where
  null := rfl
  str _ := rfl
  num _ := rfl
  arr items := by rw [List.map_id, id]
  obj members _ := ⟨members, rfl, by simp⟩

theorem rearranges_canonical : Rearranges Value.canonical where
  null := rfl
  str _ := rfl
  num _ := rfl
  arr items := by rw [Value.canonical, Value.canonicalItems_eq_map]
  obj members distinct := by
    refine ⟨_, by rw [Value.canonical], ?_⟩
    rw [Value.canonicalMembers_eq_map]
    apply Value.perm_sorted
    simpa [List.map_map, Function.comp_def] using distinct

theorem lookup_of_mem {members : List (String × Value)} (distinct : (members.map Prod.fst).Nodup)
    {member : String × Value} (isMember : member ∈ members) :
    members.lookup member.1 = some member.2 := by
  induction members with
  | nil => cases isMember
  | cons first rest ih =>
    rw [List.map_cons, List.nodup_cons] at distinct
    rcases List.mem_cons.mp isMember with rfl | later
    · exact List.lookup_cons_self
    · have different : member.1 ≠ first.1 := by
        intro equal
        exact distinct.1 (equal ▸ List.mem_map_of_mem later)
      rw [List.lookup_cons, beq_false_of_ne different]
      exact ih distinct.2 later

variable {form : Value → Value} {α : Type}

theorem Rearranges.exists_members (rearranges : Rearranges form) (value : Value)
    {members : List (String × Value)} (isObject : value = .obj members)
    (distinct : (members.map Prod.fst).Nodup) :
    ∃ others, form value = .obj others ∧
      ∀ member ∈ members, others.lookup member.1 = some (form member.2) := by
  subst isObject
  obtain ⟨others, isObject, permuted⟩ := rearranges.obj members distinct
  refine ⟨others, isObject, ?_⟩
  intro member isMember
  have keys : (others.map Prod.fst).Nodup := by
    rw [(permuted.map Prod.fst).nodup_iff]
    simpa [List.map_map, Function.comp_def] using distinct
  have isOther : (member.1, form member.2) ∈ others :=
    permuted.mem_iff.mpr (List.mem_map_of_mem isMember)
  exact lookup_of_mem keys isOther

/-! ## Alternatives, lists and optional fields -/

theorem oneOf?_form (rearranges : Rearranges form) {all : List α} {name : α → String}
    (injective : ∀ first ∈ all, ∀ second ∈ all, name first = name second → first = second)
    {choice : α} (listed : choice ∈ all) :
    oneOf? all name (form (.str (name choice))) = some choice := by
  rw [rearranges.str, oneOf?_str]
  cases found : all.find? fun other => name other = name choice with
  | none =>
    rw [List.find?_eq_none] at found
    exact absurd (decide_eq_true rfl) (found choice listed)
  | some other =>
    have same : name other = name choice := by simpa using List.find?_some found
    rw [injective other (List.mem_of_find?_eq_some found) choice listed same]

theorem list?_form (rearranges : Rearranges form) {read? : Value → Option α} {write : α → Value}
    (reads : ∀ value, read? (form (write value)) = some value) (values : List α) :
    list? read? (form (.arr (values.map write))) = some values := by
  rw [rearranges.arr, List.map_map]
  exact list?_arr reads values

theorem optionalField?_form (rearranges : Rearranges form) {read? : Value → Option α}
    {write : α → Value} (reads : ∀ value, read? (form (write value)) = some value)
    (notNull : read? .null = none) {members : List (String × Value)} {key : String}
    {value : Option α} (found : members.lookup key = some (form (optional write value))) :
    optionalField? read? key members = some value := by
  unfold optionalField?
  rw [found]
  cases value with
  | none => rw [optional, rearranges.null]
  | some value =>
    have read := reads value
    rw [optional]
    split
    · rename_i absent
      cases absent
    · rename_i isNull
      rw [Option.some.inj isNull, notNull] at read
      cases read
    · rename_i stored _ isStored
      rw [← Option.some.inj isStored, read]
      rfl

end Stored

open Stored (Rearranges)

variable {form : Value → Value}

/-! ## Names, columns and schemas -/

theorem SourceName.ofStored?_form (rearranges : Rearranges form) (name : SourceName) :
    ofStored? (form name.stored) = some name := by
  rw [stored, rearranges.str]
  rfl

theorem ColumnName.ofStored?_form (rearranges : Rearranges form) (name : ColumnName) :
    ofStored? (form name.stored) = some name := by
  rw [stored, rearranges.str]
  rfl

theorem SqlType.ofStored?_form (rearranges : Rearranges form) (type : SqlType) :
    ofStored? (form type.stored) = some type :=
  Stored.oneOf?_form rearranges (by decide) (by cases type <;> decide)

theorem Namespace.ofStored?_form (rearranges : Rearranges form) (home : Namespace) :
    ofStored? (form home.stored) = some home :=
  Stored.oneOf?_form rearranges (by decide) (by cases home <;> decide)

theorem Column.ofStored?_form (rearranges : Rearranges form) (column : Column) :
    ofStored? (form column.stored) = some column := by
  obtain ⟨members, isObject, found⟩ :=
    rearranges.exists_members column.stored rfl (by simp)
  simp only [List.forall_mem_cons] at found
  obtain ⟨name, type, home, _⟩ := found
  simp [ofStored?, isObject, Stored.members?, Stored.field?, name, type, home,
    ColumnName.ofStored?_form rearranges, SqlType.ofStored?_form rearranges,
    Namespace.ofStored?_form rearranges]

theorem Schema.ofStored?_form (rearranges : Rearranges form) (schema : Schema) :
    ofStored? (form schema.stored) = some schema := by
  obtain ⟨members, isObject, found⟩ :=
    rearranges.exists_members schema.stored rfl (by simp)
  simp only [List.forall_mem_cons] at found
  obtain ⟨metaColumns, keyColumns, valueColumns, _⟩ := found
  have columns := Stored.list?_form rearranges (Column.ofStored?_form rearranges)
  simp [ofStored?, isObject, Stored.members?, Stored.field?, metaColumns, keyColumns, valueColumns,
    columns]

/-! ## Durations -/

namespace Duration

theorem ofParts?_parts (d : Duration) : ofParts? d.seconds d.nanoseconds = some d := by
  obtain ⟨seconds, nanoseconds, seconds_lt, nanoseconds_lt⟩ := d
  have noCarry : nanoseconds / 1000000000 = 0 := Nat.div_eq_of_lt nanoseconds_lt
  have rest : nanoseconds % 1000000000 = nanoseconds := Nat.mod_eq_of_lt nanoseconds_lt
  simp [ofParts?, noCarry, rest, seconds_lt]

theorem exists_ofParts?_iff {seconds nanoseconds : Nat} :
    (∃ d, ofParts? seconds nanoseconds = some d) ↔
      seconds + nanoseconds / 1000000000 < UInt64.size := by
  unfold ofParts?
  split
  · rename_i inRange
    exact ⟨fun _ => inRange, fun _ => ⟨_, rfl⟩⟩
  · rename_i outOfRange
    simp [outOfRange]

theorem storedPart?_nat {bound part : Nat} (fits : part < bound) :
    storedPart? bound (Stored.nat part) = some part := by
  simp [storedPart?, Stored.nat, Value.nat?, fits]

theorem ofStored?_of_perm {members : List (String × Value)} {seconds nanoseconds : Nat}
    (secondsFit : seconds < UInt64.size) (nanosecondsFit : nanoseconds < UInt32.size)
    (permuted : members.Perm
      [("secs", Stored.nat seconds), ("nanos", Stored.nat nanoseconds)]) :
    ofStored? (.obj members) = ofParts? seconds nanoseconds := by
  have keys : (members.map Prod.fst).Perm fields := permuted.map Prod.fst
  have distinct : (members.map Prod.fst).Nodup := keys.nodup_iff.mpr (by decide)
  have found : ∀ member ∈ [("secs", Stored.nat seconds), ("nanos", Stored.nat nanoseconds)],
      members.lookup member.1 = some member.2 := by
    intro member isMember
    exact Stored.lookup_of_mem distinct (permuted.mem_iff.mpr isMember)
  simp only [List.forall_mem_cons] at found
  obtain ⟨isSeconds, isNanoseconds, _⟩ := found
  have noOthers : (members.all fun member => member.1 ∈ fields) = true := by
    rw [List.all_eq_true]
    intro member isMember
    exact decide_eq_true (keys.mem_iff.mp (List.mem_map_of_mem isMember))
  simp [ofStored?, Stored.members?, Stored.field?, isSeconds, isNanoseconds,
    storedPart?_nat secondsFit, storedPart?_nat nanosecondsFit, noOthers]

theorem ofStored?_form (rearranges : Rearranges form) (d : Duration) :
    ofStored? (form d.stored) = some d := by
  obtain ⟨members, isObject, permuted⟩ := rearranges.obj
    [("secs", Stored.nat d.seconds), ("nanos", Stored.nat d.nanoseconds)] (by simp)
  simp only [List.map_cons, List.map_nil, Stored.nat, rearranges.num] at permuted
  have nanosecondsFit : d.nanoseconds < UInt32.size :=
    Nat.lt_trans d.nanoseconds_lt (by decide)
  rw [stored, isObject, ofStored?_of_perm d.seconds_lt nanosecondsFit permuted]
  exact d.ofParts?_parts

end Duration

/-! ## Topics and sources -/

theorem Format.ofStored?_form (rearranges : Rearranges form) (format : Format) :
    ofStored? (form format.stored) = some format :=
  Stored.oneOf?_form rearranges (by decide) (by cases format <;> decide)

theorem WindowKind.ofStored?_form (rearranges : Rearranges form) (kind : WindowKind) :
    ofStored? (form kind.stored) = some kind :=
  Stored.oneOf?_form rearranges (by decide) (by cases kind <;> decide)

theorem KeyWindow.ofStored?_form (rearranges : Rearranges form) (window : KeyWindow) :
    ofStored? (form window.stored) = some window := by
  obtain ⟨members, isObject, found⟩ :=
    rearranges.exists_members window.stored rfl (by simp)
  simp only [List.forall_mem_cons] at found
  obtain ⟨kind, isSize, _⟩ := found
  have size := Stored.optionalField?_form rearranges (Duration.ofStored?_form rearranges) rfl isSize
  simp [ofStored?, isObject, Stored.members?, Stored.field?, kind, size,
    WindowKind.ofStored?_form rearranges]

theorem KeyFormat.ofStored?_form (rearranges : Rearranges form) (keyFormat : KeyFormat) :
    ofStored? (form keyFormat.stored) = some keyFormat := by
  obtain ⟨members, isObject, found⟩ :=
    rearranges.exists_members keyFormat.stored rfl (by simp)
  simp only [List.forall_mem_cons] at found
  obtain ⟨format, isWindow, _⟩ := found
  have window :=
    Stored.optionalField?_form rearranges (KeyWindow.ofStored?_form rearranges) rfl isWindow
  simp [ofStored?, isObject, Stored.members?, Stored.field?, format, window,
    Format.ofStored?_form rearranges]

theorem ValueFormat.ofStored?_form (rearranges : Rearranges form) (valueFormat : ValueFormat) :
    ofStored? (form valueFormat.stored) = some valueFormat := by
  obtain ⟨members, isObject, found⟩ :=
    rearranges.exists_members valueFormat.stored rfl (by simp)
  simp only [List.forall_mem_cons] at found
  obtain ⟨format, _⟩ := found
  simp [ofStored?, isObject, Stored.members?, Stored.field?, format,
    Format.ofStored?_form rearranges]

theorem Topic.ofStored?_form (rearranges : Rearranges form) (topic : Topic) :
    ofStored? (form topic.stored) = some topic := by
  obtain ⟨members, isObject, found⟩ :=
    rearranges.exists_members topic.stored rfl (by simp)
  simp only [List.forall_mem_cons] at found
  obtain ⟨name, keyFormat, valueFormat, _⟩ := found
  simp [ofStored?, isObject, Stored.members?, Stored.field?, name, keyFormat, valueFormat,
    rearranges.str, Value.string?, KeyFormat.ofStored?_form rearranges,
    ValueFormat.ofStored?_form rearranges]

theorem SourceKind.ofStored?_form (rearranges : Rearranges form) (kind : SourceKind) :
    ofStored? (form kind.stored) = some kind :=
  Stored.oneOf?_form rearranges (by decide) (by cases kind <;> decide)

theorem Source.ofStored?_form (rearranges : Rearranges form) (source : Source) :
    ofStored? (form source.stored) = some source := by
  obtain ⟨members, isObject, found⟩ :=
    rearranges.exists_members source.stored rfl (by simp)
  simp only [List.forall_mem_cons] at found
  obtain ⟨name, kind, schema, topic, _⟩ := found
  simp [ofStored?, isObject, Stored.members?, Stored.field?, name, kind, schema, topic,
    SourceName.ofStored?_form rearranges, SourceKind.ofStored?_form rearranges,
    Schema.ofStored?_form rearranges, Topic.ofStored?_form rearranges]

/-! ## Windows with a size -/

namespace KeyWindow

/-- A stored window of some kind, its size given in seconds and nanoseconds. -/
inductive Sized : Value → WindowKind → Nat → Nat → Prop where
  | obj {members size : List (String × Value)} {kind : WindowKind} {seconds nanoseconds : Nat}
      (isKind : members.lookup "window_type" = some kind.stored)
      (isSize : members.lookup "size" = some (.obj size))
      (parts : size.Perm [("secs", Stored.nat seconds), ("nanos", Stored.nat nanoseconds)]) :
      Sized (.obj members) kind seconds nanoseconds

theorem ofStored?_sized {value : Value} {kind : WindowKind} {seconds nanoseconds : Nat}
    (sized : Sized value kind seconds nanoseconds) (secondsFit : seconds < UInt64.size)
    (nanosecondsFit : nanoseconds < UInt32.size) :
    ofStored? value = (Duration.ofParts? seconds nanoseconds).map fun d => ⟨kind, some d⟩ := by
  cases sized with
  | obj isKind isSize parts =>
    have isRead := Duration.ofStored?_of_perm secondsFit nanosecondsFit parts
    have kindRead := WindowKind.ofStored?_form Stored.rearranges_id kind
    rw [id] at kindRead
    simp only [ofStored?, Stored.members?, Stored.field?, Stored.optionalField?, isKind, isSize,
      isRead, kindRead, Option.bind_eq_bind, Option.bind_some]
    cases Duration.ofParts? seconds nanoseconds <;> rfl

end KeyWindow

/-- What is stored of a source is read as that source, as it was written or in canonical form; so is
what is stored of a source that was itself read from any value. A window with a size is accepted unless
the seconds of the size become too many, and then it has the size that was given. -/
theorem Source.stored_lossless :
    (∀ source : Source, ofStored? source.stored = some source ∧
      ofStored? source.stored.canonical = some source) ∧
    (∀ value source, ofStored? value = some source →
      ofStored? source.stored = some source ∧ ofStored? source.stored.canonical = some source) ∧
    ∀ value kind seconds nanoseconds, KeyWindow.Sized value kind seconds nanoseconds →
      seconds < UInt64.size → nanoseconds < UInt32.size →
        ((∃ window, KeyWindow.ofStored? value = some window) ↔
          seconds + nanoseconds / 1000000000 < UInt64.size) ∧
        ∀ window, KeyWindow.ofStored? value = some window →
          ∃ d, window = ⟨kind, some d⟩ ∧
            d.toNanoseconds = seconds * 1000000000 + nanoseconds ∧ d.nanoseconds < 1000000000 := by
  have readBack : ∀ source : Source, ofStored? source.stored = some source ∧
      ofStored? source.stored.canonical = some source := by
    intro source
    exact ⟨source.ofStored?_form Stored.rearranges_id,
      source.ofStored?_form Stored.rearranges_canonical⟩
  refine ⟨readBack, fun _ source _ => readBack source, ?_⟩
  intro value kind seconds nanoseconds sized secondsFit nanosecondsFit
  have isRead := KeyWindow.ofStored?_sized sized secondsFit nanosecondsFit
  constructor
  · rw [← Duration.exists_ofParts?_iff, isRead]
    simp only [← Option.isSome_iff_exists, Option.isSome_map]
  · intro window accepted
    rw [isRead, Option.map_eq_some_iff] at accepted
    obtain ⟨d, isSize, rfl⟩ := accepted
    exact ⟨d, rfl, Duration.toNanoseconds_of_ofParts? isSize, d.nanoseconds_lt⟩

/-- One second too many, carried from the nanoseconds. -/
example :
    KeyWindow.ofStored? (.arr [WindowKind.session.stored,
      .arr [Stored.nat 18446744073709551615, Stored.nat 1000000000]]) = none := by
  rfl

/-- A window of a minute, the last second of which is given in nanoseconds. -/
def minuteWindow : Value :=
  .obj [("size", .obj [("nanos", Stored.nat 1000000000), ("secs", Stored.nat 59)]),
    ("window_type", WindowKind.tumbling.stored)]

/-- A stored table of a column that occurs twice, with fields that are not known. -/
def storedVisits : Value :=
  let column := .obj [("name", .str "Page"), ("namespace", .str "Key"), ("sql_type", .str "String")]
  .obj [("comment", .null), ("name", .str "visits"), ("source_type", .str "Table"),
    ("schema", .arr [.arr [], .arr [column, column], .arr []]),
    ("topic", .obj [("kafka_topic_name", .str "visits"),
      ("key_format", .obj [("format", .str "Kafka"), ("window", minuteWindow)]),
      ("value_format", .obj [("format", .obj [("Json", .null)])])])]

theorem stored_lossless_visits :
    ∃ visits, Source.ofStored? storedVisits = some visits ∧
      Source.ofStored? visits.stored = some visits ∧
      KeyWindow.Sized minuteWindow .tumbling 59 1000000000 ∧
      ∃ window, KeyWindow.ofStored? minuteWindow = some window ∧
        ∃ d, window = ⟨.tumbling, some d⟩ ∧ d.toNanoseconds = 60000000000 := by
  obtain ⟨_, readAgain, ofWindows⟩ := Source.stored_lossless
  have isRead : Source.ofStored? storedVisits = some _ := rfl
  have sized : KeyWindow.Sized minuteWindow .tumbling 59 1000000000 :=
    .obj rfl rfl (.swap _ _ _)
  obtain ⟨accepted, isSize⟩ := ofWindows _ _ _ _ sized (by decide) (by decide)
  obtain ⟨window, isWindow⟩ := accepted.mpr (by decide)
  obtain ⟨d, isWhole, length, _⟩ := isSize window isWindow
  exact ⟨_, isRead, (readAgain _ _ isRead).1, sized, window, isWindow, d, isWhole, length⟩

/-! ## Names of stored sources

A name in a query is folded to upper case, but a stored name is read as it stands. So a source that was
read from its stored form can be reached through a catalog, in any spelling of its name, exactly if its
name is stored in upper case; and a column of it is found exactly if some column has the upper-case
name.
-/

theorem Catalog.source?_register_eq_some_iff {catalog : Catalog} {source : Source}
    {name : SourceName} :
    (catalog.register source).source? name = some source ↔ name = source.name := by
  constructor
  · intro found
    exact (Catalog.name_of_source? found).symm
  · intro named
    rw [Catalog.source?_register, if_pos named]

namespace Source

theorem name_of_ofStored? {value : Value} {source : Source}
    (read : ofStored? value = some source) :
    ∃ members, Stored.members? fields value = some members ∧
      members.lookup "name" = some (.str source.name.text) := by
  simp only [ofStored?, Option.bind_eq_bind, Option.bind_eq_some_iff, Stored.field?,
    SourceName.ofStored?, Option.map_eq_some_iff, Value.string?_eq_some_iff,
    Option.some.injEq] at read
  obtain ⟨members, isObject, _, ⟨_, isName, _, rfl, rfl⟩, _, _, _, _, _, _, rfl⟩ := read
  exact ⟨members, isObject, isName⟩

/-- Whatever the spelling of its name, a source that was read from a stored form is reached exactly if
the stored name is in upper case. Whatever the spelling, a column of it is found exactly if there is
one with the upper-case name. -/
theorem reached_iff_storedInUpperCase {value : Value} {source : Source}
    (read : ofStored? value = some source) (catalog : Catalog) :
    (∃ members, Stored.members? fields value = some members ∧
      members.lookup "name" = some (.str source.name.text)) ∧
    (∀ spelling, Text.upper spelling = Text.upper source.name.text →
      ((catalog.register source).source? (.ofString spelling) = some source ↔
        Text.upper source.name.text = source.name.text)) ∧
    ∀ column ∈ source.schema.columns,
      ∀ spelling, Text.upper spelling = Text.upper column.name.text →
        ((source.schema.find? (.ofString spelling)).isSome ↔
          ∃ other ∈ source.schema.columns, other.name.text = Text.upper column.name.text) := by
  refine ⟨name_of_ofStored? read, ?_, ?_⟩
  · intro spelling same
    rw [Catalog.source?_register_eq_some_iff, SourceName.ext_iff, SourceName.text_ofString, same]
  · intro column _ spelling same
    rw [Schema.find?_isSome_iff]
    simp only [ColumnName.ext_iff, ColumnName.text_ofString, same]

def storedStream (name column : String) : Value :=
  let plain := .obj [("format", .str "Json")]
  .obj [("name", .str name), ("source_type", .str "Stream"),
    ("schema", .obj [("meta", .arr []), ("key", .arr []),
      ("value", .arr [.obj [("name", .str column), ("sql_type", .str "BigInt"),
        ("namespace", .str "Value")]])]),
    ("topic", .obj [("kafka_topic_name", .str "orders"), ("key_format", plain),
      ("value_format", plain)])]

theorem reached_orders :
    ∃ orders, ofStored? (storedStream "ORDERS" "id") = some orders ∧
      (Catalog.empty.register orders).source? (.ofString "Orders") = some orders ∧
      ¬(orders.schema.find? (.ofString "Id")).isSome := by
  have read : ofStored? (storedStream "ORDERS" "id") = some _ := rfl
  obtain ⟨_, reached, found⟩ := reached_iff_storedInUpperCase read Catalog.empty
  have foundInCapitals := found _ List.mem_cons_self "Id" (by decide +kernel)
  refine ⟨_, read, (reached "Orders" (by decide +kernel)).mpr (by decide +kernel), ?_⟩
  rw [foundInCapitals]
  decide +kernel

/-- A stream that is stored under a name in lower case is not reached under this name, nor is its
column found under the name of the column. -/
theorem unreached_of_lowerCase :
    ∃ orders, ofStored? (storedStream "orders" "id") = some orders ∧
      (Catalog.empty.register orders).source? (.ofString orders.name.text) = none ∧
      ∃ column ∈ orders.schema.columns,
        orders.schema.find? (.ofString column.name.text) = none := by
  have read : ofStored? (storedStream "orders" "id") = some _ := rfl
  exact ⟨_, read, rfl, _, List.mem_cons_self, rfl⟩

end Source

end StreamQuery
