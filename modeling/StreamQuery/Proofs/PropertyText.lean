import StreamQuery.Proofs.JsonText
import StreamQuery.Proofs.PropertyPairs

/-! # Properties as text

Properties are written as one JSON object with a member for each of them. Reading this text gives
the same properties back, in the same order: their keys are in upper case already, no key comes
twice, and every value has the shape that belongs to its key.
-/

set_option autoImplicit false

namespace StreamQuery

open Json (Value)

/-! ## Values of properties -/

theorem plain_of_wellShaped {key : String} {value : Value} (shaped : WellShaped key value)
    (depth : Nat) : Json.Plain depth value := by
  cases shaped with
  | topic => exact .str _
  | valueFormat => exact .str _
  | partitions positive fits => exact .natural (Nat.lt_of_le_of_lt fits (by decide))
  | replicas positive fits => exact .natural (Nat.lt_of_le_of_lt fits (by decide))
  | timestamp => exact .str _
  | timestampFormat => exact .str _
  | wrapSingleValue => exact .bool _

theorem canonical_of_wellShaped {key : String} {value : Value} (shaped : WellShaped key value) :
    value.canonical = value := by
  cases shaped <;> rfl

theorem canonicalMembers_of_wellShaped {members : List (String × Value)}
    (shaped : ∀ member ∈ members, WellShaped (Text.upper member.1) member.2) :
    Value.canonicalMembers members = members := by
  induction members with
  | nil => rfl
  | cons member rest ih =>
    obtain ⟨first, others⟩ := List.forall_mem_cons.mp shaped
    rw [Value.canonicalMembers, canonical_of_wellShaped first, ih others]

theorem readObject?_text_of_wellShaped {members : List (String × Value)}
    (shaped : ∀ member ∈ members, WellShaped (Text.upper member.1) member.2) :
    Json.readObject? (Value.obj members).text = some (members, []) :=
  Json.readObject?_text (.obj fun member isMember => plain_of_wellShaped (shaped member isMember) _)

theorem Property.upper_key (property : Property) : Text.upper property.key = property.key := by
  apply Text.upper_of_lt
  cases property <;> simp only [Property.key] <;> decide

namespace Properties

theorem wellShaped_of_mem_toPairs {properties : Properties} {pair : String × Value}
    (isPair : pair ∈ properties.toPairs) : WellShaped (Text.upper pair.1) pair.2 := by
  obtain ⟨property, _, rfl⟩ := List.mem_map.mp isPair
  rw [property.upper_key]
  exact property.wellShaped_key_value

theorem ofPairs_toPairs (properties : Properties) :
    ofPairs properties.toPairs = .ok properties := by
  refine insertPairs_eq_ok_iff.mpr ⟨properties.entries.toList, ?_, ?_⟩
  · simp only [toPairs, inUpperCase, List.map_map, Function.comp_def, Property.upper_key]
  · apply Roster.ext
    exact (Roster.toList_ofList properties.entries.nodup_keys).symm

theorem lastOfEach_of_nodup {pairs : List (String × Value)}
    (distinct : (pairs.map Prod.fst).Nodup) : lastOfEach pairs = pairs :=
  Roster.toList_ofList distinct

theorem ofText_eq_ok_iff {s : String} {members : List (String × Value)} {rest : List Char}
    (isObject : Json.readObject? s = some (members, rest))
    (alone : (Json.skipBlanks rest).isEmpty = true)
    (shaped : ∀ member ∈ members, WellShaped (Text.upper member.1) member.2)
    {properties : Properties} :
    ofText s = .ok properties ↔ ofPairs (lastOfEach members) = .ok properties := by
  simp only [ofText, isObject, canonicalMembers_of_wellShaped shaped, if_pos alone]
  cases ofPairs (lastOfEach members) <;> simp

/-- Written properties are read as the same properties. -/
theorem ofText_text (properties : Properties) : ofText properties.value.text = .ok properties := by
  have shaped : ∀ pair ∈ properties.toPairs, WellShaped (Text.upper pair.1) pair.2 :=
    fun _ => wellShaped_of_mem_toPairs
  have distinct : (properties.toPairs.map Prod.fst).Nodup := by
    rw [toPairs, List.map_map]
    exact properties.entries.nodup_keys
  rw [value, ofText_eq_ok_iff (readObject?_text_of_wellShaped shaped) rfl shaped,
    lastOfEach_of_nodup distinct]
  exact properties.ofPairs_toPairs

end Properties

/-! ## Keys in several spellings

A text may spell a key in several ways, which differ in the case of letters only. The object is read
in the order of its text, or it is made into a value first, whose members are in ascending order.
Either way each spelling has its last value, and the key takes the value of the last spelling; but
the spellings stand in the order of their first members in the one case and in ascending order in
the other. Where these orders agree, so do the properties.
-/

/-- The spellings of a key, which is given in upper case, in the order of their first members. -/
def spellings (members : List (String × Value)) (key : String) : List String :=
  (members.map Prod.fst).eraseDups.filter fun spelling => Text.upper spelling = key

def lastSpelled? (members : List (String × Value)) (spelling : String) : Option Value :=
  ((members.filter fun member => member.1 = spelling).getLast?).map Prod.snd

/-- Each of the pairs is the last member of its spelling. -/
def LastSpelled (pairs members : List (String × Value)) : Prop :=
  ∀ pair ∈ pairs, (members.filter fun member => member.1 = pair.1).getLast? = some pair

variable {members pairs : List (String × Value)} {s : String} {rest : List Char}

theorem exists_lastSpelled?_iff {spelling : String} :
    (∃ value, lastSpelled? members spelling = some value) ↔ spelling ∈ members.map Prod.fst := by
  rw [← Option.isSome_iff_exists]
  simp [lastSpelled?]

theorem bind_lastSpelled?_eq_none_iff {found : List String} {key : String}
    (spelled : ∀ spelling ∈ found, spelling ∈ spellings members key) :
    found.getLast?.bind (lastSpelled? members) = none ↔ found = [] := by
  cases isLast : found.getLast? with
  | none => simpa using isLast
  | some spelling =>
    have isMember := (List.mem_filter.mp (spelled spelling (List.mem_of_getLast? isLast))).1
    obtain ⟨value, isValue⟩ := exists_lastSpelled?_iff.mpr (List.mem_eraseDups.mp isMember)
    have some : found ≠ [] := by
      rintro rfl
      cases isLast
    simp [isValue, some]

namespace LastSpelled

theorem wellShaped (last : LastSpelled pairs members)
    (shaped : ∀ member ∈ members, WellShaped (Text.upper member.1) member.2) :
    ∀ pair ∈ pairs, WellShaped (Text.upper pair.1) pair.2 := by
  intro pair isPair
  have isMember := List.mem_of_getLast? (last pair isPair)
  exact shaped pair (List.mem_filter.mp isMember).1

theorem lastValue?_eq (last : LastSpelled pairs members) (key : String) :
    lastValue? pairs key =
      ((pairs.map Prod.fst).filter fun spelling => Text.upper spelling = key).getLast?.bind
        (lastSpelled? members) := by
  rw [lastValue?, List.filter_map, List.getLast?_map]
  cases isLast : (pairs.filter fun pair => Text.upper pair.1 = key).getLast? with
  | none => simp [Function.comp_def, isLast]
  | some pair =>
    have isPair := (List.mem_filter.mp (List.mem_of_getLast? isLast)).1
    simp [Function.comp_def, isLast, lastSpelled?, last pair isPair]

theorem exists_ofPairs (last : LastSpelled pairs members)
    (shaped : ∀ member ∈ members, WellShaped (Text.upper member.1) member.2) :
    ∃ properties, Properties.ofPairs pairs = .ok properties ∧ ∀ key, properties.get? key =
      ((pairs.map Prod.fst).filter fun spelling =>
        Text.upper spelling = Text.upper key).getLast?.bind (lastSpelled? members) := by
  obtain ⟨properties, read⟩ := Properties.exists_insertPairs_iff.mpr (last.wellShaped shaped)
  refine ⟨properties, read, ?_⟩
  intro key
  rw [(Properties.hold_of_ofPairs read).get, last.lastValue?_eq]

end LastSpelled

namespace Properties

theorem lastSpelled_lastOfEach (members : List (String × Value)) :
    LastSpelled (lastOfEach members) members := by
  intro pair isPair
  rw [← Roster.get?_ofList]
  exact Roster.get?_eq_some_iff.mpr ⟨isPair, rfl⟩

theorem lastSpelled_sorted (members : List (String × Value)) :
    LastSpelled (Value.sorted members) members := by
  intro pair isPair
  have distinct := Text.nodup_of_pairwise (Value.pairwise_keys_sorted members)
  rw [← Value.find?_sorted]
  exact Roster.find?_key_of_mem distinct isPair

theorem keys_lastOfEach (members : List (String × Value)) :
    (lastOfEach members).map Prod.fst = (members.map Prod.fst).eraseDups :=
  Roster.keys_ofList members

theorem exists_ofText (isObject : Json.readObject? s = some (members, rest))
    (alone : (Json.skipBlanks rest).isEmpty = true)
    (shaped : ∀ member ∈ members, WellShaped (Text.upper member.1) member.2) :
    ∃ properties, ofText s = .ok properties ∧ ∀ key, properties.get? key =
      (spellings members (Text.upper key)).getLast?.bind (lastSpelled? members) := by
  obtain ⟨properties, read, found⟩ := (lastSpelled_lastOfEach members).exists_ofPairs shaped
  rw [keys_lastOfEach] at found
  exact ⟨properties, (ofText_eq_ok_iff isObject alone shaped).mpr read, found⟩

theorem exists_ofValue (isObject : Json.readObject? s = some (members, rest))
    (alone : (Json.skipBlanks rest).isEmpty = true)
    (shaped : ∀ member ∈ members, WellShaped (Text.upper member.1) member.2) :
    ∃ value properties, Json.read? Json.depthLimit s = some value ∧ ofValue value = .ok properties ∧
      ∀ key, properties.get? key =
        (Text.ascending (spellings members (Text.upper key))).getLast?.bind
          (lastSpelled? members) := by
  obtain ⟨properties, read, found⟩ := (lastSpelled_sorted members).exists_ofPairs shaped
  have isValue : Json.read? Json.depthLimit s = some (.obj (Value.sorted members)) := by
    rw [Json.read?, Json.readObject?_eq_some_iff.mp isObject]
    simp only [alone, if_true, Value.canonical, canonicalMembers_of_wellShaped shaped]
  refine ⟨_, properties, isValue, read, ?_⟩
  intro key
  -- A value has its members sorted by spelling, so of the spellings of a key the greatest is the last.
  have isAscending := (Text.pairwise_ascending (members.map Prod.fst)).filter
    fun spelling => Text.upper spelling = Text.upper key
  have same : ((Value.sorted members).map Prod.fst).filter
      (fun spelling => Text.upper spelling = Text.upper key) =
        Text.ascending (spellings members (Text.upper key)) := by
    rw [Value.keys_sorted]
    apply Text.eq_ascending isAscending
    intro spelling
    simp only [spellings, List.mem_filter, Text.mem_ascending, List.mem_eraseDups]
  rw [found, same]

/-- For a text that holds well-shaped properties only, both readings succeed and give the same keys.
Each key takes the last value of one of its spellings: in the one case of the spelling that turns up
last, in the other of the greatest. -/
theorem ofText_ofValue_by_spelling (isObject : Json.readObject? s = some (members, rest))
    (alone : (Json.skipBlanks rest).isEmpty = true)
    (shaped : ∀ member ∈ members, WellShaped (Text.upper member.1) member.2) :
    ∃ value fromText fromValue, Json.read? Json.depthLimit s = some value ∧
      ofText s = .ok fromText ∧ ofValue value = .ok fromValue ∧ ∀ key,
        fromText.get? key =
          (spellings members (Text.upper key)).getLast?.bind (lastSpelled? members) ∧
        fromValue.get? key =
          (Text.ascending (spellings members (Text.upper key))).getLast?.bind
            (lastSpelled? members) ∧
        (fromText.get? key = .none ↔ fromValue.get? key = .none) ∧
        ((spellings members (Text.upper key)).Pairwise (· < ·) →
          fromText.get? key = fromValue.get? key) := by
  obtain ⟨fromText, isText, inText⟩ := exists_ofText isObject alone shaped
  obtain ⟨value, fromValue, isValue, read, inValue⟩ := exists_ofValue isObject alone shaped
  refine ⟨value, fromText, fromValue, isValue, isText, read, ?_⟩
  intro key
  refine ⟨inText key, inValue key, ?_, ?_⟩
  · rw [inText, inValue, bind_lastSpelled?_eq_none_iff fun _ => id,
      bind_lastSpelled?_eq_none_iff fun _ => Text.mem_ascending.mp]
    simp only [List.eq_nil_iff_forall_not_mem, Text.mem_ascending]
  · intro inOrder
    rw [inText, inValue, ← Text.eq_ascending inOrder fun _ => Iff.rfl]

def spelledTwice : List (String × Value) :=
  [("partitions", .num (.int 1)), ("PARTITIONS", .num (.int 2))]

def respelled : List (String × Value) :=
  spelledTwice ++ [("Timestamp", .str "ts"), ("partitions", .num (.int 3))]

theorem upper_keys_respelled : Text.upper "partitions" = "PARTITIONS" ∧
    Text.upper "PARTITIONS" = "PARTITIONS" ∧ Text.upper "Timestamp" = "TIMESTAMP" :=
  ⟨by decide, Text.upper_of_lt (by decide), by decide⟩

theorem wellShaped_respelled :
    ∀ member ∈ respelled, WellShaped (Text.upper member.1) member.2 := by
  obtain ⟨small, large, column⟩ := upper_keys_respelled
  have named : 't' ∈ "ts".toList := by decide
  have count (n : Nat) (positive : 1 ≤ n) (fits : n ≤ 0xFFFFFFFF) :
      WellShaped "PARTITIONS" (.num (.int n)) := .partitions positive fits
  simp only [respelled, spelledTwice, List.cons_append, List.nil_append, List.forall_mem_cons,
    small, large, column]
  exact ⟨count 1 (by decide) (by decide), count 2 (by decide) (by decide),
    .timestamp named (by decide), count 3 (by decide) (by decide), nofun⟩

theorem respelled_by_spelling :
    Json.readObject? (Value.obj respelled).text = some (respelled, []) ∧
      (∀ member ∈ respelled, WellShaped (Text.upper member.1) member.2) ∧
      ∃ value fromText fromValue,
        Json.read? Json.depthLimit (Value.obj respelled).text = some value ∧
        ofText (Value.obj respelled).text = .ok fromText ∧ ofValue value = .ok fromValue ∧
        fromText.get? "PARTITIONS" = some (.num (.int 2)) ∧
        fromValue.get? "PARTITIONS" = some (.num (.int 3)) ∧
        fromText.get? "Timestamp" = fromValue.get? "Timestamp" := by
  obtain ⟨small, large, column⟩ := upper_keys_respelled
  have shaped := wellShaped_respelled
  have isObject := readObject?_text_of_wellShaped shaped
  obtain ⟨value, fromText, fromValue, isValue, isText, read, found⟩ :=
    ofText_ofValue_by_spelling isObject rfl shaped
  have twice : spellings respelled (Text.upper "PARTITIONS") = ["partitions", "PARTITIONS"] := by
    simp [spellings, respelled, spelledTwice, List.eraseDups_cons, small, large, column]
  have once : spellings respelled (Text.upper "Timestamp") = ["Timestamp"] := by
    simp [spellings, respelled, spelledTwice, List.eraseDups_cons, small, large, column]
  have inOrder : Text.ascending ["partitions", "PARTITIONS"] = ["PARTITIONS", "partitions"] := by
    decide
  refine ⟨isObject, shaped, value, fromText, fromValue, isValue, isText, read, ?_, ?_, ?_⟩
  · rw [(found "PARTITIONS").1, twice]
    rfl
  · rw [(found "PARTITIONS").2.1, twice, inOrder]
    rfl
  · apply (found "Timestamp").2.2.2
    rw [once]
    exact List.pairwise_singleton _ _

theorem text_spelledTwice :
    (Value.obj spelledTwice).text = "\x7b\"partitions\":1,\"PARTITIONS\":2\x7d" := by
  apply String.toList_injective
  rw [Json.toList_text_obj]
  decide

/-- The text of the two members and the value of this text are read differently. -/
theorem spelledTwice_read_differently :
    ∃ value fromText fromValue,
      Json.readObject? "\x7b\"partitions\":1,\"PARTITIONS\":2\x7d" = some (spelledTwice, []) ∧
      (∀ member ∈ spelledTwice, WellShaped (Text.upper member.1) member.2) ∧
      Json.read? Json.depthLimit "\x7b\"partitions\":1,\"PARTITIONS\":2\x7d" = some value ∧
      ofText "\x7b\"partitions\":1,\"PARTITIONS\":2\x7d" = .ok fromText ∧
      ofValue value = .ok fromValue ∧
      fromText.get? "PARTITIONS" = some (.num (.int 2)) ∧
      fromValue.get? "PARTITIONS" = some (.num (.int 1)) := by
  obtain ⟨small, large, _⟩ := upper_keys_respelled
  have shaped : ∀ member ∈ spelledTwice, WellShaped (Text.upper member.1) member.2 :=
    fun member isMember => wellShaped_respelled member (List.mem_append_left _ isMember)
  have isObject := readObject?_text_of_wellShaped shaped
  rw [text_spelledTwice] at isObject
  obtain ⟨fromText, isText, inText⟩ := exists_ofText isObject rfl shaped
  obtain ⟨value, fromValue, isValue, read, inValue⟩ := exists_ofValue isObject rfl shaped
  have twice : spellings spelledTwice (Text.upper "PARTITIONS") = ["partitions", "PARTITIONS"] := by
    simp [spellings, spelledTwice, List.eraseDups_cons, small, large]
  have inOrder : Text.ascending ["partitions", "PARTITIONS"] = ["PARTITIONS", "partitions"] := by
    decide
  refine ⟨value, fromText, fromValue, isObject, shaped, isValue, isText, read, ?_, ?_⟩
  · rw [inText, twice]
    rfl
  · rw [inValue, twice, inOrder]
    rfl

end Properties

end StreamQuery
