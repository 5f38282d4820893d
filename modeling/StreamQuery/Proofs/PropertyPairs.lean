import StreamQuery.Analysis.Scope
import StreamQuery.Proofs.Outcome
import StreamQuery.Sink

/-! # Reading a list of properties

A list of pairs is accepted exactly if each of its pairs has a known key and a value of the shape that
belongs to the key; this goes for pairs that a later one replaces, too. Otherwise the first pair that
is not of this kind is blamed. An accepted list gives one entry for each key, in the order in which the
keys come first and with the value that comes last, and what is asked of the properties is read from
these values without loss.
-/

set_option autoImplicit false

namespace StreamQuery

open Json (Value)

/-- The values of each property, by its key in upper case. -/
inductive WellShaped : String → Value → Prop where
  | topic {name : String} (size : 1 ≤ name.length ∧ name.length ≤ 249)
      (letters : ∀ c ∈ name.toList, ('A' ≤ c ∧ c ≤ 'Z') ∨ ('a' ≤ c ∧ c ≤ 'z') ∨
        ('0' ≤ c ∧ c ≤ '9') ∨ c = '.' ∨ c = '_' ∨ c = '-')
      (notHere : name ≠ ".") (notAbove : name ≠ "..") : WellShaped "KAFKA_TOPIC" (.str name)
  | valueFormat {spelling : String} {format : Format} (spells : Text.upper spelling = format.text) :
      WellShaped "VALUE_FORMAT" (.str spelling)
  | partitions {count : Nat} (positive : 1 ≤ count) (fits : count ≤ 0xFFFFFFFF) :
      WellShaped "PARTITIONS" (.num (.int count))
  | replicas {count : Nat} (positive : 1 ≤ count) (fits : count ≤ 0xFFFF) :
      WellShaped "REPLICAS" (.num (.int count))
  | timestamp {column : String} {c : Char} (isChar : c ∈ column.toList)
      (visible : Text.isBlank c = false) : WellShaped "TIMESTAMP" (.str column)
  | timestampFormat (pattern : String) : WellShaped "TIMESTAMP_FORMAT" (.str pattern)
  | wrapSingleValue (wrap : Bool) : WellShaped "WRAP_SINGLE_VALUE" (.bool wrap)

/-! ## One property -/

theorem isTopicChar_iff {c : Char} :
    isTopicChar c = true ↔ ('A' ≤ c ∧ c ≤ 'Z') ∨ ('a' ≤ c ∧ c ≤ 'z') ∨ ('0' ≤ c ∧ c ≤ '9') ∨
      c = '.' ∨ c = '_' ∨ c = '-' := by
  have upper : c.isUpper = true ↔ 'A' ≤ c ∧ c ≤ 'Z' := decide_eq_true_iff
  have lower : c.isLower = true ↔ 'a' ≤ c ∧ c ≤ 'z' :=
    Bool.and_eq_true_iff.trans (and_congr decide_eq_true_iff decide_eq_true_iff)
  have digit : c.isDigit = true ↔ '0' ≤ c ∧ c ≤ '9' :=
    Bool.and_eq_true_iff.trans (and_congr decide_eq_true_iff decide_eq_true_iff)
  have classes : isTopicChar c =
      (c.isUpper || c.isLower || c.isDigit || c == '.' || c == '_' || c == '-') := rfl
  simp only [classes, Bool.or_eq_true, upper, lower, digit, beq_iff_eq, or_assoc]

theorem isTopicName_iff {name : String} :
    isTopicName name = true ↔ (1 ≤ name.length ∧ name.length ≤ 249) ∧
      (∀ c ∈ name.toList, isTopicChar c = true) ∧ name ≠ "." ∧ name ≠ ".." := by
  simp [isTopicName, and_assoc]

namespace Property

variable {key : String} {value : Value} {property : Property}

theorem stringOf_eq_ok_iff {s : String} : stringOf value = .ok s ↔ value = .str s := by
  rw [← Value.string?_eq_some_iff, stringOf]
  cases value.string? <;> simp

theorem ofValue_eq_ok_iff :
    ofValue key value = .ok property ↔ property.key = key ∧ property.value = value := by
  constructor
  · intro accepted
    unfold ofValue at accepted
    split at accepted
    · obtain ⟨name, isName, accepted⟩ := bind_eq_ok_iff.mp accepted
      split at accepted
      · cases accepted
        exact ⟨rfl, (stringOf_eq_ok_iff.mp isName).symm⟩
      · cases accepted
    · obtain ⟨spelling, isSpelling, accepted⟩ := bind_eq_ok_iff.mp accepted
      split at accepted
      · cases accepted
        exact ⟨rfl, (stringOf_eq_ok_iff.mp isSpelling).symm⟩
      · cases accepted
    · split at accepted
      · rename_i count isCount
        split at accepted
        · cases accepted
          exact ⟨rfl, (Value.nat?_eq_some_iff.mp isCount).symm⟩
        · cases accepted
      · cases accepted
    · split at accepted
      · rename_i count isCount
        split at accepted
        · cases accepted
          exact ⟨rfl, (Value.nat?_eq_some_iff.mp isCount).symm⟩
        · cases accepted
      · cases accepted
    · split at accepted
      · rename_i column isColumn
        split at accepted
        · cases accepted
          exact ⟨rfl, (Value.string?_eq_some_iff.mp isColumn).symm⟩
        · cases accepted
      · cases accepted
    · obtain ⟨pattern, isPattern, accepted⟩ := bind_eq_ok_iff.mp accepted
      cases accepted
      exact ⟨rfl, (stringOf_eq_ok_iff.mp isPattern).symm⟩
    · split at accepted
      · rename_i wrap isWrap
        cases accepted
        exact ⟨rfl, (Value.bool?_eq_some_iff.mp isWrap).symm⟩
      · cases accepted
    · cases accepted
  · rintro ⟨rfl, rfl⟩
    exact ofValue_key_value property

theorem wellShaped_key_value (property : Property) : WellShaped property.key property.value := by
  cases property with
  | topic name legal =>
    obtain ⟨size, letters, notHere, notAbove⟩ := isTopicName_iff.mp legal
    exact .topic size (fun c isChar => isTopicChar_iff.mp (letters c isChar)) notHere notAbove
  | valueFormat spelling format spells =>
    exact .valueFormat (Format.ofString?_eq_some_iff.mp spells)
  | partitions count inRange =>
    exact .partitions inRange.1 (Nat.le_pred_of_lt inRange.2)
  | replicas count inRange =>
    exact .replicas inRange.1 (Nat.le_pred_of_lt inRange.2)
  | timestamp column named =>
    obtain ⟨c, isChar, visible⟩ := Text.isAllBlank_eq_false_iff.mp named
    exact .timestamp isChar visible
  | timestampFormat pattern => exact .timestampFormat pattern
  | wrapSingleValue wrap => exact .wrapSingleValue wrap

theorem exists_of_wellShaped (shaped : WellShaped key value) :
    ∃ property : Property, property.key = key ∧ property.value = value := by
  cases shaped with
  | topic size letters notHere notAbove =>
    have legal := isTopicName_iff.mpr
      ⟨size, fun c isChar => isTopicChar_iff.mpr (letters c isChar), notHere, notAbove⟩
    exact ⟨.topic _ legal, rfl, rfl⟩
  | valueFormat spells =>
    exact ⟨.valueFormat _ _ (Format.ofString?_eq_some_iff.mpr spells), rfl, rfl⟩
  | partitions positive fits =>
    exact ⟨.partitions _ ⟨positive, Nat.lt_succ_of_le fits⟩, rfl, rfl⟩
  | replicas positive fits =>
    exact ⟨.replicas _ ⟨positive, Nat.lt_succ_of_le fits⟩, rfl, rfl⟩
  | timestamp isChar visible =>
    exact ⟨.timestamp _ (Text.isAllBlank_eq_false_iff.mpr ⟨_, isChar, visible⟩), rfl, rfl⟩
  | timestampFormat pattern => exact ⟨.timestampFormat pattern, rfl, rfl⟩
  | wrapSingleValue wrap => exact ⟨.wrapSingleValue wrap, rfl, rfl⟩

theorem ofPair_eq_ok_iff :
    ofPair key value = .ok property ↔ property.key = Text.upper key ∧ property.value = value := by
  rw [← ofValue_eq_ok_iff, ofPair]
  cases ofValue (Text.upper key) value <;> simp

theorem exists_ofPair_iff :
    (∃ property, ofPair key value = .ok property) ↔ WellShaped (Text.upper key) value := by
  simp only [ofPair_eq_ok_iff]
  constructor
  · rintro ⟨property, isKey, rfl⟩
    rw [← isKey]
    exact property.wellShaped_key_value
  · exact exists_of_wellShaped

theorem name_of_ofPair {error : PropertyError} (refused : ofPair key value = .error error) :
    error.name = Text.upper key := by
  unfold ofPair at refused
  split at refused
  · cases refused
  · cases refused
    rfl

end Property

/-! ## Lists of pairs -/

def inUpperCase (pairs : List (String × Value)) : List (String × Value) :=
  pairs.map fun pair => (Text.upper pair.1, pair.2)

def lastValue? (pairs : List (String × Value)) (key : String) : Option Value :=
  ((pairs.filter fun pair => Text.upper pair.1 = key).getLast?).map Prod.snd

/-- Some pair is not well shaped, and the first of them has this key in upper case. -/
def FirstFault (pairs : List (String × Value)) (name : String) : Prop :=
  ∃ before key value after, pairs = before ++ (key, value) :: after ∧
    (∀ pair ∈ before, WellShaped (Text.upper pair.1) pair.2) ∧
    ¬WellShaped (Text.upper key) value ∧ name = Text.upper key

namespace Properties

variable {pairs : List (String × Value)} {start properties : Properties}

theorem insertPairs_eq_ok_iff :
    insertPairs start pairs = .ok properties ↔ ∃ given : List Property,
      (given.map fun property => (property.key, property.value)) = inUpperCase pairs ∧
        properties.entries = given.foldl Roster.insert start.entries := by
  induction pairs generalizing start with
  | nil =>
    rw [insertPairs, ok_eq_ok_iff]
    constructor
    · rintro rfl
      exact ⟨[], rfl, rfl⟩
    · rintro ⟨given, isGiven, entries⟩
      obtain rfl := List.map_eq_nil_iff.mp isGiven
      exact congrArg Properties.mk entries
  | cons pair rest ih =>
    obtain ⟨key, value⟩ := pair
    simp only [insertPairs, bind_eq_ok_iff, Property.ofPair_eq_ok_iff, ih]
    constructor
    · rintro ⟨property, ⟨isKey, isValue⟩, given, isGiven, entries⟩
      refine ⟨property :: given, ?_, entries⟩
      rw [List.map_cons, isKey, isValue, isGiven]
      rfl
    · rintro ⟨given, isGiven, entries⟩
      obtain ⟨property, others, rfl, isFirst, isRest⟩ := List.map_eq_cons_iff.mp isGiven
      exact ⟨property, Prod.mk.inj isFirst, others, isRest, entries⟩

theorem exists_insertPairs_iff :
    (∃ properties, insertPairs start pairs = .ok properties) ↔
      ∀ pair ∈ pairs, WellShaped (Text.upper pair.1) pair.2 := by
  induction pairs generalizing start with
  | nil => simp [insertPairs]
  | cons pair rest ih =>
    obtain ⟨key, value⟩ := pair
    simp only [insertPairs, bind_eq_ok_iff, List.forall_mem_cons, ← Property.exists_ofPair_iff]
    constructor
    · rintro ⟨properties, property, isFirst, others⟩
      have sound := ih.mp ⟨properties, others⟩
      simp only [← Property.exists_ofPair_iff] at sound
      exact ⟨⟨property, isFirst⟩, sound⟩
    · rintro ⟨⟨property, isFirst⟩, sound⟩
      simp only [Property.exists_ofPair_iff] at sound
      obtain ⟨properties, others⟩ := ih.mpr sound
      exact ⟨properties, property, isFirst, others⟩

theorem firstFault_of_insertPairs {error : PropertyError}
    (refused : insertPairs start pairs = .error error) : FirstFault pairs error.name := by
  induction pairs generalizing start with
  | nil => cases refused
  | cons pair rest ih =>
    obtain ⟨key, value⟩ := pair
    cases isFirst : Property.ofPair key value with
    | error first =>
      simp only [insertPairs, isFirst] at refused
      cases refused
      refine ⟨[], key, value, rest, rfl, nofun, ?_, Property.name_of_ofPair isFirst⟩
      rw [← Property.exists_ofPair_iff, isFirst]
      simp
    | ok property =>
      simp only [insertPairs, isFirst] at refused
      obtain ⟨before, key', value', after, rfl, sound, faulty, isName⟩ := ih refused
      refine ⟨(key, value) :: before, key', value', after, rfl, ?_, faulty, isName⟩
      exact List.forall_mem_cons.mpr ⟨Property.exists_ofPair_iff.mp ⟨property, isFirst⟩, sound⟩

/-! ## What is asked of properties -/

theorem findSome?_eq_bind_get? {α : Type} {read : Property → Option α} {key : String}
    (reads : ∀ property, (read property).isSome ↔ property.key = key) (properties : Properties) :
    properties.entries.toList.findSome? read = (properties.entries.get? key).bind read := by
  unfold Roster.get?
  induction properties.entries.toList with
  | nil => rfl
  | cons property rest ih =>
    by_cases hit : property.key = key
    · obtain ⟨a, isRead⟩ := Option.isSome_iff_exists.mp ((reads property).mpr hit)
      simp [hit, isRead]
    · have unread : read property = .none := by
        rw [← Option.not_isSome_iff_eq_none, reads]
        exact hit
      simp [hit, unread, ih]

theorem map_findSome?_eq {α : Type} {read : Property → Option α} {write : α → Value} {key : String}
    (reads : ∀ property, (read property).isSome ↔ property.key = key)
    (writes : ∀ property a, read property = some a → write a = property.value)
    (properties : Properties) :
    (properties.entries.toList.findSome? read).map write =
      (properties.entries.get? key).map Property.value := by
  rw [findSome?_eq_bind_get? reads]
  cases found : properties.entries.get? key with
  | none => rfl
  | some property =>
    obtain ⟨a, isRead⟩ := Option.isSome_iff_exists.mp ((reads property).mpr (Roster.key_of_get? found))
    simp [isRead, writes property a isRead]

/-- What properties hold that were read from some pairs. -/
structure Hold (pairs : List (String × Value)) (properties : Properties) : Prop where
  keys : properties.toPairs.map Prod.fst = (pairs.map fun pair => Text.upper pair.1).eraseDups
  values : ∀ pair ∈ properties.toPairs, lastValue? pairs pair.1 = some pair.2
  get : ∀ key, properties.get? key = lastValue? pairs (Text.upper key)
  topic : properties.topic?.map Value.str = lastValue? pairs "KAFKA_TOPIC"
  valueFormat : ∃ spelling : Option String,
    spelling.map Value.str = lastValue? pairs "VALUE_FORMAT" ∧
      properties.valueFormat?.map Format.text = spelling.map Text.upper
  partitions : (properties.partitions?.map fun count : Nat => Value.num (.int count)) =
    lastValue? pairs "PARTITIONS"
  replicas : (properties.replicas?.map fun count : Nat => Value.num (.int count)) =
    lastValue? pairs "REPLICAS"
  timestamp : ∃ column : Option String, column.map Value.str = lastValue? pairs "TIMESTAMP" ∧
    properties.timestamp? = column.map ColumnName.ofString
  timestampFormat : properties.timestampFormat?.map Value.str = lastValue? pairs "TIMESTAMP_FORMAT"
  wrapSingleValue : properties.wrapSingleValue?.map Value.bool =
    lastValue? pairs "WRAP_SINGLE_VALUE"

theorem keys_of_ofPairs (read : ofPairs pairs = .ok properties) :
    properties.entries.keys = (pairs.map fun pair => Text.upper pair.1).eraseDups := by
  obtain ⟨given, isGiven, entries⟩ := insertPairs_eq_ok_iff.mp read
  have keys := congrArg (List.map Prod.fst) isGiven
  simp only [inUpperCase, List.map_map, Function.comp_def] at keys
  rw [entries, ← keys]
  exact Roster.keys_ofList given

theorem map_value_get?_of_ofPairs (read : ofPairs pairs = .ok properties) (key : String) :
    (properties.entries.get? key).map Property.value = lastValue? pairs key := by
  obtain ⟨given, isGiven, entries⟩ := insertPairs_eq_ok_iff.mp read
  have found : properties.entries.get? key =
      (given.filter fun property => property.key = key).getLast? := by
    rw [entries]
    exact Roster.get?_ofList given key
  have values := congrArg
    (fun pairs => ((pairs.filter fun pair => pair.1 = key).getLast?).map Prod.snd) isGiven
  simp only [inUpperCase, List.filter_map, List.getLast?_map, Option.map_map] at values
  rw [found, lastValue?]
  exact values

theorem hold_of_ofPairs (read : ofPairs pairs = .ok properties) : Hold pairs properties := by
  have found := map_value_get?_of_ofPairs read
  constructor
  case keys =>
    rw [← keys_of_ofPairs read, toPairs, List.map_map]
    rfl
  case values =>
    intro pair isPair
    obtain ⟨property, isProperty, rfl⟩ := List.mem_map.mp isPair
    rw [← found, Roster.get?_eq_some_iff.mpr ⟨isProperty, rfl⟩]
    rfl
  case get =>
    intro key
    exact found (Text.upper key)
  case valueFormat =>
    unfold valueFormat?
    rw [@findSome?_eq_bind_get? Format _ "VALUE_FORMAT" ?reads, ← found]
    case reads =>
      intro property
      cases property <;> simp [Property.key]
    cases isFound : properties.entries.get? "VALUE_FORMAT" with
    | none => exact ⟨.none, rfl, rfl⟩
    | some property =>
      cases property with
      | valueFormat spelling format spells =>
        have upper := Format.ofString?_eq_some_iff.mp spells
        exact ⟨some spelling, rfl, by simp [upper]⟩
      | _ => exact absurd (Roster.key_of_get? isFound) (by simp [Property.key])
  case timestamp =>
    unfold timestamp?
    rw [@findSome?_eq_bind_get? ColumnName _ "TIMESTAMP" ?reads, ← found]
    case reads =>
      intro property
      cases property <;> simp [Property.key]
    cases isFound : properties.entries.get? "TIMESTAMP" with
    | none => exact ⟨.none, rfl, rfl⟩
    | some property =>
      cases property with
      | timestamp column named => exact ⟨some column, rfl, rfl⟩
      | _ => exact absurd (Roster.key_of_get? isFound) (by simp [Property.key])
  all_goals
    rw [← found]
    apply map_findSome?_eq
    · intro property
      cases property <;> simp [Property.key]
    · intro property a isRead
      cases property <;> simp_all [Property.value]

/-- Pairs are read exactly if all of them are well shaped, and otherwise the first other one is blamed.
What is read holds the last value for each key and shows it. -/
theorem ofPairs_exactly (pairs : List (String × Value)) :
    ((∃ properties, ofPairs pairs = .ok properties) ↔
      ∀ pair ∈ pairs, WellShaped (Text.upper pair.1) pair.2) ∧
    (∀ error, ofPairs pairs = .error error → ∃ name reason,
      AnalysisError.ofPropertyError error = .invalidProperty name reason ∧ FirstFault pairs name) ∧
    ∀ properties, ofPairs pairs = .ok properties → Hold pairs properties := by
  refine ⟨exists_insertPairs_iff, ?_, fun _ => hold_of_ofPairs⟩
  intro error refused
  exact ⟨_, _, rfl, firstFault_of_insertPairs refused⟩

end Properties

end StreamQuery
