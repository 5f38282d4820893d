import StreamQuery.Proofs.JoinKeys
import StreamQuery.Proofs.PropertyPairs
import StreamQuery.Proofs.PropertyText
import StreamQuery.Proofs.Translation

/-! # The sink of an analysis

What a finished analysis says of its sink: the name of the topic, and for each of the other parts the
place that it was taken from.
-/

set_option autoImplicit false

namespace StreamQuery

/-! ## The topic of a created sink

The name of a sink's topic is that of its properties, or else the name of the sink. The rule for topic
names is applied to the properties only. So the topic is legal exactly if it was given or the name of
the sink happens to be legal, as it is if the text is that the sink is named with.
-/

/-- Whether a name would be accepted as a value of the property that names the topic. -/
def LegalTopic (name : String) : Prop :=
  WellShaped "KAFKA_TOPIC" (.str name)

theorem legalTopic_iff {name : String} : LegalTopic name ↔ isTopicName name = true := by
  constructor
  · intro shaped
    obtain ⟨property, isTopic, isName⟩ := Property.exists_of_wellShaped shaped
    cases property with
    | topic own legal =>
      cases isName
      exact legal
    | _ => exact absurd isTopic (by simp [Property.key])
  · intro legal
    exact (Property.topic name legal).wellShaped_key_value

theorem Properties.legalTopic_of_topic? {properties : Properties} {name : String}
    (given : properties.topic? = some name) : LegalTopic name := by
  obtain ⟨property, _, isRead⟩ := List.exists_of_findSome?_eq_some given
  cases property with
  | topic own legal =>
    cases isRead
    exact legalTopic_iff.mpr legal
  | _ => cases isRead

/-! ### Names in upper case -/

theorem toNat_lt_of_isTopicChar {c : Char} (isTopic : isTopicChar c = true) : c.toNat < 128 := by
  rcases isTopicChar_iff.mp isTopic with ⟨_, last⟩ | ⟨_, last⟩ | ⟨_, last⟩ | rfl | rfl | rfl
  · exact Nat.lt_of_le_of_lt last (by decide)
  · exact Nat.lt_of_le_of_lt last (by decide)
  · exact Nat.lt_of_le_of_lt last (by decide)
  · decide
  · decide
  · decide

theorem isTopicChar_toUpper {c : Char} (isTopic : isTopicChar c = true) :
    isTopicChar c.toUpper = true :=
  Text.forall_ascii (P := fun c => isTopicChar c = true → isTopicChar c.toUpper = true)
    (by decide +kernel) (toNat_lt_of_isTopicChar isTopic) isTopic

theorem toUpper_eq_dot_iff {c : Char} (isTopic : isTopicChar c = true) :
    c.toUpper = '.' ↔ c = '.' :=
  Text.forall_ascii (P := fun c => c.toUpper = '.' ↔ c = '.') (by decide +kernel)
    (toNat_lt_of_isTopicChar isTopic)

theorem legalTopic_upper {name : String} (legal : LegalTopic name) :
    LegalTopic (Text.upper name) := by
  obtain ⟨size, letters, notHere, notAbove⟩ := isTopicName_iff.mp (legalTopic_iff.mp legal)
  have upper : Text.upper name = name.map Char.toUpper :=
    Text.upper_of_ascii fun c isChar => toNat_lt_of_isTopicChar (letters c isChar)
  have capitals : ∀ c ∈ (Text.upper name).toList, isTopicChar c = true := by
    rw [upper, String.toList_map]
    intro c isChar
    obtain ⟨letter, isLetter, rfl⟩ := List.mem_map.mp isChar
    exact isTopicChar_toUpper (letters letter isLetter)
  -- A name that is all dots in upper case was the same before.
  have dotted : (∀ c ∈ (Text.upper name).toList, c = '.') → Text.upper name = name := by
    rw [upper, String.toList_map]
    intro dots
    have fixed : ∀ c ∈ name.toList, c.toUpper = c := by
      intro c isChar
      have isDot := dots _ (List.mem_map_of_mem isChar)
      rw [isDot, (toUpper_eq_dot_iff (letters c isChar)).mp isDot]
    apply String.toList_injective
    rw [String.toList_map, List.map_congr_left fixed, List.map_id']
  apply legalTopic_iff.mpr
  refine isTopicName_iff.mpr ⟨?_, capitals, ?_, ?_⟩
  · rwa [upper, String.length_map]
  · intro isHere
    exact notHere (dotted (by simp [isHere]) ▸ isHere)
  · intro isAbove
    exact notAbove (dotted (by simp [isAbove]) ▸ isAbove)

namespace Analyzer

variable {analyzer : Analyzer} {query : Query} {sink : Sink} {a : Analysis}

/-- The topic of a created sink is legal exactly if the properties name it or the name of the sink is
legal by itself; for the latter it is enough that the sink was named with a legal text. -/
theorem createdTopic_of_analyze (analyzed : analyzer.analyze query (some sink) = .ok a)
    (creates : sink.creates = true) :
    ∃ bound, a.sink = some bound ∧
      bound.topic.name = sink.properties.topic?.getD sink.name.text ∧
      (LegalTopic bound.topic.name ↔
        sink.properties.topic?.isSome ∨ LegalTopic sink.name.text) ∧
      ∀ name, sink.name = .ofString name → LegalTopic name → LegalTopic bound.topic.name := by
  obtain ⟨sources, keys, _, _, entered⟩ := analyze_eq_ok_iff.mp analyzed
  obtain ⟨topic, found, rfl⟩ := (sinkClause_some_eq_ok_iff rfl).mp entered
  have named : topic.name = sink.properties.topic?.getD sink.name.text := by
    rcases sinkTopic_eq_ok_iff.mp found with ⟨_, first, _, rfl⟩ | ⟨inserts, _⟩
    · rfl
    · exact absurd creates (Bool.eq_false_iff.mp inserts)
  have legal : LegalTopic topic.name ↔
      sink.properties.topic?.isSome ∨ LegalTopic sink.name.text := by
    rw [named]
    cases given : sink.properties.topic? with
    | none => simp
    | some name => simp [Properties.legalTopic_of_topic? given]
  refine ⟨_, rfl, named, legal, ?_⟩
  intro name isName legalName
  apply legal.mpr
  rw [isName]
  exact .inr (legalTopic_upper legalName)

def numbered : Sink where
  name := ⟨"NUMBERED.ORDERS-2"⟩
  creates := true
  properties := .none

theorem createdTopic_numbered :
    ∃ a bound, shop.analyze ordersWithItems (some numbered) = .ok a ∧ numbered.creates = true ∧
      a.sink = some bound ∧ bound.topic.name = "NUMBERED.ORDERS-2" ∧
      LegalTopic bound.topic.name := by
  have analyzed : shop.analyze ordersWithItems (some numbered) = .ok _ := rfl
  obtain ⟨bound, isSink, named, legal, _⟩ := createdTopic_of_analyze analyzed rfl
  have legalName : LegalTopic numbered.name.text := legalTopic_iff.mpr (by decide)
  exact ⟨_, bound, analyzed, rfl, isSink, named, legal.mpr (.inr legalName)⟩

/-- A sink whose name has a space in it is created with an illegal topic. -/
theorem createdTopic_illegal :
    ∃ a bound, shop.analyze { ordersWithItems with joins := [] }
        (some ⟨⟨"MONTHLY SALES"⟩, true, .none⟩) = .ok a ∧
      a.sink = some bound ∧ bound.creates = true ∧ bound.topic.name = "MONTHLY SALES" ∧
      ¬LegalTopic bound.topic.name := by
  have illegal : ¬LegalTopic "MONTHLY SALES" := by
    rw [legalTopic_iff]
    decide
  exact ⟨_, _, rfl, rfl, rfl, rfl, illegal⟩

end Analyzer

/-! ## Where the parts of a sink come from

Every part of the sink of an analysis has its place of origin. The properties come first, then what the
query says of windows and groups, and then the first source, whatever is joined to it. The topic of a
sink that is inserted into is the one in the catalog.
-/

open Json (Value)

/-- The wrappings of a sink, by the value of the property on single values. -/
inductive WrapsBy : Option Value → List Wrapping → Prop where
  | wrapped : WrapsBy (some (.bool true)) [.wrap]
  | unwrapped : WrapsBy (some (.bool false)) [.unwrap]
  | unsaid : WrapsBy none []

/-- The topic of a sink that is created, given a window, a grouping and the topic of the first source. -/
structure CreatesTopic (sink : Sink) (window : Option Window) (grouping : List Expr)
    (first topic : Topic) : Prop where
  named : ∀ value, sink.properties.get? "KAFKA_TOPIC" = some value → value = .str topic.name
  unnamed : sink.properties.get? "KAFKA_TOPIC" = none → topic.name = sink.name.text
  formatted : ∀ value, sink.properties.get? "VALUE_FORMAT" = some value →
    ∃ spelling, value = .str spelling ∧ Text.upper spelling = topic.valueFormat.format.text
  unformatted : sink.properties.get? "VALUE_FORMAT" = none → topic.valueFormat = first.valueFormat
  keyFormat : topic.keyFormat.format = first.keyFormat.format
  windowed : ∀ given, window = some given → topic.keyFormat.window = some given.keyWindow
  regrouped : window = none → grouping ≠ [] → topic.keyFormat.window = none
  kept : window = none → grouping = [] → topic.keyFormat.window = first.keyFormat.window

/-! ### Properties by their keys -/

namespace Properties

theorem get?_of_upper {key : String} (isUpper : Text.upper key = key) (properties : Properties) :
    properties.get? key = (properties.entries.get? key).map Property.value := by
  rw [get?, isUpper]

theorem hold_toPairs (properties : Properties) : Hold properties.toPairs properties :=
  hold_of_ofPairs properties.ofPairs_toPairs

theorem lastValue?_toPairs {key : String} (isUpper : Text.upper key = key)
    (properties : Properties) : lastValue? properties.toPairs key = properties.get? key := by
  rw [properties.hold_toPairs.get, isUpper]

theorem get?_topic (properties : Properties) :
    properties.get? "KAFKA_TOPIC" = properties.topic?.map Value.str := by
  rw [properties.hold_toPairs.topic, lastValue?_toPairs (Text.upper_of_lt (by decide))]

theorem get?_wrapSingleValue (properties : Properties) :
    properties.get? "WRAP_SINGLE_VALUE" = properties.wrapSingleValue?.map Value.bool := by
  rw [properties.hold_toPairs.wrapSingleValue, lastValue?_toPairs (Text.upper_of_lt (by decide))]

theorem get?_valueFormat (properties : Properties) :
    ∃ spelling : Option String, properties.get? "VALUE_FORMAT" = spelling.map Value.str ∧
      properties.valueFormat?.map Format.text = spelling.map Text.upper := by
  obtain ⟨spelling, isSpelling, spells⟩ := properties.hold_toPairs.valueFormat
  refine ⟨spelling, ?_, spells⟩
  rw [isSpelling, lastValue?_toPairs (Text.upper_of_lt (by decide))]

end Properties

namespace Analyzer

variable {analyzer : Analyzer} {query : Query} {sink : Sink} {a : Analysis}

theorem wrapsBy_wrappings (properties : Properties) :
    WrapsBy (properties.get? "WRAP_SINGLE_VALUE") (Wrapping.distinct (wrappings properties)) := by
  rw [properties.get?_wrapSingleValue, wrappings]
  cases properties.wrapSingleValue? with
  | none => exact .unsaid
  | some wrap =>
    cases wrap with
    | true => exact .wrapped
    | false => exact .unwrapped

theorem createsTopic_newTopic (a : Analysis) (sink : Sink) (first : Topic) :
    CreatesTopic sink a.window a.grouping first (newTopic a sink first) := by
  obtain ⟨spelling, isSpelling, spells⟩ := sink.properties.get?_valueFormat
  constructor
  case named =>
    intro value isGiven
    rw [sink.properties.get?_topic] at isGiven
    obtain ⟨name, isName, rfl⟩ := Option.map_eq_some_iff.mp isGiven
    rw [newTopic, isName, Option.getD_some]
  case unnamed =>
    intro unnamed
    rw [sink.properties.get?_topic, Option.map_eq_none_iff] at unnamed
    rw [newTopic, unnamed, Option.getD_none]
  case formatted =>
    intro value isGiven
    obtain ⟨text, rfl, rfl⟩ := Option.map_eq_some_iff.mp (isSpelling.symm.trans isGiven)
    obtain ⟨format, isFormat, isText⟩ := Option.map_eq_some_iff.mp spells
    refine ⟨text, rfl, ?_⟩
    rw [newTopic, isFormat]
    exact isText.symm
  case unformatted =>
    intro unformatted
    obtain rfl := Option.map_eq_none_iff.mp (isSpelling.symm.trans unformatted)
    rw [newTopic, Option.map_eq_none_iff.mp spells]
  case keyFormat =>
    simp only [newTopic, resultKeyFormat]
    split
    · rfl
    · split <;> rfl
  case windowed =>
    intro window isGiven
    simp only [newTopic, resultKeyFormat, isGiven]
  case regrouped =>
    intro unwindowed grouped
    simp [newTopic, resultKeyFormat, unwindowed, grouped]
  case kept =>
    intro unwindowed ungrouped
    simp [newTopic, resultKeyFormat, unwindowed, ungrouped]

/-- What an analysis says of its sink is determined by the properties, by the window, the grouping and
the first source of the analysis, and for a sink that is inserted into by the catalog alone. -/
theorem sink_of_analyze (analyzed : analyzer.analyze query (some sink) = .ok a) :
    a.properties = sink.properties ∧ a.window = query.window ∧ a.grouping = query.grouping ∧
    ∃ bound, a.sink = some bound ∧ bound.name = sink.name ∧ bound.creates = sink.creates ∧
      WrapsBy (sink.properties.get? "WRAP_SINGLE_VALUE") bound.wrappings ∧
      (sink.creates = true → ∃ first rest, a.sources = first :: rest ∧
        CreatesTopic sink query.window query.grouping first.source.topic bound.topic) ∧
      (sink.creates = false → ∃ source, analyzer.source? sink.name = some source ∧
        bound.topic = source.topic) := by
  obtain ⟨sources, keys, _, _, entered⟩ := analyze_eq_ok_iff.mp analyzed
  obtain ⟨topic, found, rfl⟩ := (sinkClause_some_eq_ok_iff rfl).mp entered
  refine ⟨rfl, rfl, rfl, _, rfl, rfl, rfl, wrapsBy_wrappings sink.properties, ?_, ?_⟩
  · intro creates
    rcases sinkTopic_eq_ok_iff.mp found with ⟨_, first, isFirst, rfl⟩ | ⟨inserts, _⟩
    · obtain ⟨rest, isSources⟩ := List.head?_eq_some_iff.mp isFirst
      have created := createsTopic_newTopic (analysisOf analyzer query sources keys) sink
        first.source.topic
      exact ⟨first, rest, isSources, created⟩
    · exact absurd creates (Bool.eq_false_iff.mp inserts)
  · intro inserts
    rcases sinkTopic_eq_ok_iff.mp found with ⟨creates, _⟩ | ⟨_, source, isSource, rfl⟩
    · exact absurd creates (Bool.eq_false_iff.mp inserts)
    · exact ⟨source, isSource, rfl⟩

def bareAvro : Sink where
  name := ⟨"BUSY_ORDERS"⟩
  creates := true
  properties :=
    (Properties.none.insert (.wrapSingleValue false)).insert (.valueFormat "avro" .avro (by decide))

theorem sink_bareAvro :
    ∃ a bound, shop.analyze sessions (some bareAvro) = .ok a ∧ a.sink = some bound ∧
      bound.topic.name = "BUSY_ORDERS" ∧ bound.topic.valueFormat.format.text = "AVRO" ∧
      bound.topic.keyFormat.window = some ⟨.session, none⟩ ∧ bound.wrappings = [.unwrap] := by
  obtain ⟨a, analyzed⟩ : ∃ a, shop.analyze sessions (some bareAvro) = .ok a := ⟨_, rfl⟩
  obtain ⟨_, _, _, bound, isSink, _, _, wraps, created, _⟩ := sink_of_analyze analyzed
  obtain ⟨first, rest, _, topic⟩ := created rfl
  have noTopic : bareAvro.properties.get? "KAFKA_TOPIC" = none :=
    Properties.get?_of_upper (Text.upper_of_lt (by decide)) _
  have isFormat : bareAvro.properties.get? "VALUE_FORMAT" = some (.str "avro") :=
    Properties.get?_of_upper (Text.upper_of_lt (by decide)) _
  have isWrap : bareAvro.properties.get? "WRAP_SINGLE_VALUE" = some (.bool false) :=
    Properties.get?_of_upper (Text.upper_of_lt (by decide)) _
  have isAvro : bound.topic.valueFormat.format.text = "AVRO" := by
    obtain ⟨spelling, isSpelling, spells⟩ := topic.formatted _ isFormat
    obtain rfl := Value.str.inj isSpelling
    exact spells.symm
  have unwraps : bound.wrappings = [.unwrap] := by
    rw [isWrap] at wraps
    generalize bound.wrappings = wrappings at wraps ⊢
    cases wraps
    rfl
  exact ⟨a, bound, analyzed, isSink, topic.unnamed noTopic, isAvro, topic.windowed _ rfl, unwraps⟩

end Analyzer

end StreamQuery
