import StreamQuery.Proofs.Translation

/-! # The names that a star gives in a join

A star over several sources puts the alias of the source in front of each name. This tells columns of
one name from different sources apart, and columns of one source anyway, but not all columns: what ends
one alias can begin a column name. Two sources share a name in the result exactly if the alias of one is
the alias of the other, an underscore and a rest, and the other source shows a column whose name is this
rest, an underscore and the name of a column of the first.
-/

set_option autoImplicit false

namespace StreamQuery

/-! ## Names joined by an underscore -/

theorem eq_or_split_of_append {a b c d : String} {middle : List Char}
    (front : c.toList = a.toList ++ middle) (back : '_' :: b.toList = middle ++ '_' :: d.toList) :
    (a = c ∧ b = d) ∨ ∃ rest, c = a ++ "_" ++ rest ∧ b = rest ++ "_" ++ d := by
  cases middle with
  | nil =>
    refine .inl ⟨?_, ?_⟩
    · simpa [String.ext_iff] using front.symm
    · simpa [String.ext_iff] using back
  | cons first rest =>
    obtain ⟨rfl, tail⟩ := List.cons.inj back
    refine .inr ⟨String.ofList rest, ?_, ?_⟩
    · simpa [String.ext_iff] using front
    · simpa [String.ext_iff] using tail

theorem append_underscore_eq_iff {a b c d : String} :
    a ++ "_" ++ b = c ++ "_" ++ d ↔
      (a = c ∧ b = d) ∨ (∃ rest, c = a ++ "_" ++ rest ∧ b = rest ++ "_" ++ d) ∨
        ∃ rest, a = c ++ "_" ++ rest ∧ d = rest ++ "_" ++ b := by
  constructor
  · intro same
    have lists : a.toList ++ '_' :: b.toList = c.toList ++ '_' :: d.toList := by
      simpa using congrArg String.toList same
    rcases List.append_eq_append_iff.mp lists with ⟨middle, front, back⟩ | ⟨middle, front, back⟩
    · rcases eq_or_split_of_append front back with equal | split
      · exact .inl equal
      · exact .inr (.inl split)
    · rcases eq_or_split_of_append front back with ⟨equal, equal'⟩ | split
      · exact .inl ⟨equal.symm, equal'.symm⟩
      · exact .inr (.inr split)
  · rintro (⟨rfl, rfl⟩ | ⟨rest, rfl, rfl⟩ | ⟨rest, rfl, rfl⟩)
    · rfl
    · simp only [String.append_assoc]
    · simp only [String.append_assoc]

theorem ne_of_split {a b c d rest : String} (front : c = a ++ "_" ++ rest)
    (back : b = rest ++ "_" ++ d) : a ≠ c ∧ b ≠ d := by
  have single : "_".length = 1 := rfl
  have longer := congrArg String.length front
  have longer' := congrArg String.length back
  simp only [String.length_append] at longer longer'
  refine ⟨?_, ?_⟩
  · rintro rfl
    omega
  · rintro rfl
    omega

/-! ## The columns that a star shows -/

def Projection.name? : Projection → Option ColumnName
  | single _ name => name
  | star _ => none

namespace BoundSource

def starColumns (bound : BoundSource) : List Column :=
  (bound.source.schema.flattenIf bound.source.isWindowed).valueColumns

/-- Whether the alias of a source and the names of its columns are in upper case, as they are if they
were made from texts, and no two value columns have one name. -/
structure WellNamed (bound : BoundSource) : Prop where
  named : Text.upper bound.alias.text = bound.alias.text
  columns : ∀ column ∈ bound.source.schema.columns,
    Text.upper column.name.text = column.name.text
  distinct : (bound.source.schema.valueColumns.map (·.name)).Nodup

/-- The alias of the second source goes on where that of the first ends, and a column name of the first
makes up for it. -/
def SharesName (first second : BoundSource) : Prop :=
  ∃ rest, second.alias.text = first.alias.text ++ "_" ++ rest ∧
    ∃ own ∈ first.starColumns, ∃ other ∈ second.starColumns,
      own.name.text = rest ++ "_" ++ other.name.text

variable {bound first second : BoundSource}

theorem WellNamed.upper_starColumn (wellNamed : bound.WellNamed) {column : Column}
    (isShown : column ∈ bound.starColumns) : Text.upper column.name.text = column.name.text := by
  unfold starColumns Schema.flattenIf at isShown
  split at isShown
  · -- A flattened schema shows the bounds of a window, and otherwise only names of the schema.
    have exposed := (Schema.firstByName_sublist _).subset isShown
    rcases Schema.exists_exposed_iff.mp ⟨column, exposed, rfl⟩ with isStart | isEnd | original
    · rw [isStart]
      exact Text.upper_of_lt (by decide)
    · rw [isEnd]
      exact Text.upper_of_lt (by decide)
    · obtain ⟨own, isOwn, sameName⟩ := original
      rw [← sameName]
      exact wellNamed.columns own isOwn
  · exact wellNamed.columns column (List.mem_append_right _ isShown)

theorem WellNamed.nodup_starColumns (wellNamed : bound.WellNamed) :
    (bound.starColumns.map (·.name)).Nodup := by
  unfold starColumns Schema.flattenIf
  split
  · exact Schema.nodup_names_firstByName _
  · exact wellNamed.distinct

end BoundSource

/-! ## The names in the result -/

section Names

variable {sources : List BoundSource} {first second : BoundSource} {own other : Column}

theorem text_outputName (several : 1 < sources.length) (wellNamed : first.WellNamed)
    (isShown : own ∈ first.starColumns) :
    (outputName sources first own).text = first.alias.text ++ "_" ++ own.name.text := by
  rw [outputName, if_pos several, ColumnName.text_ofString,
    Text.upper_joined wellNamed.named (wellNamed.upper_starColumn isShown)]

theorem outputName_eq_iff (several : 1 < sources.length) (wellNamed : first.WellNamed)
    (wellNamed' : second.WellNamed) (isShown : own ∈ first.starColumns)
    (isShown' : other ∈ second.starColumns) :
    outputName sources first own = outputName sources second other ↔
      (first.alias = second.alias ∧ own.name = other.name) ∨
        (∃ rest, second.alias.text = first.alias.text ++ "_" ++ rest ∧
          own.name.text = rest ++ "_" ++ other.name.text) ∨
        ∃ rest, first.alias.text = second.alias.text ++ "_" ++ rest ∧
          other.name.text = rest ++ "_" ++ own.name.text := by
  rw [ColumnName.ext_iff, text_outputName several wellNamed isShown,
    text_outputName several wellNamed' isShown', append_underscore_eq_iff, SourceName.ext_iff,
    ColumnName.ext_iff]

theorem alias_eq_iff_of_outputName (several : 1 < sources.length) (wellNamed : first.WellNamed)
    (wellNamed' : second.WellNamed) (isShown : own ∈ first.starColumns)
    (isShown' : other ∈ second.starColumns)
    (same : outputName sources first own = outputName sources second other) :
    first.alias = second.alias ↔ own.name = other.name := by
  rw [SourceName.ext_iff, ColumnName.ext_iff]
  rcases (outputName_eq_iff several wellNamed wellNamed' isShown isShown').mp same with
    ⟨sameAlias, sameName⟩ | ⟨rest, front, back⟩ | ⟨rest, front, back⟩
  · simp [sameAlias, sameName]
  · obtain ⟨otherAlias, otherName⟩ := ne_of_split front back
    exact iff_of_false otherAlias otherName
  · obtain ⟨otherAlias, otherName⟩ := ne_of_split front back
    exact iff_of_false otherAlias.symm otherName.symm

theorem nodup_outputNames (several : 1 < sources.length) (wellNamed : first.WellNamed) :
    (first.starColumns.map (outputName sources first)).Nodup := by
  rw [List.Nodup, List.pairwise_map]
  have distinct := List.pairwise_map.mp wellNamed.nodup_starColumns
  apply distinct.imp_of_mem
  intro own other isShown isShown' different same
  apply different
  exact (alias_eq_iff_of_outputName several wellNamed wellNamed isShown isShown' same).mp rfl

theorem disjoint_outputNames_iff (several : 1 < sources.length) (wellNamed : first.WellNamed)
    (wellNamed' : second.WellNamed) (different : first.alias ≠ second.alias) :
    (∀ own ∈ first.starColumns, ∀ other ∈ second.starColumns,
        outputName sources first own ≠ outputName sources second other) ↔
      ¬first.SharesName second ∧ ¬second.SharesName first := by
  constructor
  · intro disjoint
    refine ⟨?_, ?_⟩
    · rintro ⟨rest, front, own, isShown, other, isShown', back⟩
      apply disjoint own isShown other isShown'
      apply (outputName_eq_iff several wellNamed wellNamed' isShown isShown').mpr
      exact .inr (.inl ⟨rest, front, back⟩)
    · rintro ⟨rest, front, other, isShown', own, isShown, back⟩
      apply disjoint own isShown other isShown'
      apply (outputName_eq_iff several wellNamed wellNamed' isShown isShown').mpr
      exact .inr (.inr ⟨rest, front, back⟩)
  · rintro ⟨apart, apart'⟩ own isShown other isShown' same
    rcases (outputName_eq_iff several wellNamed wellNamed' isShown isShown').mp same with
      ⟨sameAlias, _⟩ | ⟨rest, front, back⟩ | ⟨rest, front, back⟩
    · exact different sameAlias
    · exact apart ⟨rest, front, own, isShown, other, isShown', back⟩
    · exact apart' ⟨rest, front, other, isShown', own, isShown, back⟩

theorem not_sharesName_self (bound : BoundSource) : ¬bound.SharesName bound := by
  rintro ⟨rest, front, _, _, _, _, back⟩
  exact (ne_of_split front back).1 rfl

theorem nodup_starNames_iff (several : 1 < sources.length)
    (distinct : (sources.map BoundSource.alias).Nodup)
    (wellNamed : ∀ bound ∈ sources, bound.WellNamed) :
    (sources.flatMap fun bound => bound.starColumns.map (outputName sources bound)).Nodup ↔
      ∀ first ∈ sources, ∀ second ∈ sources, ¬first.SharesName second := by
  have aliases := List.pairwise_map.mp distinct
  rw [List.Nodup, List.pairwise_flatMap]
  constructor
  · rintro ⟨_, disjoint⟩
    have apart : sources.Pairwise fun first second =>
        ¬first.SharesName second ∧ ¬second.SharesName first := by
      apply (aliases.and disjoint).imp_of_mem
      rintro first second isFirst isSecond ⟨different, noName⟩
      apply (disjoint_outputNames_iff several (wellNamed first isFirst) (wellNamed second isSecond)
        different).mp
      intro own isShown other isShown'
      exact noName _ (List.mem_map_of_mem isShown) _ (List.mem_map_of_mem isShown')
    exact List.Pairwise.forall_of_forall_of_flip (fun bound _ => not_sharesName_self bound)
      (apart.imp And.left) (apart.imp And.right)
  · intro apart
    refine ⟨fun bound isBound => nodup_outputNames several (wellNamed bound isBound), ?_⟩
    apply aliases.imp_of_mem
    intro first second isFirst isSecond different _ isName _ isName'
    obtain ⟨own, isShown, rfl⟩ := List.mem_map.mp isName
    obtain ⟨other, isShown', rfl⟩ := List.mem_map.mp isName'
    exact (disjoint_outputNames_iff several (wellNamed first isFirst) (wellNamed second isSecond)
      different).mpr ⟨apart first isFirst second isSecond, apart second isSecond first isFirst⟩
        own isShown other isShown'

end Names

namespace Analyzer

variable {analyzer : Analyzer} {query : Query} {sink : Option Sink} {a : Analysis}

theorem select_eq_starItems (analyzed : analyzer.analyze query sink = .ok a)
    (onlyStar : query.select = [.star none]) :
    a.select = a.sources.flatMap fun bound => bound.starColumns.map fun column =>
      .single (.column (.qualified bound.alias column.name))
        (some (outputName a.sources bound column)) := by
  have all : (a.sources.filter fun bound =>
      decide ((none : Option SourceName) = none ∨ none = some bound.alias)) = a.sources := by
    simp
  rw [select_of_analyze analyzed, onlyStar, List.flatMap_singleton, Projection.result, all]
  rfl

/-- In the result of a star over a join, two columns under one name are from one source exactly if they
have one name there; so neither columns of one name nor columns of one source fall together. The names
are distinct exactly if no source shares a name with another. -/
theorem starNames_of_analyze (analyzed : analyzer.analyze query sink = .ok a)
    (onlyStar : query.select = [.star none]) (joined : query.joins ≠ [])
    (wellNamed : ∀ bound ∈ a.sources, bound.WellNamed) :
    ((a.select.map Projection.name?).Nodup ↔
      ∀ first ∈ a.sources, ∀ second ∈ a.sources, ¬first.SharesName second) ∧
    ∀ owner owner' name name' given,
      .single (.column (.qualified owner name)) given ∈ a.select →
      .single (.column (.qualified owner' name')) given ∈ a.select →
      (owner = owner' ↔ name = name') := by
  have bindsAll := bindsAll_of_analyze analyzed
  have several : 1 < a.sources.length := by
    have joins := List.length_pos_iff.mpr joined
    have length := bindsAll.length_sources
    omega
  have items := select_eq_starItems analyzed onlyStar
  have names : a.select.map Projection.name? =
      (a.sources.flatMap fun bound => bound.starColumns.map (outputName a.sources bound)).map some := by
    simp only [items, List.map_flatMap, List.map_map]
    rfl
  refine ⟨?_, ?_⟩
  · rw [← nodup_starNames_iff several bindsAll.nodup_aliases wellNamed, names]
    simp only [List.Nodup, List.pairwise_map, ne_eq, Option.some.injEq]
  · intro owner owner' name name' given isItem isItem'
    simp only [items, List.mem_flatMap, List.mem_map, Projection.single.injEq, Expr.column.injEq,
      ColumnRef.qualified, ColumnRef.mk.injEq, Option.some.injEq] at isItem isItem'
    obtain ⟨first, isFirst, own, isShown, ⟨rfl, rfl⟩, rfl⟩ := isItem
    obtain ⟨second, isSecond, other, isShown', ⟨rfl, rfl⟩, same⟩ := isItem'
    exact alias_eq_iff_of_outputName several (wellNamed first isFirst) (wellNamed second isSecond)
      isShown isShown' (Option.some.inj same).symm

theorem wellNamed_numbers {name column : String} (upperName : Text.upper name = name)
    (upperColumn : Text.upper column = column) :
    BoundSource.WellNamed ⟨⟨name⟩, numbers ⟨name⟩ ⟨column⟩, nofun⟩ := by
  refine ⟨upperName, ?_, List.pairwise_singleton _ _⟩
  intro own isOwn
  rcases List.mem_cons.mp isOwn with rfl | isValue
  · exact Text.upper_of_lt (by decide)
  · obtain rfl := List.mem_singleton.mp isValue
    exact upperColumn

theorem starNames_ordersWithItems :
    ∃ a, shop.analyze ordersWithItems none = .ok a ∧ ordersWithItems.select = [.star none] ∧
      ordersWithItems.joins ≠ [] ∧ (∀ bound ∈ a.sources, bound.WellNamed) ∧
      a.select.map Projection.name? =
        [some (.ofString "ORDERS_ITEM"), some (.ofString "ITEMS_ID")] ∧
      ∀ first ∈ a.sources, ∀ second ∈ a.sources, ¬first.SharesName second := by
  have analyzed : shop.analyze ordersWithItems none = .ok _ := rfl
  have orders : BoundSource.WellNamed ⟨⟨"ORDERS"⟩, numbers ⟨"ORDERS"⟩ ⟨"ITEM"⟩, nofun⟩ :=
    wellNamed_numbers (Text.upper_of_lt (by decide)) (Text.upper_of_lt (by decide))
  have items : BoundSource.WellNamed ⟨⟨"ITEMS"⟩, numbers ⟨"ITEMS"⟩ ⟨"ID"⟩, nofun⟩ :=
    wellNamed_numbers (Text.upper_of_lt (by decide)) (Text.upper_of_lt (by decide))
  have wellNamed := List.forall_mem_cons.mpr ⟨orders, List.forall_mem_singleton.mpr items⟩
  have distinct : [some (ColumnName.ofString "ORDERS_ITEM"), some (.ofString "ITEMS_ID")].Nodup := by
    decide +kernel
  have apart := (starNames_of_analyze analyzed rfl nofun wellNamed).1.mp distinct
  exact ⟨_, analyzed, rfl, nofun, wellNamed, rfl, apart⟩

def shopOrders : Analyzer where
  source? name :=
    if name = ⟨"SHOP"⟩ then some (numbers name ⟨"ORDER_ID"⟩)
    else if name = ⟨"SHOP_ORDER"⟩ then some (numbers name ⟨"ID"⟩)
    else none
  tableFunctions := []

/-- `SELECT * FROM SHOP LEFT JOIN SHOP_ORDER ON ORDER_ID = ID`. -/
def shopsWithOrders : Query where
  select := [.star none]
  relation := ⟨⟨"SHOP"⟩, none⟩
  joins := [{ onItems with
    relation := ⟨⟨"SHOP_ORDER"⟩, none⟩
    criteria := .comparison .equal (.column (.unqualified ⟨"ORDER_ID"⟩))
      (.column (.unqualified ⟨"ID"⟩)) }]

/-- The orders and items of `shop`, where items have a second column in lower case. -/
def respelledShop : Analyzer where
  source? name :=
    if name = ⟨"ITEMS"⟩ then
      some { numbers name ⟨"ID"⟩ with
        schema := (Schema.empty.addValue ⟨"ID"⟩ .bigint).addValue ⟨"id"⟩ .bigint }
    else shop.source? name
  tableFunctions := []

/-- Both columns of `SHOP` and `SHOP_ORDER` are `SHOP_ORDER_ID` in the result, although each source has
its own single column. Columns of one source that differ in letter case alone fall together as well. -/
theorem starNames_fall_together :
    (∃ a, shopOrders.analyze shopsWithOrders none = .ok a ∧
      shopsWithOrders.select = [.star none] ∧ a.sources.length = 2 ∧
      (∀ name, ∀ source ∈ shopOrders.source? name,
        (source.schema.valueColumns.map (·.name)).Nodup) ∧
      a.select.map Projection.name? =
        [some (.ofString "SHOP_ORDER_ID"), some (.ofString "SHOP_ORDER_ID")]) ∧
    ∃ a, respelledShop.analyze ordersWithItems none = .ok a ∧
      (∀ bound ∈ a.sources, (bound.source.schema.valueColumns.map (·.name)).Nodup) ∧
      a.select.map Projection.name? =
        [some (.ofString "ORDERS_ITEM"), some (.ofString "ITEMS_ID"), some (.ofString "ITEMS_id")] ∧
      ColumnName.ofString "ITEMS_ID" = .ofString "ITEMS_id" := by
  refine ⟨⟨_, rfl, rfl, rfl, ?_, rfl⟩, _, rfl, ?_, rfl, ?_⟩
  · intro name source found
    simp only [shopOrders] at found
    split at found
    · cases found
      exact List.pairwise_singleton _ _
    · split at found
      · cases found
        exact List.pairwise_singleton _ _
      · cases found
  · decide
  · decide +kernel

end Analyzer

end StreamQuery
