import Mathlib.Tactic.Choose
import StreamQuery.Query

/-! # Positions in expressions

A position in an expression is the way down to one of its parts: the index of an operand, the index of an
operand of that one, and so on. Positions are compared as words are, so a part comes before its own
operands, and what is in one operand before what is in the next. In this order the columns and the calls
of an expression are listed, each as often as it occurs.
-/

set_option autoImplicit false

namespace StreamQuery

/-! ## Listing what has a position -/

section Listing

variable {α τ : Type}

/-- The list has what stands at some position, in the order of the positions. -/
def InOrder (At : List Nat → α → Prop) (items : List α) : Prop :=
  ∃ entries : List (List Nat × α), (entries.Pairwise fun first second => first.1 < second.1) ∧
    (∀ position item, (position, item) ∈ entries ↔ At position item) ∧
    entries.map Prod.snd = items

/-- What stands in one of several trees, the index of the tree being the first step. -/
def InForest (trees : List τ) (At : τ → List Nat → α → Prop) : List Nat → α → Prop
  | [], _ => False
  | i :: path, item => ∃ tree, trees[i]? = some tree ∧ At tree path item

theorem InOrder.congr {At At' : List Nat → α → Prop} {items : List α} (listed : InOrder At items)
    (same : ∀ position item, At position item ↔ At' position item) : InOrder At' items := by
  obtain ⟨entries, ordered, found, rfl⟩ := listed
  refine ⟨entries, ordered, ?_, rfl⟩
  intro position item
  rw [found, same]

theorem InOrder.mem_iff {At : List Nat → α → Prop} {items : List α} (listed : InOrder At items)
    {item : α} : item ∈ items ↔ ∃ position, At position item := by
  obtain ⟨entries, _, found, rfl⟩ := listed
  simp only [List.mem_map, ← found]
  constructor
  · rintro ⟨⟨position, _⟩, isEntry, rfl⟩
    exact ⟨position, isEntry⟩
  · rintro ⟨position, isEntry⟩
    exact ⟨(position, item), isEntry, rfl⟩

theorem InOrder.unique {At : List Nat → α → Prop} {items items' : List α} (listed : InOrder At items)
    (listed' : InOrder At items') : items = items' := by
  obtain ⟨entries, ordered, found, rfl⟩ := listed
  obtain ⟨entries', ordered', found', rfl⟩ := listed'
  have sameEntries : ∀ entry, entry ∈ entries ↔ entry ∈ entries' := by
    rintro ⟨position, item⟩
    rw [found, found']
  have distinct : ∀ {entries : List (List Nat × α)},
      (entries.Pairwise fun first second => first.1 < second.1) → entries.Nodup := by
    intro entries ordered
    apply ordered.imp
    rintro first second before rfl
    exact List.lt_irrefl first.1 before
  have shuffled : entries.Perm entries' :=
    (List.perm_ext_iff_of_nodup (distinct ordered) (distinct ordered')).mpr sameEntries
  congr 1
  apply shuffled.eq_of_pairwise _ ordered ordered'
  intro first second _ _ before after
  exact absurd after (List.lt_asymm before)

theorem InOrder.nil {At : List Nat → α → Prop} (nothing : ∀ position item, ¬At position item) :
    InOrder At [] :=
  ⟨[], .nil, fun position item => by simp [nothing], rfl⟩

theorem InOrder.filter {At : List Nat → α → Prop} {items : List α} (listed : InOrder At items)
    (keep : α → Bool) :
    InOrder (fun position item => At position item ∧ keep item = true) (items.filter keep) := by
  obtain ⟨entries, ordered, found, rfl⟩ := listed
  refine ⟨entries.filter fun entry => keep entry.2, ordered.filter _, ?_, ?_⟩
  · intro position item
    rw [List.mem_filter, found]
  · rw [List.filter_map]
    rfl

theorem InOrder.root {At : List Nat → α → Prop} {items : List α} (listed : InOrder At items)
    (below : ∀ item, ¬At [] item) (here : Option α) :
    InOrder (fun position item => (position = [] ∧ here = some item) ∨ At position item)
      (here.toList ++ items) := by
  obtain ⟨entries, ordered, found, rfl⟩ := listed
  refine ⟨here.toList.map (([], ·)) ++ entries, ?_, ?_, ?_⟩
  · have single : (here.toList.map fun item => (([] : List Nat), item)).Pairwise
        fun first second => first.1 < second.1 := by
      cases here with
      | none => exact .nil
      | some item => exact List.pairwise_singleton _ _
    refine List.pairwise_append.mpr ⟨single, ordered, ?_⟩
    rintro first isRoot ⟨position, item⟩ isEntry
    obtain ⟨_, _, rfl⟩ := List.mem_map.mp isRoot
    cases position with
    | nil => exact absurd ((found _ _).mp isEntry) (below item)
    | cons step path => exact List.nil_lt_cons step path
  · intro position item
    simp only [List.mem_append, List.mem_map, Option.mem_toList, found, Prod.mk.injEq]
    apply or_congr_left
    constructor
    · rintro ⟨_, isHere, rfl, rfl⟩
      exact ⟨rfl, isHere⟩
    · rintro ⟨rfl, isHere⟩
      exact ⟨item, isHere, rfl, rfl⟩
  · rw [List.map_append, List.map_map]
    exact congrArg (· ++ _) (List.map_id' _)

def forestEntries (trees : List τ) (entries : τ → List (List Nat × α)) : List (List Nat × α) :=
  trees.zipIdx.flatMap fun numbered =>
    (entries numbered.1).map fun entry => (numbered.2 :: entry.1, entry.2)

theorem pairwise_forestEntries {trees : List τ} {entries : τ → List (List Nat × α)}
    (ordered : ∀ tree ∈ trees, (entries tree).Pairwise fun first second => first.1 < second.1) :
    (forestEntries trees entries).Pairwise fun first second => first.1 < second.1 := by
  have indices : trees.zipIdx.Pairwise fun first second => first.2 < second.2 := by
    rw [← List.pairwise_map, List.zipIdx_map_snd]
    exact List.pairwise_lt_range'
  rw [forestEntries, List.pairwise_flatMap]
  refine ⟨?_, indices.imp ?_⟩
  · intro numbered isNumbered
    have isTree : numbered.1 ∈ trees :=
      List.mem_of_getElem? (List.mem_zipIdx_iff_getElem?.mp isNumbered)
    rw [List.pairwise_map]
    apply (ordered _ isTree).imp
    intro first second before
    exact List.cons_lt_cons_iff.mpr (.inr ⟨rfl, before⟩)
  · intro first second before x isFirst y isSecond
    obtain ⟨_, _, rfl⟩ := List.mem_map.mp isFirst
    obtain ⟨_, _, rfl⟩ := List.mem_map.mp isSecond
    exact List.cons_lt_cons_iff.mpr (.inl before)

theorem mem_forestEntries {trees : List τ} {entries : τ → List (List Nat × α)}
    {position : List Nat} {item : α} :
    (position, item) ∈ forestEntries trees entries ↔
      InForest trees (fun tree path item => (path, item) ∈ entries tree) position item := by
  simp only [forestEntries, List.mem_flatMap, List.mem_map, Prod.exists,
    List.mem_zipIdx_iff_getElem?]
  constructor
  · rintro ⟨tree, i, atIndex, path, item, isEntry, equal⟩
    obtain ⟨rfl, rfl⟩ := Prod.mk.inj equal
    exact ⟨tree, atIndex, isEntry⟩
  · intro stands
    cases position with
    | nil => exact stands.elim
    | cons i path =>
      obtain ⟨tree, atIndex, isEntry⟩ := stands
      exact ⟨tree, i, atIndex, path, item, isEntry, rfl⟩

theorem map_snd_forestEntries (trees : List τ) (entries : τ → List (List Nat × α)) :
    (forestEntries trees entries).map Prod.snd =
      trees.flatMap fun tree => (entries tree).map Prod.snd := by
  calc (forestEntries trees entries).map Prod.snd
      = trees.zipIdx.flatMap fun numbered => (entries numbered.1).map Prod.snd := by
        simp only [forestEntries, List.map_flatMap, List.map_map, Function.comp_def]
    _ = (trees.zipIdx.map Prod.fst).flatMap fun tree => (entries tree).map Prod.snd := by
        rw [List.flatMap_map]
    _ = trees.flatMap fun tree => (entries tree).map Prod.snd := by
        rw [List.zipIdx_map_fst]

theorem InOrder.forest {trees : List τ} {At : τ → List Nat → α → Prop} {items : τ → List α}
    (each : ∀ tree ∈ trees, InOrder (At tree) (items tree)) :
    InOrder (InForest trees At) (trees.flatMap items) := by
  choose! entries ordered found read using each
  refine ⟨forestEntries trees entries, pairwise_forestEntries ordered, ?_, ?_⟩
  · intro position item
    rw [mem_forestEntries]
    cases position with
    | nil => rfl
    | cons i path =>
      apply exists_congr
      intro tree
      apply and_congr_right
      intro atIndex
      exact found tree (List.mem_of_getElem? atIndex) path item
  · rw [map_snd_forestEntries, List.flatMap_def, List.flatMap_def, List.map_congr_left read]

end Listing

/-! ## Operands and parts -/

namespace Expr

def operands : Expr → List Expr
  | literal _ => []
  | column _ => []
  | call _ arguments => arguments
  | comparison _ left right => [left, right]
  | arithmetic _ left right => [left, right]
  | and left right => [left, right]
  | or left right => [left, right]
  | not operand => [operand]
  | isNull operand => [operand]
  | isNotNull operand => [operand]

def at? : Expr → List Nat → Option Expr
  | e, [] => some e
  | e, i :: path => e.operands[i]?.bind fun operand => at? operand path

def column? : Expr → Option ColumnRef
  | column c => some c
  | _ => none

def call? : Expr → Option Call
  | call name arguments => some ⟨name, arguments⟩
  | _ => none

theorem column?_eq_some_iff {e : Expr} {c : ColumnRef} : e.column? = some c ↔ e = .column c := by
  cases e <;> simp [column?]

theorem call?_eq_some_iff {e : Expr} {c : Call} : e.call? = some c ↔ e = c.toExpr := by
  obtain ⟨name, arguments⟩ := c
  cases e <;> simp [call?, Call.toExpr]

theorem sizeOf_lt_of_mem_operands {e operand : Expr} (isOperand : operand ∈ e.operands) :
    sizeOf operand < sizeOf e := by
  cases e with
  | literal value => cases isOperand
  | column c => cases isOperand
  | call name arguments =>
    have smaller : sizeOf operand < sizeOf arguments := List.sizeOf_lt_of_mem isOperand
    simp only [call.sizeOf_spec]
    omega
  | not e | isNull e | isNotNull e =>
    obtain rfl := List.mem_singleton.mp isOperand
    simp
  | _ =>
    simp only [operands, List.mem_cons, List.not_mem_nil, or_false] at isOperand
    rcases isOperand with rfl | rfl
    · simp only [comparison.sizeOf_spec, arithmetic.sizeOf_spec, and.sizeOf_spec, or.sizeOf_spec]
      omega
    · simp only [comparison.sizeOf_spec, arithmetic.sizeOf_spec, and.sizeOf_spec, or.sizeOf_spec]
      omega

theorem rec_operands {P : Expr → Prop} (step : ∀ e, (∀ operand ∈ e.operands, P operand) → P e)
    (e : Expr) : P e := by
  apply step
  intro operand isOperand
  have := sizeOf_lt_of_mem_operands isOperand
  exact rec_operands step operand
termination_by sizeOf e

theorem columns_eq (e : Expr) :
    e.columns = e.column?.toList ++ e.operands.flatMap columns := by
  cases e <;> simp [columns, column?, operands, columnsOfAll_eq_flatMap]

theorem calls_eq (e : Expr) : e.calls = e.call?.toList ++ e.operands.flatMap calls := by
  cases e <;> simp [calls, call?, operands, callsOfAll_eq_flatMap]

/-- A list that starts with what an expression itself is read as, and goes on with the lists of its
operands, has what the parts are read as in the order of their positions. -/
theorem inOrder_parts {α : Type} {read : Expr → Option α} {part : α → Expr} {list : Expr → List α}
    (read_eq_some_iff : ∀ {e item}, read e = some item ↔ e = part item)
    (list_eq : ∀ e, list e = (read e).toList ++ e.operands.flatMap list) (e : Expr) :
    InOrder (fun position item => e.at? position = some (part item)) (list e) := by
  induction e using rec_operands with
  | step e ih =>
    rw [list_eq]
    apply ((InOrder.forest ih).root (fun _ => id) (read e)).congr
    intro position item
    cases position with
    | nil => simp [at?, InForest, read_eq_some_iff]
    | cons i path => simp [at?, InForest, Option.bind_eq_some_iff]

theorem inOrder_columns (e : Expr) :
    InOrder (fun position c => e.at? position = some (.column c)) e.columns :=
  inOrder_parts column?_eq_some_iff columns_eq e

theorem inOrder_calls (e : Expr) :
    InOrder (fun position c => e.at? position = some c.toExpr) e.calls :=
  inOrder_parts call?_eq_some_iff calls_eq e

end Expr

/-! ## Parts of a select list -/

namespace Projection

def at? : Projection → List Nat → Option Expr
  | single e _, position => e.at? position
  | star _, _ => none

theorem inOrder_columns (item : Projection) :
    InOrder (fun position c => item.at? position = some (.column c)) item.columns := by
  cases item with
  | single e name => exact e.inOrder_columns
  | star source => exact .nil fun _ _ => nofun

theorem inOrder_calls (item : Projection) :
    InOrder (fun position c => item.at? position = some c.toExpr) item.calls := by
  cases item with
  | single e name => exact e.inOrder_calls
  | star source => exact .nil fun _ _ => nofun

end Projection

/-- The part of a select list at a position: the first step is the index of an item. -/
def partAt? (items : List Projection) : List Nat → Option Expr
  | [] => none
  | i :: path => items[i]?.bind fun item => item.at? path

theorem inForest_at?_iff {α : Type} {items : List Projection} {part : α → Expr}
    {position : List Nat} {found : α} :
    InForest items (fun item path found => item.at? path = some (part found)) position found ↔
      partAt? items position = some (part found) := by
  cases position with
  | nil => simp [InForest, partAt?]
  | cons i path => simp [InForest, partAt?, Option.bind_eq_some_iff]

theorem inOrder_select_columns (items : List Projection) :
    InOrder (fun position c => partAt? items position = some (.column c))
      (items.flatMap Projection.columns) :=
  (InOrder.forest fun item _ => item.inOrder_columns).congr fun _ _ => inForest_at?_iff

theorem inOrder_select_calls (items : List Projection) :
    InOrder (fun position c => partAt? items position = some c.toExpr)
      (items.flatMap Projection.calls) :=
  (InOrder.forest fun item _ => item.inOrder_calls).congr fun _ _ => inForest_at?_iff

end StreamQuery
