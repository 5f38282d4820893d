import StreamQuery.Expr
import StreamQuery.Topic

/-! # Queries -/

set_option autoImplicit false

namespace StreamQuery

/-! ## Joins -/

/-- `name [AS alias]` in a FROM or JOIN clause. -/
structure Relation where
  name : SourceName
  «alias» : Option SourceName
deriving DecidableEq

def Relation.visibleName (relation : Relation) : SourceName :=
  relation.alias.getD relation.name

inductive JoinKind where
  | inner
  | left
  | outer
deriving DecidableEq

def JoinKind.text : JoinKind → String
  | inner => "INNER"
  | left => "LEFT"
  | outer => "FULL OUTER"

/-- How far apart in time two joined records may be. -/
structure Within where
  before : Duration
  after : Duration
deriving DecidableEq

namespace Within

def symmetric (size : Duration) : Within :=
  ⟨size, size⟩

def text (within : Within) : String :=
  if within.before = within.after then "WITHIN " ++ within.before.text
  else "WITHIN (" ++ within.before.text ++ ", " ++ within.after.text ++ ")"

end Within

structure Join where
  kind : JoinKind
  relation : Relation
  criteria : Expr
  within : Option Within

/-- A join of the sources so far with the next one: the left key is read from the sources so far and
the right key from the next one. -/
structure BoundJoin where
  leftKey : Expr
  rightKey : Expr
  kind : JoinKind
  within : Option Within

def BoundJoin.text (join : BoundJoin) : String :=
  let keys := join.kind.text ++ " JOIN ON " ++ join.leftKey.text ++ " = " ++ join.rightKey.text
  match join.within with
  | none => keys
  | some within => keys ++ " " ++ within.text

/-! ## Items of a select list -/

inductive Projection where
  /-- An expression, with the name of the output column if one is given. -/
  | single (expr : Expr) (name : Option ColumnName)
  /-- All columns of one source, or of all sources. -/
  | star (source : Option SourceName)

namespace Projection

def same : Projection → Projection → Bool
  | single e name, single e' name' => e.same e' && name == name'
  | star source, star source' => source == source'
  | _, _ => false

def text : Projection → String
  | single e none => e.text
  | single e (some name) => e.text ++ " AS " ++ name.text
  | star none => "*"
  | star (some source) => source.text ++ ".*"

def columns : Projection → List ColumnRef
  | single e _ => e.columns
  | star _ => []

def calls : Projection → List Call
  | single e _ => e.calls
  | star _ => []

end Projection

/-! ## Whole queries -/

inductive Emission where
  /-- Every change of the result. -/
  | changes
  /-- The final result of each window. -/
  | final
deriving DecidableEq

structure Query where
  select : List Projection
  relation : Relation
  joins : List Join := []
  filter : Option Expr := none
  grouping : List Expr := []
  window : Option Window := none
  having : Option Expr := none
  partitioning : Option Expr := none
  limit : Option UInt32 := none
  emission : Emission := .changes

end StreamQuery
