import StreamQuery.Roster
import StreamQuery.Schema
import StreamQuery.Topic

/-! # Sources and catalogs -/

set_option autoImplicit false

namespace StreamQuery

/-! ## Sources

What a catalog knows of a stream, a table or a registered query.
-/

inductive SourceKind where
  | stream
  | table
  /-- The result of a registered query. It cannot be an input of another query yet. -/
  | subquery
deriving DecidableEq

def SourceKind.text : SourceKind → String
  | stream => "STREAM"
  | table => "TABLE"
  | subquery => "SUBQUERY"

structure Source where
  name : SourceName
  kind : SourceKind
  schema : Schema
  topic : Topic
deriving DecidableEq

namespace Source

def isWindowed (source : Source) : Bool :=
  source.topic.keyFormat.isWindowed

def text (source : Source) : String :=
  source.kind.text ++ " " ++ source.name.text ++ " (topic: " ++ source.topic.name ++ ")"

end Source

/-! ## Catalogs

The sources that queries can name, in the order of their registration.
-/

structure Catalog where
  sources : Roster Source.name

namespace Catalog

def empty : Catalog :=
  ⟨.empty⟩

def source? (catalog : Catalog) (name : SourceName) : Option Source :=
  catalog.sources.get? name

def register (catalog : Catalog) (source : Source) : Catalog :=
  ⟨catalog.sources.insert source⟩

def drop (catalog : Catalog) (name : SourceName) : Catalog :=
  ⟨catalog.sources.erase name⟩

def names (catalog : Catalog) : List SourceName :=
  catalog.sources.keys

def ofList (sources : List Source) : Catalog :=
  ⟨.ofList sources⟩

/-! ### Changes -/

inductive Change where
  | register (source : Source)
  | drop (name : SourceName)

def Change.name : Change → SourceName
  | register source => source.name
  | drop name => name

/-- The catalog after a change, and the source that the change took out of it. -/
def apply (catalog : Catalog) : Change → Catalog × Option Source
  | .register source => (catalog.sources.put source).map Catalog.mk id
  | .drop name => (catalog.sources.remove name).map Catalog.mk id

def applyAll (catalog : Catalog) (changes : List Change) : Catalog :=
  changes.foldl (fun catalog change => (catalog.apply change).1) catalog

/-! ### What a change does to names and sources -/

theorem apply_snd (catalog : Catalog) (change : Change) :
    (catalog.apply change).2 = catalog.source? change.name := by
  cases change with
  | register source => exact catalog.sources.put_snd source
  | drop name => exact catalog.sources.remove_snd name

theorem names_register (catalog : Catalog) (source : Source) :
    (catalog.register source).names =
      if source.name ∈ catalog.names then catalog.names else catalog.names ++ [source.name] :=
  Roster.keys_insert catalog.sources source

theorem names_drop (catalog : Catalog) (name : SourceName) :
    (catalog.drop name).names = catalog.names.filter fun other => other ≠ name :=
  Roster.keys_erase catalog.sources name

theorem source?_register (catalog : Catalog) (source : Source) (name : SourceName) :
    (catalog.register source).source? name =
      if name = source.name then some source else catalog.source? name :=
  Roster.get?_insert catalog.sources source name

theorem source?_drop (catalog : Catalog) (dropped name : SourceName) :
    (catalog.drop dropped).source? name =
      if name = dropped then none else catalog.source? name :=
  Roster.get?_erase catalog.sources dropped name

theorem source?_isSome_iff {catalog : Catalog} {name : SourceName} :
    (catalog.source? name).isSome ↔ name ∈ catalog.names :=
  Roster.get?_isSome_iff

theorem name_of_source? {catalog : Catalog} {name : SourceName} {source : Source}
    (found : catalog.source? name = some source) : source.name = name :=
  Roster.key_of_get? found

end Catalog

end StreamQuery
