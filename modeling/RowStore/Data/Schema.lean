/-
# Schemas

A schema lists the key fields and the value fields of a database. Names are unique across both
lists. Records are ordered by the key fields, the first of them leading; the fields of a schema
are its key fields in the order they were added, then its value fields in the order they were
added.

Key definitions: `Schema`, `Schema.add?`, `Schema.fields`, `Schema.leading?`.
-/
import RowStore.Data.Field

namespace RowStore

/-- The layout of a database. -/
structure Schema where
  keys : List Field := []
  values : List Field := []
  deriving DecidableEq, Repr, Inhabited

namespace Schema

/-- All fields, the key fields first. -/
def fields (schema : Schema) : List Field := schema.keys ++ schema.values

/-- The field of a given name. -/
def field? (schema : Schema) (name : String) : Option Field :=
  schema.fields.find? (·.name == name)

/-- Adds a field behind those of its list, unless its name is taken. -/
def add? (schema : Schema) (field : Field) : Option Schema :=
  if (schema.field? field.name).isSome then none
  else if field.isKey then some { schema with keys := schema.keys ++ [field] }
  else some { schema with values := schema.values ++ [field] }

/-- The first key field. -/
def leading? (schema : Schema) : Option Field := schema.keys.head?

/-- The number of fields. -/
def size (schema : Schema) : Nat := schema.keys.length + schema.values.length

/-- A string `key` and a string `value`: the layout of a database declared without one. -/
def standard : Schema where
  keys := [⟨"key", .string, true⟩]
  values := [⟨"value", .string, false⟩]

end Schema
end RowStore
