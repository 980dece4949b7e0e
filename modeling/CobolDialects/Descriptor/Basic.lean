import CobolDialects.Json.Printer

/-!
# Dialect descriptors

A descriptor says where the grammar of a dialect plugin lies and which extension owns it. It has two
JSON forms: the record with its fields in the order in which they are declared, which is printed for
people, and the value with its members sorted, which is stored.
-/

namespace CobolDialects

/-- One registered dialect plugin. -/
structure Descriptor where
  name : String
  /-- Where the grammar of the dialect lies. -/
  path : String
  description : String
  /-- The extension that registered the dialect. -/
  owner : String
deriving DecidableEq, Repr, Inhabited

namespace Descriptor

/-- The fields of a record, in the order in which they are declared. -/
inductive Field where
  | name | path | description | owner
deriving DecidableEq, Repr

/-- The name under which a field is stored. -/
def Field.label : Field → String
  | .name => "name"
  | .path => "path"
  | .description => "description"
  | .owner => "extensionId"

def Field.ofLabel? (label : String) : Option Field :=
  [Field.name, .path, .description, .owner].find? (·.label = label)

def get (d : Descriptor) : Field → String
  | .name => d.name
  | .path => d.path
  | .description => d.description
  | .owner => d.owner

def member (d : Descriptor) (f : Field) : String × Json := (f.label, .str (d.get f))

/-- The record in the order of its fields. -/
def record (d : Descriptor) : Json :=
  .obj [d.member .name, d.member .path, d.member .description, d.member .owner]

/-- The value that is stored. -/
def toJson (d : Descriptor) : Json :=
  .obj [d.member .description, d.member .owner, d.member .name, d.member .path]

/-- The line that is listed: the fields separated by tabs, the description last. -/
def line (d : Descriptor) : String := s!"{d.name}\t{d.path}\t{d.owner}\t{d.description}"

theorem canonical_record (d : Descriptor) : d.record.canonical = d.toJson := by
  have path_name : textBefore "path" "name" = false := by decide
  have description_name : textBefore "description" "name" = true := by decide
  have owner_description : textBefore "extensionId" "description" = false := by decide
  have owner_name : textBefore "extensionId" "name" = true := by decide
  simp [record, toJson, member, Field.label, Json.canonical, Json.canonicalMembers, Members.sorted,
    Members.insert, path_name, description_name, owner_description, owner_name]

end Descriptor

end CobolDialects
