import CobolDialects.Descriptor.Basic
import CobolDialects.Text.Quoted

/-!
# Reading descriptors from values

A record is an object that has the four fields, whatever else it has, or an array of exactly four
strings in the order of the fields. Of an object with several faults the first wrongly typed field
is reported, in the order of the members, and only then a missing one, in the order of the fields.
-/

namespace CobolDialects.Descriptor

/-- What a value should have been. -/
inductive Expected where
  | record | string
deriving DecidableEq, Repr

def Expected.text : Expected → String
  | .record => "struct DialectDescriptor"
  | .string => "a string"

/-- Why a value is not a descriptor. -/
inductive DecodeError where
  | wrongType (found : Json) (expected : Expected)
  | missing (field : Field)
  | tooFew (count : Nat)
  | tooMany (count : Nat)

/-- A value as it is named in an error. -/
def found : Json → String
  | .null => "null"
  | .bool b => s!"boolean `{b}`"
  | .num (.int n) => s!"integer `{String.ofList (Json.writeInt n.value)}`"
  | .num (.float x) => s!"floating point `{String.ofList x.write}`"
  | .str s => s!"string {Quoted.text s}"
  | .arr _ => "sequence"
  | .obj _ => "map"

def DecodeError.message : DecodeError → String
  | .wrongType v expected => s!"invalid type: {found v}, expected {expected.text}"
  | .missing field => s!"missing field `{field.label}`"
  | .tooFew count => s!"invalid length {count}, expected struct DialectDescriptor with 4 elements"
  | .tooMany count => s!"invalid length {count}, expected fewer elements in array"

def decodeString : Json → Except DecodeError String
  | .str s => .ok s
  | v => .error (.wrongType v .string)

/-- The first member that is a field of another type than string. -/
def wrongField? : Members → Option Json
  | [] => none
  | (label, v) :: rest =>
    if (Field.ofLabel? label).isSome ∧ v.kind ≠ .string then some v else wrongField? rest

def field (ms : Members) (f : Field) : Except DecodeError String :=
  match ms.find? f.label with
  | some v => decodeString v
  | none => .error (.missing f)

/-- The descriptor of an object. -/
def ofMembers (ms : Members) : Except DecodeError Descriptor :=
  match wrongField? ms with
  | some v => .error (.wrongType v .string)
  | none => do
    let name ← field ms .name
    let path ← field ms .path
    let description ← field ms .description
    let owner ← field ms .owner
    return ⟨name, path, description, owner⟩

/-- The descriptor of an array. -/
def ofItems : List Json → Except DecodeError Descriptor
  | [name, path, description, owner] => do
    let name ← decodeString name
    let path ← decodeString path
    let description ← decodeString description
    let owner ← decodeString owner
    return ⟨name, path, description, owner⟩
  | items => do
    let _ ← (items.take 4).mapM decodeString
    .error (if items.length < 4 then .tooFew items.length else .tooMany items.length)

/-- The descriptor that a value stands for. -/
def ofJson : Json → Except DecodeError Descriptor
  | .obj members => ofMembers members
  | .arr items => ofItems items
  | v => .error (.wrongType v .record)

/-- The descriptors that values stand for, or the fault of the first that stands for none. -/
def ofJsonList : List Json → Except DecodeError (List Descriptor)
  | [] => .ok []
  | v :: rest => do
    let d ← ofJson v
    let ds ← ofJsonList rest
    return d :: ds

end CobolDialects.Descriptor
