import CobolDialects.Database.Basic
import CobolDialects.Json.Printer
import CobolDialects.Json.Reader

/-!
# Databases as documents

A form in which a database can be kept in a file: a document with its version, its way of keeping
changes, what its declaration says, and its rows.
-/

namespace CobolDialects.Database

def shapeName : Shape → String
  | .keyed => "keyed"
  | .unstamped => "unstamped"
  | .unkeyed => "unkeyed"
  | .view => "view"

def shapeOfName? (name : String) : Option Shape :=
  [Shape.keyed, .unstamped, .unkeyed, .view].find? (shapeName · = name)

/-- Two digits for each byte. -/
def hexText (bytes : Bytes) : String :=
  String.ofList (bytes.flatMap fun b =>
    [Nat.digitChar (b.toNat / 16), Nat.digitChar (b.toNat % 16)])

def ofHexText : List Char → Option Bytes
  | [] => some []
  | a :: b :: rest =>
    match Json.hexValue? a, Json.hexValue? b with
    | some high, some low => (ofHexText rest).map (UInt8.ofNat (high * 16 + low) :: ·)
    | _, _ => none
  | [_] => none

/-- A cell by its storage class and a text. -/
def ofCell : Cell → Json
  | .null => .arr [.str "null", .str ""]
  | .integer n => .arr [.str "integer", .str (toString n)]
  | .real x => .arr [.str "real", .str (toString x.bits.toNat)]
  | .text bytes => .arr [.str "text", .str (hexText bytes)]
  | .blob bytes => .arr [.str "blob", .str (hexText bytes)]

def toCell? : Json → Option Cell
  | .arr [.str kind, .str text] =>
    if kind = "null" then some .null
    else if kind = "integer" then text.toInt?.map .integer
    else if kind = "real" then text.toNat?.map fun n => .real ⟨UInt64.ofNat n⟩
    else if kind = "text" then (ofHexText text.toList).map .text
    else if kind = "blob" then (ofHexText text.toList).map .blob
    else none
  | _ => none

def ofRow (row : Row) : Json := .arr [.str row.key, ofCell row.value, ofCell row.updatedAt]

def toRow? : Json → Option Row
  | .arr [.str key, value, updatedAt] =>
    match toCell? value, toCell? updatedAt with
    | some value, some updatedAt => some ⟨key, value, updatedAt⟩
    | _, _ => none
  | _ => none

/-- The first item of every document. -/
def documentMark : String := "settings database"

/-- What the end of a document tells of the settings relation. -/
def ofRelation : Option Relation → List Json
  | none => []
  | some r => .str (shapeName r.shape) :: r.rows.map ofRow

/-- The document of a database. -/
def toDocument (db : Database) : Json :=
  .arr (.str documentMark :: .str (toString db.version) :: .bool db.logged ::
    ofRelation db.relation)

/-- The settings relation that the end of a document tells of. -/
def ofRelation? : List Json → Option (Option Relation)
  | [] => some none
  | .str shape :: rows =>
    match shapeOfName? shape, rows.mapM toRow? with
    | some shape, some rows => some (some ⟨shape, rows⟩)
    | _, _ => none
  | _ => none

/-- The database of a document. -/
def ofDocument? : Json → Option Database
  | .arr (.str mark :: .str version :: .bool logged :: rest) =>
    match version.toNat?, ofRelation? rest with
    | some version, some relation =>
      if mark = documentMark then some ⟨relation, version, logged⟩ else none
    | _, _ => none
  | _ => none

/-- The database kept in the content of a file. -/
def ofBytes? (bytes : Bytes) : Option Database :=
  match textOf? bytes with
  | none => none
  | some text => (Json.read text).toOption.bind ofDocument?

def toBytes (db : Database) : Bytes := bytesOf db.toDocument.toText

end CobolDialects.Database
