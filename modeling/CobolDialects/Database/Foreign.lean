import CobolDialects.Database.Affinity

/-!
# What other programs do to a settings database

Rows put in behind the store's back, relations of another shape, and the whole content of the
relation.
-/

namespace CobolDialects

namespace Shape

/-- What a relation of a shape is called. -/
def kindName : Shape → String
  | .view => "view"
  | _ => "table"

/-- What stands behind the name in the statement by which another program creates the relation. -/
def definition : Shape → String
  | .keyed => "(key TEXT PRIMARY KEY, value TEXT NOT NULL, updated_at INTEGER NOT NULL)"
  | .unstamped => "(key TEXT PRIMARY KEY, value TEXT NOT NULL)"
  | .unkeyed => "(key TEXT, value TEXT, updated_at INTEGER)"
  | .view => "AS SELECT 'key' AS key, '[]' AS value, 7 AS updated_at"

/-- The beginning of that statement, up to the name. -/
def opening (s : Shape) : String := s!"CREATE {s.kindName.map Char.toUpper} "

/-- That statement. -/
def creation (s : Shape) : String := s!"{s.opening}settings {s.definition}"

end Shape

namespace Database

/-- Why another program's statement fails. -/
inductive Refusal where
  | nullValue
  /-- There is a relation when one of another shape is to be created. -/
  | alreadyThere (present created : Shape)
  | viewIsNoTable
  | statement (error : Error)
deriving DecidableEq, Repr

def Refusal.message : Refusal → String
  | .nullValue => "NOT NULL constraint failed: settings.value"
  | .alreadyThere present created =>
    s!"{present.kindName} settings already exists in {created.creation}" ++
      s!" at offset {created.opening.length}"
  | .viewIsNoTable => "use DROP VIEW to delete view settings"
  | .statement error => error.message

/-- Puts a row at the end, instead of the row that has its key where there is a key. -/
def put (db : Database) (key : String) (value : Cell) (stamp : Stamp) : Except Refusal Database :=
  match db.relation with
  | none => .error (.statement .noTable)
  | some r =>
    match r.shape with
    | .unstamped => .error (.statement .stampUnwritable)
    | .view => .error (.statement .isView)
    | .keyed =>
      if value = .null then .error .nullValue
      else
        .ok (db.setRows
          (r.rows.filter (·.key ≠ key) ++ [⟨key, textColumn value, stamp.cell⟩]))
    | .unkeyed => .ok (db.setRows (r.rows ++ [⟨key, textColumn value, stamp.cell⟩]))

/-- Removes the settings table. -/
def drop (db : Database) : Except Refusal Database :=
  match db.shape? with
  | none => .error (.statement .noTable)
  | some .view => .error .viewIsNoTable
  | some _ => .ok (db.redeclare none)

/-- The rows of a relation as it is created: a view has a single one. -/
def createdRows : Shape → List Row
  | .view => [⟨"key", .text (bytesOf "[]"), .integer 7⟩]
  | _ => []

/-- Creates the settings relation in a shape. -/
def create (db : Database) (shape : Shape) : Except Refusal Database :=
  match db.shape? with
  | some present => .error (.alreadyThere present shape)
  | none => .ok (db.redeclare (some ⟨shape, createdRows shape⟩))

/-- The rows in the order of their keys. -/
def sortedRows (r : Relation) : List Row := r.rows.mergeSort fun a b => !textBefore b.key a.key

end Database

end CobolDialects
