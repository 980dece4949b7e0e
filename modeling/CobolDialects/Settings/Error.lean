import CobolDialects.Descriptor.Decode
import CobolDialects.FileSystem.Basic
import CobolDialects.Json.Reader

/-!
# Failures to read or write a settings value

A failure is told by its cause; its wording, and the causes that a report lists below it, are
functions of it.
-/

namespace CobolDialects

/-- Why a value, or the file that holds it, has the wrong shape. -/
inductive ShapeFault where
  /-- The value of the registry is no array. -/
  | notArray (found : Json.Kind)
  /-- An element of the registry is no descriptor. -/
  | element (error : Descriptor.DecodeError)
  /-- The document of a settings file is no object. -/
  | notObject (path : Path) (found : Json.Kind)
  /-- Whatever else a store finds wrong, in its own words. -/
  | other (text : String)

def ShapeFault.message : ShapeFault → String
  | .notArray found => s!"expected an array, found {found.name}"
  | .element error => error.message
  | .notObject path found =>
    s!"settings file {shownText path} must contain a JSON object, found {found.name}"
  | .other text => text

namespace Settings

/-- Why a call to a store fails. -/
inductive Error where
  | io (fault : Fault)
  | json (error : Json.ReadError)
  | database (error : Database.Error)
  | lockPoisoned
  | invalidShape (key : String) (fault : ShapeFault)

namespace Error

/-- The name of an error's class. -/
def className : Error → String
  | .io _ => "Io"
  | .json _ => "Json"
  | .database _ => "Database"
  | .lockPoisoned => "LockPoisoned"
  | .invalidShape _ _ => "InvalidShape"

def message : Error → String
  | .io fault => s!"IO error: {fault.message}"
  | .json error => s!"JSON error: {error.message}"
  | .database error => s!"Database error: {error.message}"
  | .lockPoisoned => "Store lock poisoned"
  | .invalidShape key fault => s!"Invalid value for {key}: {fault.message}"

/-- The error and what lies behind it, each as it is told by itself. -/
def causes (e : Error) : List String :=
  e.message ::
    match e with
    | .io fault => [fault.message]
    | .json error => [error.message]
    | .database error => error.message :: error.cause?.toList
    | .lockPoisoned | .invalidShape _ _ => []

end Error

end Settings

end CobolDialects
