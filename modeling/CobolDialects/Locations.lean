import CobolDialects.Path

/-!
# Default locations

Settings lie below the configuration directory and the log below the data directory of the
user. Each is taken from its own variable or, if that one is unset, empty or not text, from the home
directory.
-/

namespace CobolDialects.Locations

/-- The settings key that holds the list of registered dialects. -/
def registryKey : String := "cobol-lsp.dialect.registry"

def applicationName : String := "dialect-registry"

def settingsFileName : String := "settings.json"

def databaseFileName : String := "settings.db"

def logFileName : String := "dialect-registry.log"

/-- The filter in use when none is given. -/
def defaultLogLevel : String := "info"

/-- The variables that the program reads. -/
structure Environment where
  configHome : Option Bytes
  dataHome : Option Bytes
  home : Option Bytes
  logFilter : Option Bytes
deriving DecidableEq, Repr

/-- A value that is text. -/
def usable (value : Option Bytes) : Option Bytes := value.filter fun v => (textOf? v).isSome

/-- The application directory below a directory given by a variable, or below a place in the home
directory, or below the working directory. -/
def baseDirectory (dir : Option Bytes) (home : Option Path) (place : Path) : Path :=
  let base : Path :=
    match dir.filter (· ≠ []), home with
    | some given, _ => given
    | none, some home => home.join place
    | none, none => Path.dot
  base.join (bytesOf applicationName)

def configDirectory (env : Environment) : Path :=
  baseDirectory (usable env.configHome) env.home (bytesOf ".config")

def dataDirectory (env : Environment) : Path :=
  baseDirectory (usable env.dataHome) env.home (bytesOf ".local/share")

/-- Where settings are kept in a file. -/
def settingsPath (env : Environment) : Path := (configDirectory env).join (bytesOf settingsFileName)

/-- Where settings are kept in a database. -/
def databasePath (env : Environment) : Path := (configDirectory env).join (bytesOf databaseFileName)

def logPath (env : Environment) : Path := (dataDirectory env).join (bytesOf logFileName)

end CobolDialects.Locations
