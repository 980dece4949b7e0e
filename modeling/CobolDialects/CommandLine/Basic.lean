import CobolDialects.Locations
import CobolDialects.Text.Utf8

/-!
# The command line

What the arguments can ask for, and how they can be wrong.
-/

namespace CobolDialects.CommandLine

/-- Where settings are kept. -/
inductive Backend where
  | json | sqlite
deriving DecidableEq, Repr

/-- The options that take a value. -/
inductive Opt where
  | store | settings | key | logLevel
  | name | path | description | owner
deriving DecidableEq, Repr

/-- The name of an option behind the dashes. -/
def Opt.long : Opt → String
  | .store => "store"
  | .settings => "settings"
  | .key => "key"
  | .logLevel => "log-level"
  | .name => "name"
  | .path => "path"
  | .description => "description"
  | .owner => "extension-id"

/-- What stands for the value of an option in messages. -/
def Opt.placeholder : Opt → String
  | .store => "<STORE>"
  | .settings => "<SETTINGS>"
  | .key => "<KEY>"
  | .logLevel => "<LOG_LEVEL>"
  | .name => "<NAME>"
  | .path => "<PATH>"
  | .description => "<DESCRIPTION>"
  | .owner => "<EXTENSION_ID>"

inductive Flag where
  | help | version | json
deriving DecidableEq, Repr

def Flag.long : Flag → String
  | .help => "help"
  | .version => "version"
  | .json => "json"

/-- What takes a value: an option, or the argument in a place of its own. -/
inductive Slot where
  | option (o : Opt)
  | shownName
deriving DecidableEq, Repr

/-- A slot as it is named in messages. -/
def Slot.shown : Slot → String
  | .option o => s!"--{o.long} {o.placeholder}"
  | .shownName => "<NAME>"

/-- The commands, and with them the places in which arguments are read. -/
inductive Scope where
  | root | list | show | register | paths
deriving DecidableEq, Repr

/-- The command of a name. -/
def Scope.ofName? (name : Bytes) : Option Scope :=
  if name = bytesOf "list" then some .list
  else if name = bytesOf "show" then some .show
  else if name = bytesOf "register" then some .register
  else if name = bytesOf "paths" then some .paths
  else none

def Scope.options : Scope → List Opt
  | .root => [.store, .settings, .key, .logLevel]
  | .register => [.name, .path, .description, .owner]
  | .list | .show | .paths => []

def Scope.flags : Scope → List Flag
  | .root => [.help, .version]
  | .list => [.json, .help]
  | .show | .register | .paths => [.help]

/-- The options that have to be given. -/
def Scope.required : Scope → List Slot
  | .show => [.shownName]
  | .register => [.option .name, .option .path, .option .owner]
  | .root | .list | .paths => []

/-- What help can be about. -/
inductive Topic where
  | scope (s : Scope)
  | help
deriving DecidableEq, Repr

/-- How arguments can be wrong. -/
inductive UsageError where
  | noArguments
  | missingCommand
  | unknownCommand (name : Bytes)
  | unexpectedArgument (text : Bytes)
  | missingValue (o : Slot)
  | invalidStore (text : Bytes)
  | repeatedOption (o : Slot)
  | repeatedFlag (f : Flag)
  | unexpectedValue (text : Bytes) (f : Flag)
  | missingRequired (slots : List Slot)
  | notUtf8
deriving DecidableEq, Repr

/-- What the program does instead of a command. -/
inductive Halt where
  | help (topic : Topic)
  | version
  | usage (error : UsageError)
deriving DecidableEq, Repr

inductive Command where
  | list (json : Bool)
  | show (name : String)
  | register (name path description owner : String)
  | paths
deriving DecidableEq, Repr

/-- What well-formed arguments ask for. -/
structure Invocation where
  backend : Backend
  /-- The settings file, if another one than the default is to be used. -/
  settings : Option Path
  key : String
  logLevel : String
  command : Command
deriving DecidableEq, Repr

end CobolDialects.CommandLine
