import CobolDialects.CommandLine.Basic
import CobolDialects.Text.Terminal

/-!
# Help texts and usage errors

The text of every help topic, and the line with which a usage error begins.
-/

namespace CobolDialects.CommandLine

/-- The name and version of the program. -/
def versionText : String := "dialect-registry 0.1.0\n"

/-- A text of several lines. -/
def ofLines (lines : List String) : String := "\n".intercalate lines ++ "\n"

/-- What the program is for. -/
def purpose : String := "Registry of COBOL dialect plugins"

def rootHelp : String := ofLines [
  purpose,
  "",
  "Usage: dialect-registry [OPTIONS] <COMMAND>",
  "",
  "Commands:",
  "  list      List registered dialects",
  "  show      Show one dialect as JSON",
  "  register  Register a dialect, replacing any dialect with the same name",
  "  paths     Print the grammar path of every registered dialect",
  "  help      Print this message or the help of the given subcommand(s)",
  "",
  "Options:",
  "      --store <STORE>          Settings backend [default: json] [possible values: json, sqlite]",
  "      --settings <SETTINGS>    Settings file (defaults to the user config directory)",
  "      --key <KEY>              Settings key holding the dialect list " ++
    "[default: cobol-lsp.dialect.registry]",
  "      --log-level <LOG_LEVEL>  Log filter, overridden by RUST_LOG [default: info]",
  "  -h, --help                   Print help",
  "  -V, --version                Print version"]

def listHelp : String := ofLines [
  "List registered dialects",
  "",
  "Usage: dialect-registry list [OPTIONS]",
  "",
  "Options:",
  "      --json  Print the list as JSON",
  "  -h, --help  Print help"]

def showHelp : String := ofLines [
  "Show one dialect as JSON",
  "",
  "Usage: dialect-registry show <NAME>",
  "",
  "Arguments:",
  "  <NAME>  ",
  "",
  "Options:",
  "  -h, --help  Print help"]

def registerHelp : String := ofLines [
  "Register a dialect, replacing any dialect with the same name",
  "",
  "Usage: dialect-registry register [OPTIONS] " ++
    "--name <NAME> --path <PATH> --extension-id <EXTENSION_ID>",
  "",
  "Options:",
  "      --name <NAME>                  ",
  "      --path <PATH>                  ",
  "      --description <DESCRIPTION>    [default: \"\"]",
  "      --extension-id <EXTENSION_ID>  ",
  "  -h, --help                         Print help"]

def pathsHelp : String := ofLines [
  "Print the grammar path of every registered dialect",
  "",
  "Usage: dialect-registry paths",
  "",
  "Options:",
  "  -h, --help  Print help"]

def helpHelp : String := ofLines [
  "Print this message or the help of the given subcommand(s)",
  "",
  "Usage: dialect-registry help [COMMAND]...",
  "",
  "Arguments:",
  "  [COMMAND]...  Print help for the subcommand(s)"]

def Topic.text : Topic → String
  | .scope .root => rootHelp
  | .scope .list => listHelp
  | .scope .show => showHelp
  | .scope .register => registerHelp
  | .scope .paths => pathsHelp
  | .help => helpHelp

/-- What the user has written, as it is told in a message. -/
def given (text : Bytes) : String := s!"'{Terminal.coloured (shownText text)}'"

/-- What is told about wrong arguments on a terminal. Without any, it is what the program can do. -/
def UsageError.message : UsageError → String
  | .noArguments => rootHelp
  | .missingCommand =>
    "error: 'dialect-registry' requires a subcommand but one was not provided\n"
  | .unknownCommand name => s!"error: unrecognized subcommand {given name}\n"
  | .unexpectedArgument text => s!"error: unexpected argument {given text} found\n"
  | .missingValue slot =>
    s!"error: a value is required for '{slot.shown}' but none was supplied\n"
  | .invalidStore text => s!"error: invalid value {given text} for '--store <STORE>'\n"
  | .repeatedOption slot => s!"error: the argument '{slot.shown}' cannot be used multiple times\n"
  | .repeatedFlag f => s!"error: the argument '--{f.long}' cannot be used multiple times\n"
  | .unexpectedValue text f =>
    s!"error: unexpected value {given text} for '--{f.long}' found; no more were expected\n"
  | .missingRequired slots =>
    ofLines ("error: the following required arguments were not provided:" ::
      slots.map fun slot => "  " ++ slot.shown)
  | .notUtf8 => "error: invalid UTF-8 was detected in one or more arguments\n"

/-- What is told about wrong arguments, without the colours and without control sequences that
stand in the arguments. -/
def UsageError.text (e : UsageError) : String := Terminal.kept e.message

end CobolDialects.CommandLine
