import CobolDialects.Settings.Error

/-!
# Reports of failures

A report tells what the program was about to do and, below it, why it failed: a single cause is
indented, several are numbered. The lines of a cause stand below one another.
-/

namespace CobolDialects.CommandLine

/-- A failure: what was attempted, and the causes from the nearest to the remotest. -/
structure Report where
  context : String
  causes : List String
deriving DecidableEq, Repr

namespace Report

/-- A text with something put behind each line break. -/
def indented (indent : String) (text : String) : String :=
  String.ofList (text.toList.flatMap fun c => if c = '\n' then '\n' :: indent.toList else [c])

/-- A cause and its number among several. -/
def numbered (n : Nat) (cause : String) : String :=
  let number := toString n
  String.ofList (List.replicate (5 - number.length) ' ') ++ number ++ ": " ++
    indented "       " cause

def causeLines : List String → List String
  | [] => []
  | [cause] => ["", "Caused by:", "    " ++ indented "    " cause]
  | causes => "" :: "Caused by:" :: causes.mapIdx numbered

def text (r : Report) : String :=
  "\n".intercalate (("Error: " ++ r.context) :: causeLines r.causes) ++ "\n"

end Report

end CobolDialects.CommandLine
