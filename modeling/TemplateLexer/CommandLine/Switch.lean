/-! The switches of the command line and how they are spelled. -/

set_option autoImplicit false

namespace TemplateLexer

inductive Format where
  | text
  | json
  deriving DecidableEq, Repr

namespace Format

def name : Format → List Char
  | .text => "text".toList
  | .json => "json".toList

def ofName? (name : List Char) : Option Format :=
  [Format.text, .json].find? (·.name = name)

end Format

namespace CommandLine

inductive Switch where
  | help
  | output
  | format
  | config
  | comments (strict : Bool)
  | watch
  | verbose
  deriving DecidableEq, Repr

namespace Switch

/-- Every spelling, in the order in which they are offered to a reader. -/
def spellings : List (List Char × Switch) :=
  [("-h", help), ("--help", help), ("-o", output), ("--output", output), ("-f", format),
   ("--format", format), ("--config", config), ("--strict-comments", comments true),
   ("--no-strict-comments", comments false), ("--watch", watch), ("-v", verbose),
   ("--verbose", verbose)].map fun (spelling, switch) => (spelling.toList, switch)

def takesValue : Switch → Bool
  | .output | .format | .config => true
  | .help | .comments _ | .watch | .verbose => false

def title : Switch → String
  | .help => "-h/--help"
  | .output => "-o/--output"
  | .format => "-f/--format"
  | .config => "--config"
  | .comments _ => "--strict-comments/--no-strict-comments"
  | .watch => "--watch"
  | .verbose => "-v/--verbose"

end Switch

end CommandLine

end TemplateLexer
