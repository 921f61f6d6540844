import TemplateLexer.CommandLine.Switch
import TemplateLexer.Text.Quoted

/-! What a reader is shown of the command line: its usage, help, and the faults of its use. -/

set_option autoImplicit false

namespace TemplateLexer.CommandLine

inductive UsageFault where
  | ambiguous (word : List Char) (candidates : List (List Char))
  | missingValue (switch : Switch)
  | superfluousValue (switch : Switch) (value : List Char)
  | unknownFormat (value : List Char)
  | missingInput
  | unrecognized (words : List (List Char))
  deriving DecidableEq, Repr

def ofSwitch (switch : Switch) (complaint : List Char) : List Char :=
  "argument ".toList ++ switch.title.toList ++ ": ".toList ++ complaint

namespace UsageFault

def message : UsageFault → List Char
  | .ambiguous word candidates =>
    "ambiguous option: ".toList ++ word ++ " could match ".toList ++
      List.intercalate ", ".toList candidates
  | .missingValue switch => ofSwitch switch "expected one argument".toList
  | .superfluousValue switch value =>
    ofSwitch switch ("ignored explicit argument ".toList ++ Text.quoted value)
  | .unknownFormat value =>
    ofSwitch .format ("invalid choice: ".toList ++ Text.quoted value ++
      " (choose from 'text', 'json')".toList)
  | .missingInput => "the following arguments are required: input".toList
  | .unrecognized words =>
    "unrecognized arguments: ".toList ++ List.intercalate [' '] words

end UsageFault

def page (lines : List String) : List Char :=
  lines.flatMap fun line => line.toList ++ ['\n']

def usage : List Char :=
  page
    ["usage: ventolex [-h] [-o OUTPUT] [-f \x7btext,json\x7d] [--config FILE]",
     "                [--strict-comments | --no-strict-comments] [--watch] [-v]",
     "                input"]

def help : List Char :=
  usage ++ page
    ["",
     "Tokenize \x7b\x7b \x7d\x7d template source",
     "",
     "positional arguments:",
     "  input                 Input template file",
     "",
     "options:",
     "  -h, --help            show this help message and exit",
     "  -o OUTPUT, --output OUTPUT",
     "                        Output file (default: stdout)",
     "  -f \x7btext,json\x7d, --format \x7btext,json\x7d",
     "                        Output format (default: text)",
     "  --config FILE         Config file (default: auto-discover ventolex.toml)",
     "  --strict-comments, --no-strict-comments",
     "                        Fail on an unterminated \x7b\x7b# comment instead of",
     "                        truncating",
     "  --watch               Watch for changes and re-tokenize",
     "  -v, --verbose         Debug logging to stderr"]

def UsageFault.render (fault : UsageFault) : List Char :=
  usage ++ "ventolex: error: ".toList ++ fault.message ++ ['\n']

end TemplateLexer.CommandLine
