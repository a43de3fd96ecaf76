import Kaleidoscope.CommandLine.Options

/-!
# Help

The texts that the program prints instead of starting.
-/

namespace Kaleidoscope

/-- Help in short. -/
def shortHelp : String :=
  "Usage: kaleidoscope-front [OPTIONS] [FILE]\n" ++
  "\n" ++
  "Arguments:\n" ++
  "  [FILE]  A positional file containing Kaleidoscope code to parse, if not " ++
  "given, starts interpreter instead\n" ++
  "\n" ++
  "Options:\n" ++
  "      --inspect-tree <INSPECT_TREE>  Prints out the AST to stdout after every " ++
  "top-level item parsed [possible values: debug, compact]\n" ++
  "      --prompt <PROMPT>              Prompt shown by the interpreter before " ++
  "each top-level item [default: \"ready> \"]\n" ++
  "  -h, --help                         Print help (see more with '--help')\n" ++
  "  -V, --version                      Print version\n"

/-- Help in full. -/
def fullHelp : String :=
  "Usage: kaleidoscope-front [OPTIONS] [FILE]\n" ++
  "\n" ++
  "Arguments:\n" ++
  "  [FILE]\n" ++
  "          A positional file containing Kaleidoscope code to parse, if not " ++
  "given, starts interpreter instead\n" ++
  "\n" ++
  "Options:\n" ++
  "      --inspect-tree <INSPECT_TREE>\n" ++
  "          Prints out the AST to stdout after every top-level item parsed\n" ++
  "\n" ++
  "          Possible values:\n" ++
  "          - debug:   Rust debug representation of the nodes\n" ++
  "          - compact: One line, fully parenthesised\n" ++
  "\n" ++
  "      --prompt <PROMPT>\n" ++
  "          Prompt shown by the interpreter before each top-level item\n" ++
  "          \n" ++
  "          [default: \"ready> \"]\n" ++
  "\n" ++
  "  -h, --help\n" ++
  "          Print help (see a summary with '-h')\n" ++
  "\n" ++
  "  -V, --version\n" ++
  "          Print version\n"

/-- The name and the version of the program. -/
def versionText : String := "kaleidoscope-front 0.1.0\n"

/-- What is wrong with the arguments, in words. -/
def UsageError.text : UsageError → String
  | unknownArgument => "error: unexpected argument\n"
  | invalidValue => "error: a value is missing or invalid\n"
  | argumentConflict => "error: an option is given more than once\n"
  | tooManyValues => "error: unexpected value\n"

/-- What to print instead of starting. -/
def Stop.text : Stop → String
  | help full => if full then fullHelp else shortHelp
  | version => versionText
  | misuse error => error.text

end Kaleidoscope
