/-!
# Usage

Why the words of a command line are not carried out, and the help text.
-/

namespace Breadcrumb.CommandLine

/-- Why the words of a command line are not carried out. -/
inductive Usage where
  | unknownArgument
  | unknownAction
  | missingOperand
  | invalidNumber
  | missingValue
  | repeatedOption
  | unexpectedValue
  /-- Help was asked for. -/
  | help
  deriving DecidableEq, Repr

namespace Usage

def message : Usage → String
  | unknownArgument => "unexpected argument"
  | unknownAction => "unrecognized action"
  | missingOperand => "an operand of the action is missing"
  | invalidNumber => "a value is not a number"
  | missingValue => "an option needs a value"
  | repeatedOption => "an option is given twice"
  | unexpectedValue => "an option takes no value"
  | help => "help was asked for"

def helpLines : List String :=
  ["Prints the structural path of lines of a YAML document read from standard input",
    "",
    "Usage: yaml-path [OPTIONS] [ACTION]",
    "",
    "Actions:",
    "  get-path LINE      the path of the element on a line",
    "  index-expr LINE    the same as a bracketed key expression",
    "  chain LINE         the ancestors of a line, outermost first",
    "  paths [--force]    the path of every element, one on each line",
    "  paths-0 [--force]  the path of every element, separated by NUL characters",
    "  locate PATH        the numbers of the lines with a path",
    "",
    "Options:",
    "  --color, --no-color          turn colors on or off",
    "  -V, --version                print the version",
    "  --log-time                   put the time in front of log lines",
    "  -v, --verbose                log more",
    "  -l, --log COMPONENT[=LEVEL]  set the log level of a component",
    "  -q, --quiet                  do not tell when nothing is found",
    "  -f, --file FILE              read FILE",
    "  -s, --separator TEXT         what stands between keys (a dot)",
    "  -e, --escape                 escape separators and backslashes inside keys",
    "  --double-quotes              use double quotes in key expressions",
    "  --tab-width N                columns per tab (8)",
    "  --max-size N                 largest document gone through line by line (1048576)",
    "  -h, --help                   print this text"]

def helpText : String := String.join (helpLines.map (· ++ "\n"))

end Usage

end Breadcrumb.CommandLine
