/-!
# Help

The texts that explain the command.
-/

namespace Cobol.CommandLine

/-- The name of the command. -/
def commandName : String := "cobol-run"

/-- The version of the command. -/
def versionText : String := "0.1.0"

/-- Lines of text, each with its line feed. -/
def linesText (lines : List String) : List Char :=
  lines.flatMap fun l ↦ l.toList ++ ['\n']

/-- How the command is called. -/
def usageText : List Char :=
  linesText
    ["usage: cobol-run [-h] [--version] [--input FILE] [-o FILE] [--json]",
     "                 [--include-source-info] [--config FILE] [-v] [-q]",
     "                 [source]"]

/-- What the command does and which options it has. -/
def helpText : List Char :=
  usageText ++ linesText
    ["",
     "COBOL Interpreter - Runs programs written in a small COBOL subset.",
     "",
     "positional arguments:",
     "  source                Path to the COBOL source file to run (default: built-",
     "                        in sample)",
     "",
     "options:",
     "  -h, --help            show this help message and exit",
     "  --version             show program's version number and exit",
     "",
     "Input/Output Options:",
     "  --input FILE          File supplying ACCEPT input, one value per line",
     "                        (default: stdin)",
     "  -o FILE, --output FILE",
     "                        Write program output to FILE instead of stdout",
     "  --json                Emit a JSON document with program name, output lines",
     "                        and timing",
     "  --include-source-info",
     "                        Include source file metadata in JSON output (path,",
     "                        line count)",
     "",
     "Configuration:",
     "  --config FILE         Path to YAML configuration file",
     "",
     "Logging:",
     "  -v, --verbose         Enable verbose output (debug level logging)",
     "  -q, --quiet           Suppress all output except errors",
     "",
     "Examples:",
     "  cobol-run program.cob",
     "  cobol-run program.cob --input answers.txt",
     "  cobol-run program.cob --json -o ./out/result.json",
     "  cobol-run                      # runs the built-in sample program",
     "        "]

end Cobol.CommandLine
