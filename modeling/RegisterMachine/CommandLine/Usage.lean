/-!
# The help text

What the program says about itself when it is asked for help, or when it is
called in a way that it does not understand.
-/

namespace RegisterMachine.CommandLine

/-- The lines of the help text for a program that was called by the given name. -/
def usageLines (program : String) : List String :=
  ["SML Interpreter",
    "",
    "USAGE:",
    "    " ++ program ++ " <program.sml> [OPTIONS]",
    "",
    "ARGS:",
    "    <program.sml>    SML source file to translate and run",
    "",
    "OPTIONS:",
    "    -r, --registers <n>   Register file size (defaults to $SML_REGISTERS or 32)",
    "    -t, --trace           Log every executed instruction",
    "    -d, --dump            Print the translated program before running",
    "        --no-timestamp    Omit timestamps from log lines",
    "    -h, --help            Print this help message",
    "",
    "EXAMPLES:",
    "    " ++ program ++ " factorial.sml",
    "    " ++ program ++ " factorial.sml --trace --registers 64"]

/-- The help text. -/
def usage (program : String) : String :=
  String.join ((usageLines program).map (· ++ "\n"))

end RegisterMachine.CommandLine
