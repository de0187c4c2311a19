/-!
# Help

The texts that a command line can ask for. A text is made of pieces: headings, what is to be typed
as it stands, and all else. Where styles are wanted, each piece is put between the control sequences
of its style, and otherwise the pieces are written as they are.
-/

namespace Recast

/-- How a piece of a text is to look. -/
inductive Style where
  | plain
  /-- Bold and underlined. -/
  | heading
  /-- Bold: what is to be typed. -/
  | typed
deriving DecidableEq

/-- The control sequences that begin a style. -/
def Style.start : Style → String
  | .plain => ""
  | .heading => "\x1b[1m\x1b[4m"
  | .typed => "\x1b[1m"

/-- The control sequence that ends a style. -/
def Style.stop : Style → String
  | .plain => ""
  | .heading | .typed => "\x1b[0m"

/-- A text made of pieces. -/
abbrev Help := List (Style × String)

namespace Help

/-- Writes a text with its styles or without them. -/
def render (styled : Bool) (h : Help) : String :=
  String.join (h.map fun (style, text) =>
    if styled then style.start ++ text ++ style.stop else text)

/-! ## 1. Parts -/

/-- What a text is about, and how the command is used. -/
def usage (about command arguments : String) : Help :=
  [(.plain, about ++ "\n\n"), (.heading, "Usage:"), (.plain, " "), (.typed, command),
   (.plain, arguments ++ "\n")]

/-- The heading of a list. -/
def heading (text : String) : Help := [(.plain, "\n"), (.heading, text), (.plain, "\n")]

/-- A line about a command. -/
def command (name about : String) : Help := [(.plain, "  "), (.typed, name), (.plain, about ++ "\n")]

/-- A line about an option that has only a long name. -/
def option (name about : String) : Help :=
  [(.plain, "      "), (.typed, name), (.plain, about ++ "\n")]

/-- A line about an option that has a short name too. -/
def shortOption (short long about : String) : Help :=
  [(.plain, "  "), (.typed, short), (.plain, ", "), (.typed, long), (.plain, about ++ "\n")]

/-- The option that names a configuration file. -/
def configOption : Help :=
  option "--config" (" <PATH>  Config file (defaults to REFMINE_CONFIG_PATH, then refmine.toml in " ++
    "the current directory)")

/-- The option that asks for help. -/
def helpOption : Help := shortOption "-h" "--help" "           Print help"

/-! ## 2. Texts -/

/-- The name and version of the program. -/
def version : Help := [(.plain, "refmine 0.1.0\n")]

/-- The help on the program. -/
def onProgram : Help :=
  usage "Classify renames and type changes in Java AST edit scripts" "refmine" " [OPTIONS] <COMMAND>" ++
  heading "Commands:" ++
  command "detect" "  Detect refactorings in one or more diff documents" ++
  command "config" "  Print the effective configuration as TOML" ++
  command "help" "    Print this message or the help of the given subcommand(s)" ++
  heading "Options:" ++ configOption ++ helpOption ++
  shortOption "-V" "--version" "        Print version"

/-- The help on `detect`. -/
def onDetect : Help :=
  usage "Detect refactorings in one or more diff documents" "refmine detect" " [OPTIONS] <DOC>..." ++
  heading "Arguments:" ++
  [(.plain, "  <DOC>...  Diff documents (JSON) produced from GumTree output\n")] ++
  heading "Options:" ++ configOption ++
  option "--json" "           Emit the records as a JSON array" ++ helpOption

/-- The help on `config`. -/
def onConfig : Help :=
  usage "Print the effective configuration as TOML" "refmine config" " [OPTIONS]" ++
  heading "Options:" ++ configOption ++ helpOption

/-- The help on `help`. -/
def onHelp : Help :=
  usage "Print this message or the help of the given subcommand(s)" "refmine help" " [COMMAND]..." ++
  heading "Arguments:" ++ [(.plain, "  [COMMAND]...  Print help for the subcommand(s)\n")]

end Help

end Recast
