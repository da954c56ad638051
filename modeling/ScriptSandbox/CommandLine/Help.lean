import ScriptSandbox.CommandLine

/-!
# What the program says about itself

The texts that `--help` and `--version` print. Names and options stand in columns, with two blanks
after the widest of them, also where nothing follows.
-/

namespace ScriptSandbox

def versionText : String := "jsbox 0.1.0"

namespace HelpTopic

/-- What a subcommand is for. -/
def about : HelpTopic → String
  | .program => "Run JavaScript snippets in a sandbox"
  | .run => "Execute a file (or \x60-\x60 for stdin)"
  | .resolve => "Print the URL each specifier resolves to"
  | .scan => "List the specifiers a file imports"
  | .help => "Print this message or the help of the given subcommand(s)"

def usage : HelpTopic → String
  | .program => "<COMMAND>"
  | .run => "run [OPTIONS] <FILE>"
  | .resolve => "resolve [OPTIONS] <SPECIFIER>..."
  | .scan => "scan <FILE>"
  | .help => "help [COMMAND]..."

/-- The sections after the usage: their titles, and their rows in two columns. -/
def sections : HelpTopic → List (String × List (String × String))
  | .program =>
    [("Commands",
        [("run", about .run), ("resolve", about .resolve), ("scan", about .scan),
          ("help", about .help)]),
      ("Options", [("-h, --help", "Print help"), ("-V, --version", "Print version")])]
  | .run =>
    [("Arguments", [("<FILE>", "")]),
      ("Options",
        [("    --engine <ENGINE>", "[default: interpreter]"),
          ("    --config <PATH>", "Settings JSON; missing fields use defaults"),
          ("    --json", "Print the full result as JSON"),
          ("-h, --help", "Print help")])]
  | .resolve =>
    [("Arguments", [("<SPECIFIER>...", "")]),
      ("Options", [("    --cdn-root <CDN_ROOT>", ""), ("-h, --help", "Print help")])]
  | .scan =>
    [("Arguments", [("<FILE>", "")]), ("Options", [("-h, --help", "Print help")])]
  | .help => [("Arguments", [("[COMMAND]...", "Print help for the subcommand(s)")])]

/-- A row of a section whose first column is that wide. -/
def row (width : Nat) (r : String × String) : String :=
  "  " ++ r.1 ++ String.ofList (List.replicate (width - r.1.length) ' ') ++ "  " ++ r.2

/-- A section: its title and its rows. -/
def sectionText (s : String × List (String × String)) : String :=
  let width := (s.2.map (·.1.length)).foldl max 0
  s.1 ++ ":\n" ++ "\n".intercalate (s.2.map (row width))

/-- The whole text, without the line break at its end. -/
def text (t : HelpTopic) : String :=
  "\n\n".intercalate ([t.about, "Usage: jsbox " ++ t.usage] ++ t.sections.map sectionText)

end HelpTopic
end ScriptSandbox
