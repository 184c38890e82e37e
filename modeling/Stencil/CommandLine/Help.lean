import Stencil.CommandLine.Arguments

/-!
# Help

What the program prints about its own use.
-/

namespace Stencil.CommandLine

/-- The lines that describe a command or the program. -/
def helpLines : Topic → List String
  | .about .program => [
      "Render and check view component templates",
      "",
      "Usage: view-components [OPTIONS] <COMMAND>",
      "",
      "Commands:",
      "  check   Report component files with more than one sidecar template",
      "  render  Render a template file; its extension selects the handler",
      "  help    Print this message or the help of the given subcommand(s)",
      "",
      "Options:",
      "  -c, --config <CONFIG>  Renderer configuration (TOML format)",
      "  -v, --verbose...       More log output (repeat for trace)",
      "  -h, --help             Print help"]
  | .about .check => [
      "Report component files with more than one sidecar template",
      "",
      "Usage: view-components check [OPTIONS] <DIR>",
      "",
      "Arguments:",
      "  <DIR>  Directory holding component source files",
      "",
      "Options:",
      "  -c, --config <CONFIG>  Renderer configuration (TOML format)",
      "  -v, --verbose...       More log output (repeat for trace)",
      "  -h, --help             Print help"]
  | .about .render => [
      "Render a template file; its extension selects the handler",
      "",
      "Usage: view-components render [OPTIONS] <FILE>",
      "",
      "Arguments:",
      "  <FILE>  Template file",
      "",
      "Options:",
      "  -a, --attrs <ATTRS>      Attributes as a TOML table",
      "  -c, --config <CONFIG>    Renderer configuration (TOML format)",
      "      --content <CONTENT>  Text passed as the block content (escaped)",
      "  -v, --verbose...         More log output (repeat for trace)",
      "  -h, --help               Print help"]
  | .help => [
      "Print this message or the help of the given subcommand(s)",
      "",
      "Usage: view-components help [COMMAND]...",
      "",
      "Arguments:",
      "  [COMMAND]...  Print help for the subcommand(s)"]

/-- What is printed on a topic. -/
def helpText (t : Topic) : String := String.join ((helpLines t).map (· ++ "\n"))

end Stencil.CommandLine
