import RuleLexer.CommandLine.Request

/-! What a command line is answered with that asks for no work. -/
namespace RuleLexer.CommandLine

def usage : String := "\n".intercalate
  ["Tokenize a web-language source file.",
    "",
    "Tokens are printed one per line as `Token.<category>` and the quoted text, or as a JSON",
    "array. `--scores` prints every language's content score instead.",
    "",
    "Usage: weblex [OPTIONS] <FILE>",
    "",
    "Arguments:",
    "  <FILE>                    Source file to tokenize",
    "",
    "Options:",
    "  -l, --lexer <LEXER>       Lexer alias, e.g. `js`, `php`, `scss`",
    "  -O, --option <KEY=VALUE>  Lexer option as `key=value`; may be repeated",
    "  -f, --format <FORMAT>     Output format [default: raw] [possible values: raw, json]",
    "  -s, --style <STYLE>       Attach resolved styles from this style sheet to JSON output",
    "      --verify              Check that the tokens partition the input exactly",
    "      --scores              Print every language's content score instead of tokens",
    "      --log-level <LEVEL>   Minimum level of diagnostics written to stderr (error, warn,",
    "                            info, debug)",
    "      --trace-fallback      Log a debug event for every character no rule matched",
    "  -h, --help                Print help",
    "  -V, --version             Print version"]

def version : String := "weblex 0.1.0"

namespace Refusal

/-- Whoever asks for help or for the version gets what was asked for. -/
def exit : Refusal → Nat
  | wrong => 2
  | help | version => 0

def text : Refusal → String
  | wrong | help => usage
  | version => CommandLine.version

end Refusal

end RuleLexer.CommandLine
