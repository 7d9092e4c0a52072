import RuleLexer.Build
import RuleLexer.Language.Literal

/-! Cascading style sheets. A brace after an at-rule opens a block of rules, any other brace a block
of declarations. -/
namespace RuleLexer.Language.Css
open Entry

def info : LexerInfo where
  name := "CSS"
  aliases := ["css"]
  filenames := ["*.css"]
  mimeTypes := ["text/css"]

/-- Properties and the words that stand for values. -/
def properties : List String :=
  ["azimuth", "background-attachment", "background-color", "background-image",
    "background-position", "background-repeat", "background", "border-bottom-color",
    "border-bottom-style", "border-bottom-width", "border-left-color", "border-left-style",
    "border-left-width", "border-right", "border-right-color", "border-right-style",
    "border-right-width", "border-top-color", "border-top-style", "border-top-width",
    "border-bottom", "border-collapse", "border-left", "border-width", "border-color",
    "border-spacing", "border-style", "border-top", "border", "caption-side", "clear", "clip",
    "color", "content", "counter-increment", "counter-reset", "cue-after", "cue-before", "cue",
    "cursor", "direction", "display", "elevation", "empty-cells", "float", "font-family",
    "font-size", "font-size-adjust", "font-stretch", "font-style", "font-variant", "font-weight",
    "font", "height", "letter-spacing", "line-height", "list-style-type", "list-style-image",
    "list-style-position", "list-style", "margin-bottom", "margin-left", "margin-right",
    "margin-top", "margin", "marker-offset", "marks", "max-height", "max-width", "min-height",
    "min-width", "opacity", "orphans", "outline", "outline-color", "outline-style",
    "outline-width", "overflow", "padding-bottom", "padding-left", "padding-right", "padding-top",
    "padding", "page", "page-break-after", "page-break-before", "page-break-inside",
    "pause-after", "pause-before", "pause", "pitch", "pitch-range", "play-during", "position",
    "quotes", "richness", "right", "size", "speak-header", "speak-numeral", "speak-punctuation",
    "speak", "speech-rate", "stress", "table-layout", "text-align", "text-decoration",
    "text-indent", "text-shadow", "text-transform", "top", "unicode-bidi", "vertical-align",
    "visibility", "voice-family", "volume", "white-space", "widows", "width", "word-spacing",
    "z-index", "bottom", "left", "above", "absolute", "always", "armenian", "aural", "auto",
    "avoid", "baseline", "behind", "below", "bidi-override", "blink", "block", "bold", "bolder",
    "both", "capitalize", "center-left", "center-right", "center", "circle", "cjk-ideographic",
    "close-quote", "collapse", "condensed", "continuous", "crop", "crosshair", "cross", "cursive",
    "dashed", "decimal-leading-zero", "decimal", "default", "digits", "disc", "dotted", "double",
    "e-resize", "embed", "extra-condensed", "extra-expanded", "expanded", "fantasy", "far-left",
    "far-right", "faster", "fast", "fixed", "georgian", "groove", "hebrew", "help", "hidden",
    "hide", "higher", "high", "hiragana-iroha", "hiragana", "icon", "inherit", "inline-table",
    "inline", "inset", "inside", "invert", "italic", "justify", "katakana-iroha", "katakana",
    "landscape", "larger", "large", "left-side", "leftwards", "level", "lighter", "line-through",
    "list-item", "loud", "lower-alpha", "lower-greek", "lower-roman", "lowercase", "ltr", "lower",
    "low", "medium", "message-box", "middle", "mix", "monospace", "n-resize", "narrower",
    "ne-resize", "no-close-quote", "no-open-quote", "no-repeat", "none", "normal", "nowrap",
    "nw-resize", "oblique", "once", "open-quote", "outset", "outside", "overline", "pointer",
    "portrait", "px", "relative", "repeat-x", "repeat-y", "repeat", "rgb", "ridge", "right-side",
    "rightwards", "s-resize", "sans-serif", "scroll", "se-resize", "semi-condensed",
    "semi-expanded", "separate", "serif", "show", "silent", "slow", "slower", "small-caps",
    "small-caption", "smaller", "soft", "solid", "spell-out", "square", "static", "status-bar",
    "super", "sw-resize", "table-caption", "table-cell", "table-column", "table-column-group",
    "table-footer-group", "table-header-group", "table-row", "table-row-group", "text",
    "text-bottom", "text-top", "thick", "thin", "transparent", "ultra-condensed",
    "ultra-expanded", "underline", "upper-alpha", "upper-latin", "upper-roman", "uppercase",
    "url", "visible", "w-resize", "wait", "wider", "x-fast", "x-high", "x-large", "x-loud",
    "x-low", "x-small", "x-soft", "xx-large", "xx-small", "yes"]

/-- The colors that every browser has always known. -/
def basicColors : List String :=
  ["black", "silver", "gray", "white", "maroon", "red", "purple", "fuchsia", "green", "lime",
    "olive", "yellow", "navy", "blue", "teal", "aqua"]

/-- The other colors that have names. -/
def extendedColors : List String :=
  ["indigo", "gold", "firebrick", "indianred", "darkolivegreen", "darkseagreen",
    "mediumvioletred", "mediumorchid", "chartreuse", "mediumslateblue", "springgreen", "crimson",
    "lightsalmon", "brown", "turquoise", "olivedrab", "cyan", "skyblue", "darkturquoise",
    "goldenrod", "darkgreen", "darkviolet", "darkgray", "lightpink", "darkmagenta",
    "lightgoldenrodyellow", "lavender", "yellowgreen", "thistle", "violet", "orchid",
    "ghostwhite", "honeydew", "cornflowerblue", "darkblue", "darkkhaki", "mediumpurple",
    "cornsilk", "bisque", "slategray", "darkcyan", "khaki", "wheat", "deepskyblue", "darkred",
    "steelblue", "aliceblue", "gainsboro", "mediumturquoise", "floralwhite", "coral", "lightgrey",
    "lightcyan", "darksalmon", "beige", "azure", "lightsteelblue", "oldlace", "greenyellow",
    "royalblue", "lightseagreen", "mistyrose", "sienna", "lightcoral", "orangered", "navajowhite",
    "palegreen", "burlywood", "seashell", "mediumspringgreen", "papayawhip", "blanchedalmond",
    "peru", "aquamarine", "darkslategray", "ivory", "dodgerblue", "lemonchiffon", "chocolate",
    "orange", "forestgreen", "slateblue", "mintcream", "antiquewhite", "darkorange", "cadetblue",
    "moccasin", "limegreen", "saddlebrown", "darkslateblue", "lightskyblue", "deeppink", "plum",
    "darkgoldenrod", "sandybrown", "magenta", "tan", "rosybrown", "pink", "lightblue",
    "palevioletred", "mediumseagreen", "dimgray", "powderblue", "seagreen", "snow", "mediumblue",
    "midnightblue", "paleturquoise", "palegoldenrod", "whitesmoke", "darkorchid", "salmon",
    "lightslategray", "lawngreen", "lightgreen", "tomato", "hotpink", "lightyellow",
    "lavenderblush", "linen", "mediumaquamarine", "blueviolet", "peachpuff"]

def table : TableDraft where
  states := [
    ("root", [
      includes "basics"]),
    ("basics", [
      emit "\\s+" .text,
      emit "/\\*(?:.|\\n)*?\\*/" .comment,
      (emit "\\\x7b" .punctuation).push "content",
      emit ":[a-zA-Z0-9_-]+" .nameDecorator,
      emit "\\.[a-zA-Z0-9_-]+" .nameClass,
      emit "#[a-zA-Z0-9_-]+" .nameFunction,
      (emit "@[a-zA-Z0-9_-]+" .keyword).push "atrule",
      emit "[a-zA-Z0-9_-]+" .nameTag,
      emit "[~\\^\\*!%&\\[\\]\\(\\)<>\\|+=@:;,./?-]" .operator,
      emit doubleQuoted .stringDouble,
      emit singleQuoted .stringSingle]),
    ("atrule", [
      (emit "\\\x7b" .punctuation).push "atcontent",
      (emit ";" .punctuation).pop 1,
      includes "basics"]),
    ("atcontent", [
      includes "basics",
      (emit "\\\x7d" .punctuation).pop 2]),
    ("content", [
      emit "\\s+" .text,
      (emit "\\\x7d" .punctuation).pop 1,
      emit "url\\(.*?\\)" .stringOther,
      emit "^@.*?$" .commentPreproc,
      keywords (properties ++ ["overflow-x", "overflow-y"]) .keyword,
      keywords (basicColors ++ extendedColors) .nameBuiltin,
      emit "!important" .commentPreproc,
      emit "/\\*(?:.|\\n)*?\\*/" .comment,
      emit "#[a-zA-Z0-9]\x7b1,6\x7d" .number,
      emit "[\\.-]?[0-9]*[\\.]?[0-9]+(em|px|%|pt|pc|in|mm|cm|ex)" .number,
      emit "-?[0-9]+" .number,
      emit "[~\\^\\*!%&<>\\|+=@:,./?-]+" .operator,
      emit "[\\[\\]();]+" .punctuation,
      emit doubleQuoted .stringDouble,
      emit singleQuoted .stringSingle,
      emit "[a-zA-Z][a-zA-Z0-9]+" .name])]

def lexer : Build Lexer := .plain info table

end RuleLexer.Language.Css
