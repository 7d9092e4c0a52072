import RuleLexer.Build
import RuleLexer.Language.Literal

/-! ActionScript and ActionScript 3. In version 3 a declaration of a function opens its parameters,
each of which can have a value that is lexed by itself. -/
namespace RuleLexer.Language.ActionScript
open Entry

def info : LexerInfo where
  name := "ActionScript"
  aliases := ["as", "actionscript"]
  filenames := ["*.as"]
  mimeTypes := ["application/x-actionscript", "text/x-actionscript", "text/actionscript"]

def info3 : LexerInfo where
  name := "ActionScript 3"
  aliases := ["as3", "actionscript3"]
  filenames := ["*.as"]
  mimeTypes := ["application/x-actionscript", "text/x-actionscript", "text/actionscript"]

def identifier : String := "[$a-zA-Z_][a-zA-Z0-9_]*"

def keywordList : List String :=
  ["case", "default", "for", "each", "in", "while", "do", "break", "return", "continue", "if",
    "else", "throw", "try", "catch", "var", "with", "new", "typeof", "arguments", "instanceof",
    "this", "switch"]

def keywordList3 : List String :=
  ["case", "default", "for", "each", "in", "while", "do", "break", "return", "continue", "if",
    "else", "throw", "try", "catch", "with", "new", "typeof", "arguments", "instanceof", "this",
    "switch", "import", "include", "as", "is"]

def constants : List String :=
  ["true", "false", "null", "NaN", "Infinity", "-Infinity", "undefined", "Void"]

def constants3 : List String :=
  ["true", "false", "null", "NaN", "Infinity", "-Infinity", "undefined", "void"]

def declarations : List String :=
  ["class", "public", "final", "internal", "native", "override", "private", "protected", "static",
    "import", "extends", "implements", "interface", "intrinsic", "return", "super", "dynamic",
    "function", "const", "get", "namespace", "package", "set"]

def globalFunctions : List String :=
  ["decodeURI", "decodeURIComponent", "encodeURI", "escape", "eval", "isFinite", "isNaN",
    "isXMLName", "clearInterval", "fscommand", "getTimer", "getURL", "getVersion", "parseFloat",
    "parseInt", "setInterval", "trace", "updateAfterEvent", "unescape"]

def builtinClasses : List String :=
  ["Accessibility", "AccessibilityProperties", "ActionScriptVersion", "ActivityEvent",
    "AntiAliasType", "ApplicationDomain", "AsBroadcaster", "Array", "AsyncErrorEvent",
    "AVM1Movie", "BevelFilter", "Bitmap", "BitmapData", "BitmapDataChannel", "BitmapFilter",
    "BitmapFilterQuality", "BitmapFilterType", "BlendMode", "BlurFilter", "Boolean", "ByteArray",
    "Camera", "Capabilities", "CapsStyle", "Class", "Color", "ColorMatrixFilter",
    "ColorTransform", "ContextMenu", "ContextMenuBuiltInItems", "ContextMenuEvent",
    "ContextMenuItem", "ConvultionFilter", "CSMSettings", "DataEvent", "Date", "DefinitionError",
    "DeleteObjectSample", "Dictionary", "DisplacmentMapFilter", "DisplayObject",
    "DisplacmentMapFilterMode", "DisplayObjectContainer", "DropShadowFilter", "Endian",
    "EOFError", "Error", "ErrorEvent", "EvalError", "Event", "EventDispatcher", "EventPhase",
    "ExternalInterface", "FileFilter", "FileReference", "FileReferenceList", "FocusDirection",
    "FocusEvent", "Font", "FontStyle", "FontType", "FrameLabel", "FullScreenEvent", "Function",
    "GlowFilter", "GradientBevelFilter", "GradientGlowFilter", "GradientType", "Graphics",
    "GridFitType", "HTTPStatusEvent", "IBitmapDrawable", "ID3Info", "IDataInput", "IDataOutput",
    "IDynamicPropertyOutput", "IDynamicPropertyWriter", "IEventDispatcher", "IExternalizable",
    "IllegalOperationError", "IME", "IMEConversionMode", "IMEEvent", "int", "InteractiveObject",
    "InterpolationMethod", "InvalidSWFError", "InvokeEvent", "IOError", "IOErrorEvent",
    "JointStyle", "Key", "Keyboard", "KeyboardEvent", "KeyLocation", "LineScaleMode", "Loader",
    "LoaderContext", "LoaderInfo", "LoadVars", "LocalConnection", "Locale", "Math", "Matrix",
    "MemoryError", "Microphone", "MorphShape", "Mouse", "MouseEvent", "MovieClip",
    "MovieClipLoader", "Namespace", "NetConnection", "NetStatusEvent", "NetStream",
    "NewObjectSample", "Number", "Object", "ObjectEncoding", "PixelSnapping", "Point", "PrintJob",
    "PrintJobOptions", "PrintJobOrientation", "ProgressEvent", "Proxy", "QName", "RangeError",
    "Rectangle", "ReferenceError", "RegExp", "Responder", "Sample", "Scene", "ScriptTimeoutError",
    "Security", "SecurityDomain", "SecurityError", "SecurityErrorEvent", "SecurityPanel",
    "Selection", "Shape", "SharedObject", "SharedObjectFlushStatus", "SimpleButton", "Socket",
    "Sound", "SoundChannel", "SoundLoaderContext", "SoundMixer", "SoundTransform", "SpreadMethod",
    "Sprite", "StackFrame", "StackOverflowError", "Stage", "StageAlign", "StageDisplayState",
    "StageQuality", "StageScaleMode", "StaticText", "StatusEvent", "String", "StyleSheet",
    "SWFVersion", "SyncEvent", "SyntaxError", "System", "TextColorType", "TextField",
    "TextFieldAutoSize", "TextFieldType", "TextFormat", "TextFormatAlign", "TextLineMetrics",
    "TextRenderer", "TextSnapshot", "Timer", "TimerEvent", "Transform", "TypeError", "uint",
    "URIError", "URLLoader", "URLLoaderDataFormat", "URLRequest", "URLRequestHeader",
    "URLRequestMethod", "URLStream", "URLVariabeles", "VerifyError", "Video", "XML",
    "XMLDocument", "XMLList", "XMLNode", "XMLNodeType", "XMLSocket", "XMLUI"]

def table : TableDraft where
  flags := { multiLine := false, dotAll := true }
  states := [
    ("root", [
      emit "\\s+" .text,
      emit "//.*?\\n" .commentSingle,
      emit "/\\*.*?\\*/" .commentMultiline,
      emit "/(\\\\\\\\|\\\\/|[^/\\n])*/[gim]*" .stringRegex,
      emit "[~\\^\\*!%&<>\\|+=:;,/?\\\\-]+" .operator,
      emit "[\\\x7b\\\x7d\\[\\]();.]+" .punctuation,
      keywords keywordList .keyword,
      keywords declarations .keywordDeclaration,
      keywords constants .keywordConstant,
      keywords builtinClasses .nameBuiltin,
      keywords globalFunctions .nameFunction,
      emit identifier .nameOther,
      emit "[0-9][0-9]*\\.[0-9]+([eE][0-9]+)?[fd]?" .numberFloat,
      emit "0x[0-9a-f]+" .numberHex,
      emit "[0-9]+" .numberInteger,
      emit doubleQuoted .stringDouble,
      emit singleQuoted .stringSingle])]

def lexer : Build Lexer := .plain info table

def table3 : TableDraft where
  flags := { dotAll := true }
  states := [
    ("root", [
      emit "\\s+" .text,
      (tokens ("(function\\s+)(" ++ identifier ++ ")(\\s*)(\\()")
         [.keywordDeclaration, .nameFunction, .text, .operator]).push "funcparams",
      tokens
        ("(var|const)(\\s+)(" ++ identifier ++ ")(\\s*)(:)(\\s*)(" ++ identifier ++ ")")
        [.keywordDeclaration, .text, .name, .text, .punctuation, .text, .keywordType],
      tokens ("(import|package)(\\s+)((?:" ++ identifier ++ "|\\.)+)(\\s*)")
        [.keyword, .text, .nameNamespace, .text],
      tokens ("(new)(\\s+)(" ++ identifier ++ ")(\\s*)(\\()")
        [.keyword, .text, .keywordType, .text, .operator],
      emit "//.*?\\n" .commentSingle,
      emit "/\\*.*?\\*/" .commentMultiline,
      emit "/(\\\\\\\\|\\\\/|[^\\n])*/[gisx]*" .stringRegex,
      tokens ("(\\.)(" ++ identifier ++ ")") [.operator, .nameAttribute],
      keywords keywordList3 .keyword,
      keywords declarations .keywordDeclaration,
      keywords constants3 .keywordConstant,
      keywords globalFunctions .nameFunction,
      emit identifier .name,
      emit "[0-9][0-9]*\\.[0-9]+([eE][0-9]+)?[fd]?" .numberFloat,
      emit "0x[0-9a-f]+" .numberHex,
      emit "[0-9]+" .numberInteger,
      emit doubleQuoted .stringDouble,
      emit singleQuoted .stringSingle,
      emit "[~\\^\\*!%&<>\\|+=:;,/?\\\\\\\x7b\\\x7d\\[\\]();.-]+" .operator]),
    ("funcparams", [
      emit "\\s+" .text,
      (tokens
         ("(\\s*)(\\.\\.\\.)?(" ++ identifier ++ ")(\\s*)(:)(\\s*)(" ++ identifier ++
          "|\\*)(\\s*)")
         [.text, .punctuation, .name, .text, .operator, .text, .keywordType, .text]).push "defval",
      (emit "\\)" .operator).push "type"]),
    ("type", [
      (tokens ("(\\s*)(:)(\\s*)(" ++ identifier ++ "|\\*)")
         [.text, .operator, .text, .keywordType]).pop 2,
      (emit "\\s*" .text).pop 2]),
    ("defval", [
      (groups "(=)(\\s*)([^(),]+)(\\s*)(,?)"
         [.token .operator, .token .text, .delegate .running, .token .text,
           .token .operator]).pop 1,
      (emit ",?" .operator).pop 1])]

def lexer3 : Build Lexer := .plain info3 table3

end RuleLexer.Language.ActionScript
