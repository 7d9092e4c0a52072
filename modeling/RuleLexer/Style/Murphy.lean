import RuleLexer.Style.Sheet

/-! The style sheet Murphy: soft colors on white. -/
namespace RuleLexer.Style

def murphyDefinitions : StyleSheet.Definitions := [
  (.comment, "#666 italic"),
  (.commentPreproc, "#579 noitalic"),
  (.keyword, "bold #289"),
  (.keywordPseudo, "#08f"),
  (.keywordType, "#66f"),
  (.operator, "#333"),
  (.operatorWord, "bold #000"),
  (.nameBuiltin, "#072"),
  (.nameFunction, "bold #5ed"),
  (.nameClass, "bold #e9e"),
  (.nameNamespace, "bold #0e84b5"),
  (.nameException, "bold #F00"),
  (.nameVariable, "#036"),
  (.nameVariableInstance, "#aaf"),
  (.nameVariableClass, "#ccf"),
  (.nameVariableGlobal, "#f84"),
  (.nameConstant, "bold #5ed"),
  (.nameLabel, "bold #970"),
  (.nameEntity, "#800"),
  (.nameAttribute, "#007"),
  (.nameTag, "#070"),
  (.nameDecorator, "bold #555"),
  (.string, "bg:#e0e0ff"),
  (.stringChar, "#88F bg:"),
  (.stringDoc, "#D42 bg:"),
  (.stringInterpol, "bg:#eee"),
  (.stringEscape, "bold #666"),
  (.stringRegex, "bg:#e0e0ff #000"),
  (.stringSymbol, "#fc8 bg:"),
  (.stringOther, "#f88"),
  (.number, "bold #60E"),
  (.numberInteger, "bold #66f"),
  (.numberFloat, "bold #60E"),
  (.numberHex, "bold #058"),
  (.numberOct, "bold #40E"),
  (.genericHeading, "bold #000080"),
  (.genericSubheading, "bold #800080"),
  (.genericDeleted, "#A00000"),
  (.genericInserted, "#00A000"),
  (.genericError, "#FF0000"),
  (.genericEmph, "italic"),
  (.genericStrong, "bold"),
  (.genericPrompt, "bold #c65d09"),
  (.genericOutput, "#888"),
  (.genericTraceback, "#04D"),
  (.error, "#F00 bg:#FAA")]

def murphy : Except StyleError StyleSheet :=
  StyleSheet.ofDefinitions "murphy" "" murphyDefinitions

end RuleLexer.Style
