import RuleLexer.Unicode.CodeTable

/-! Characters that case mappings change in ways that simple case folding does not show: those that
become several characters, those with a form of their own at the start of a word, and those that
fold to the upper case. -/
namespace RuleLexer.Unicode

def lowersToSeveralTable : CodeTable := .ofText "130"

/-- Changed by the upper case, though simple folding pairs them with no upper-case letter. -/
def uppersToSeveralTable : CodeTable := .ofText "
  131 149 1C5 1C8 1CB 1F0 1F2 587 1E96-1E9A 1F50 1F52 1F54 1F56 1F88-1F8F 1F98-1F9F 1FA8-1FAF
  1FB2 1FB4 1FB6-1FB7 1FBC 1FC2 1FC4 1FC6-1FC7 1FCC 1FD2 1FD6-1FD7 1FE2 1FE4 1FE6-1FE7 1FF2 1FF4
  1FF6-1FF7 1FFC FB00-FB04 FB13-FB17"

/-- Changed by the upper case but not at the start of a word. -/
def titleFormTable : CodeTable := .ofText "
  1C5 1C8 1CB 1F2 10D0-10FA 10FD-10FF 1F88-1F8F 1F98-1F9F 1FA8-1FAF 1FBC 1FCC 1FFC"

/-- Changed at the start of a word, but upper case already. -/
def titleSourceTable : CodeTable := .ofText "1C4 1C7 1CA 1F1"

/-- Changed by folding though not by the lower case. -/
def foldsToSeveralTable : CodeTable := .ofText "
  B5 DF 149 17F 345 3C2 3D0-3D1 3D5-3D6 3F0-3F1 3F5 587 13F8-13FD 1C80-1C88 1E9A-1E9B 1F80-1F87
  1F90-1F97 1FA0-1FA7 1FB2-1FB4 1FB7 1FC2-1FC4 1FC7 1FF2-1FF4 1FF7 AB70-ABBF FB00-FB06 FB13-FB17"

/-- Upper-case letters that folding keeps. -/
def foldTargetTable : CodeTable := .ofText "13A0-13F5"

end RuleLexer.Unicode
