import ContractInspector.Diagnostic.Parse
import ContractInspector.Text.LowerCase

/-! Curated fixes for the errors of a compilation. -/
namespace ContractInspector.Diagnostic

/-- The fixes with a keyword in one of the messages, in the order of the catalogue. The messages are
searched as one text with spaces between them. -/
def commonFixes (messages : List String) : List Language.CommonFix :=
  let said := [' '].intercalate (messages.map fun message => Text.lower message.toList)
  Language.commonFixes.filter fun fix =>
    fix.keywords.any fun keyword => Text.contains keyword.toList said

end ContractInspector.Diagnostic
