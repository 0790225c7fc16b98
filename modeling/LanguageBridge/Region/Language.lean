import LanguageBridge.Table
import LanguageBridge.Text.Blank
import LanguageBridge.Text.Lowercase

namespace LanguageBridge

/-! Names of languages. A region may name its language in any case and under a short name. -/

/-- Short names, in lower case, and the languages they stand for. -/
abbrev LanguageNames := Table String String

def LanguageNames.standard : LanguageNames :=
  ⟨[("py", "python"), ("python3", "python"), ("ipython", "python"), ("js", "javascript"),
    ("jsx", "javascriptreact"), ("ts", "typescript"), ("tsx", "typescriptreact"), ("sh", "bash"),
    ("shell", "bash"), ("zsh", "bash"), ("yml", "yaml"), ("c++", "cpp"), ("jl", "julia"),
    ("rs", "rust")]⟩

/-- The language behind a name: blanks around it and its case do not count. -/
def LanguageNames.resolve (names : LanguageNames) (name : List Char) : String :=
  let plain := String.ofList (Text.lowercase (Text.trim name))
  (names.get? plain).getD plain

end LanguageBridge
