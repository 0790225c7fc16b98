import LanguageBridge.Text.WordTable

namespace LanguageBridge.Text

def isWordCharacter (c : Char) : Bool :=
  wordCodePoints.contains c

end LanguageBridge.Text
