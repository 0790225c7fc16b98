namespace LanguageBridge

/-! How the bridge names itself. -/

def bridgeName : String := "polyglot-lsp"

def bridgeVersion : String := "0.1.0"

def versionLine : String := bridgeName ++ " " ++ bridgeVersion

end LanguageBridge
