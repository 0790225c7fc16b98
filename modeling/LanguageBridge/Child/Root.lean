import LanguageBridge.Fault
import LanguageBridge.Text.Percent

namespace LanguageBridge

/-! The workspace root as child servers are told it. -/

namespace WorkspaceRoot

/-- Cuts a path at its slashes; empty parts and single dots mean nothing. -/
def segments (path : String) : List String :=
  (path.splitOn "/").filter fun segment => segment ≠ "" && segment ≠ "."

/-- An absolute path starts with one slash, or with exactly two. -/
def lead? (path : String) : Option String :=
  match path.toList with
  | '/' :: '/' :: '/' :: _ => some "/"
  | '/' :: '/' :: _ => some "//"
  | '/' :: _ => some "/"
  | _ => none

def uri (path : String) : Except Fault String :=
  match lead? path with
  | none => .error .relativeRoot
  | some lead =>
    .ok ("file://" ++
      Text.percentEncodeKeeping (· = '/') (lead ++ "/".intercalate (segments path)))

def folderName (path : String) : String :=
  (segments path).getLast?.getD ""

end WorkspaceRoot

end LanguageBridge
