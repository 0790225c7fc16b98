import LanguageBridge.Protocol.Part
import LanguageBridge.Text.Lines

namespace LanguageBridge

/-! Changes that the editor reports to a host text, and the lines they touch. -/

structure LineRange where
  first : Int
  last : Int
deriving DecidableEq, Repr

def LineRange.union (a b : LineRange) : LineRange :=
  ⟨min a.first b.first, max a.last b.last⟩

inductive ContentChange where
  | part (range : Range) (text : String)
  /-- The whole text is replaced, or it is not said which part. -/
  | whole
deriving DecidableEq, Repr

namespace ContentChange

/-- A change of a part must say which. -/
def ofValue (value : Value) : Except Fault ContentChange :=
  match value with
  | .record "TextDocumentContentChangePartial" fields =>
    match Fields.range? fields "range" with
    | some range => .ok (part range ((Fields.text? fields "text").getD ""))
    | none => .error ((Fields.get? fields "range").getD .null).rangeFault
  | _ => .ok whole

/-- Changes in order, down to the first that replaces the whole text: what comes after it is not
looked at. -/
def listOf : List Value → Except Fault (List ContentChange)
  | [] => .ok []
  | value :: rest => do
      match ← ofValue value with
      | whole => .ok [whole]
      | narrow => (listOf rest).map (narrow :: ·)

/-- The lines of a change, in the text before it or after it, whichever reaches further. -/
def lines? : ContentChange → Option LineRange
  | part range text =>
    some ⟨range.start.line, max range.stop.line (range.start.line + Text.lineFeeds text)⟩
  | whole => none

def linesFrom (lines : LineRange) : List ContentChange → Option LineRange
  | [] => some lines
  | change :: rest =>
    match change.lines? with
    | some more => linesFrom (lines.union more) rest
    | none => none

def changedLines? : List ContentChange → Option LineRange
  | [] => none
  | change :: rest => change.lines?.bind fun lines => linesFrom lines rest

def linesOf (changes : Value) : Except Fault (Option LineRange) := do
  let values ← changes.elements
  let read ← listOf values
  .ok (changedLines? read)

end ContentChange

end LanguageBridge
