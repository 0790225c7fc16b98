import LanguageBridge.Protocol.Change
import LanguageBridge.Region.Extraction
import LanguageBridge.Synthetic.Document

namespace LanguageBridge

/-! The hosts that are open, and for each its synthetic documents. -/

structure Host where
  text : String
  lines : List String
  extraction : Extraction
  languageId : Option String := none
  documents : Table String Document := {}
deriving Repr, Inhabited

namespace Host

/-- Recomputes the document of one language; it is created on first reference. -/
def rebuild (host : Host) (padding : Padding) (uri language : String) : Host :=
  let document := (host.documents.get? language).getD { language := language, hostUri := uri }
  let layout := Layout.ofChunks padding host.lines (host.extraction.chunksOf language)
  { host with documents := host.documents.put language (document.setLayout layout) }

def rebuildAll (host : Host) (padding : Padding) (uri : String) (languages : List String) : Host :=
  languages.foldl (fun host language => host.rebuild padding uri language) host

end Host

structure Store where
  padding : Padding := .compact
  names : LanguageNames := .standard
  /-- How chunks are found; by default the kind of host decides. -/
  rules : Option (List Rule) := none
  hosts : Table String Host := {}
deriving Inhabited

namespace Store

def rulesFor (store : Store) (languageId : Option String) : List Rule :=
  store.rules.getD (Rule.forLanguageId languageId)

def extract (store : Store) (text : String) (languageId : Option String) : Extraction :=
  Extraction.ofText (store.rulesFor languageId) store.names text

def contains (store : Store) (uri : String) : Bool :=
  store.hosts.contains uri

def get? (store : Store) (uri language : String) : Option Document :=
  (store.hosts.get? uri).bind fun host => host.documents.get? language

def openHost (store : Store) (uri text : String) (languageId : Option String := none) : Store :=
  let host : Host :=
    { text := text
      lines := Text.splitLines text
      extraction := store.extract text languageId
      languageId := languageId }
  { store with
    hosts := store.hosts.put uri (host.rebuildAll store.padding uri host.extraction.languages) }

/-- Whether an edit of these lines can leave a language alone: its chunks are the same as before,
and none of them was touched. -/
def untouched (changed : Option LineRange) (before after : List Chunk) : Bool :=
  match changed with
  | none => false
  | some range =>
    before = after && !after.any fun chunk => chunk.intersects range.first range.last

def staleLanguages (changed : Option LineRange) (old : Host) (extraction : Extraction) :
    List String :=
  (old.extraction.languages ++ extraction.languages ++ old.documents.keys).eraseDups.filter
    fun language =>
      !untouched changed (old.extraction.chunksOf language) (extraction.chunksOf language)

/-- Takes over the new text of a host; a host that is not tracked is opened. -/
def update (store : Store) (uri text : String) (changed : Option LineRange := none) : Store :=
  match store.hosts.get? uri with
  | none => store.openHost uri text
  | some old =>
    let extraction := store.extract text old.languageId
    let host := { old with
      text := text, lines := Text.splitLines text, extraction := extraction }
    let stale := staleLanguages changed old extraction
    { store with hosts := store.hosts.put uri (host.rebuildAll store.padding uri stale) }

def documents (store : Store) (uri : String) : List Document :=
  ((store.hosts.get? uri).map fun host => host.documents.values).getD []

/-- The languages whose document of this host is new or has another version than before. -/
def changedLanguages (before after : Store) (uri : String) : List String :=
  ((after.documents uri).filter fun document =>
    ((before.get? uri document.language).map Document.version) ≠ some document.version).map
      Document.language

def close (store : Store) (uri : String) : Store :=
  { store with hosts := store.hosts.erase uri }

def rebuild (store : Store) (uri language : String) : Except Fault Store :=
  match store.hosts.get? uri with
  | none => .error (.unknownHost uri)
  | some host =>
    .ok { store with hosts := store.hosts.put uri (host.rebuild store.padding uri language) }

def uris (store : Store) : List String :=
  store.hosts.keys

def text? (store : Store) (uri : String) : Option String :=
  (store.hosts.get? uri).map Host.text

def allDocuments (store : Store) : List Document :=
  store.hosts.values.flatMap fun host => host.documents.values

def languages (store : Store) (uri : String) : List String :=
  ((store.hosts.get? uri).map fun host => host.extraction.languages).getD []

def malformed (store : Store) (uri : String) : List MalformedRegion :=
  ((store.hosts.get? uri).map fun host => host.extraction.malformed).getD []

def languageAt? (store : Store) (uri : String) (line : Int) : Option String :=
  (store.hosts.get? uri).bind fun host => host.extraction.languageAt? line

def toHost (store : Store) (uri language : String) (place : Position) : Except Fault Position :=
  match store.get? uri language with
  | some document => document.toHost place
  | none => .error (.positionOutOfRange language place.line)

def toSynthetic (store : Store) (uri language : String) (place : Position) :
    Except Fault Position :=
  match store.get? uri language with
  | some document => document.toSynthetic place
  | none => .error (.noSyntheticRegion (some language) place.line)

end Store

end LanguageBridge
