namespace Skeletons.Yaml

/-- Beside the marks that are written there are marks for what indentation says: where a sequence or a
    mapping in block style starts, and where one ends. -/
inductive Token where
  | versionDirective
  | tagDirective (handle lead : String)
  | documentStart
  | documentEnd
  | streamEnd
  | blockSequence
  | blockMapping
  | blockEnd
  | item
  /-- The question mark of a key, or the start of what turned out to be one. -/
  | key
  | value
  | flowSequence
  | flowSequenceEnd
  | flowMapping
  | flowMappingEnd
  | comma
  | alias (name : String)
  | anchor (name : String)
  | tag (handle suffix : String)
  | scalar (isPlain : Bool) (text : String)
deriving DecidableEq, Inhabited

namespace Token

def isProperty : Token → Bool
  | .anchor _ | .tag .. => true
  | _ => false

def isDocumentMark : Token → Bool
  | .versionDirective | .tagDirective .. | .documentStart | .documentEnd | .streamEnd => true
  | _ => false

end Token

end Skeletons.Yaml
