namespace GoToSymbol.File

/-- What a path leads to: a text, bytes that are no text, nothing, or a directory. -/
inductive Content where
  | text (s : String)
  | undecodable
  | missing
  | directory
deriving Repr, DecidableEq

namespace Content

def isFile : Content → Bool
  | text _ | undecodable => true
  | missing | directory => false

def isThere : Content → Bool
  | missing => false
  | text _ | undecodable | directory => true

end Content

end GoToSymbol.File
