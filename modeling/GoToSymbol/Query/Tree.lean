import GoToSymbol.Query.Pattern
import GoToSymbol.Index.Document

namespace GoToSymbol

/-- What is asked of one token. -/
inductive TokenTest where
  | whole (text : String)
  | beginning (text : String)
  | like (pattern : String)
deriving Repr, DecidableEq

namespace TokenTest

def admits : TokenTest → List Char → Bool
  | whole text, t => t == text.toList
  | beginning text, t => text.toList.isPrefixOf t
  | like pattern, t => Query.globMatches pattern.toList t

/-- A test whose very form says that it admits every token. -/
def isOpen : TokenTest → Bool
  | whole _ => false
  | beginning text => text.isEmpty
  | like pattern => pattern == "*"

theorem admits_of_isOpen {test : TokenTest} (h : test.isOpen = true) (t : List Char) :
    test.admits t = true := by
  cases test with
  | whole text => simp [isOpen] at h
  | beginning text =>
    simp only [isOpen, String.isEmpty_iff] at h
    subst h; simp [admits]
  | like pattern =>
    simp only [isOpen, beq_iff_eq] at h
    subst h
    exact (Query.matchesParts_anyText [] t).2 ⟨t, [], by simp, rfl⟩

end TokenTest

/-- A query over the fields of stored documents. -/
inductive Query where
  | token (field : String) (test : TokenTest)
  | anyOf (subs : List Query)
  | allOf (subs : List Query)
  | without (kept excluded : Query)
  /-- The best of several scores; the others add to it by the tie-break factor. -/
  | best (subs : List Query) (tieBreak : Float)

namespace Query

def camelPatternText (text : String) : String := String.ofList (camelPattern text.toList)

def ofVariant (v : Variant) : Query := .token tagField (.whole v.tag)

/-- A text as the beginning of a token and as a whole token, and a pattern if one is given. -/
def boosted (field text : String) (pattern : Option String) : Query :=
  .anyOf ((TokenTest.beginning text :: TokenTest.whole text :: (pattern.map TokenTest.like).toList).map
    (token field))

/-- The three ways a name is matched. -/
def symbolName (text : String) : Query := boosted fqnField text (some (camelPatternText text))

def forClass (text : String) : Query := .allOf [symbolName text, ofVariant .classes]

def forClassOrMethod (text : String) : Query :=
  .allOf [symbolName text,
    .without (.anyOf [ofVariant .classes, ofVariant .methods]) (ofVariant .fields)]

/-- Any of the terms; a document counts by its best one. -/
def forTerms (terms : List String) : Query := .best (terms.map forClassOrMethod) 0.0

def forFile (uri : String) : Query := .token fileField (.whole uri)

end Query

end GoToSymbol
