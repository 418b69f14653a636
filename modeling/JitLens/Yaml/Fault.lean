import JitLens.Calendar
import JitLens.Text.Quoted
/-!
# What can be wrong with a settings text

A text is malformed if it is no document of the format, and bad in a value if a scalar of a known
type does not hold such a value.
-/

namespace JitLens.Yaml

/-- Why a text is no document. -/
inductive Fault where
  | unprintable
  | tokenStart
  | missingColon
  | keyHere
  | valueHere
  | entryHere
  | flowEnd
  | directive
  | anchorName
  | tag
  | blockHeader
  | unclosedQuote
  | markerInQuote
  | escape
  | nodeContent
  | blockEnd
  | flowSeparator
  | documentStart
  | repeatedDirective
  | version
  | unknownHandle
  | unknownAlias
  | repeatedAnchor
  | secondDocument
  | enclosingAlias
  | wrongKind
  | unknownTag
  | keyKind
  | mergeKind
  | encodedBytes
  | depth
  deriving DecidableEq, Repr

/-- The fault in words. -/
def Fault.text : Fault → String
  | .unprintable => "a character is not allowed"
  | .tokenStart => "no token starts with this character"
  | .missingColon => "a key has no colon"
  | .keyHere => "a key is not allowed here"
  | .valueHere => "a value is not allowed here"
  | .entryHere => "an entry of a sequence is not allowed here"
  | .flowEnd => "a bracket is not open"
  | .directive => "a directive is malformed"
  | .anchorName => "a name is malformed"
  | .tag => "a tag is malformed"
  | .blockHeader => "the header of a block is malformed"
  | .unclosedQuote => "a quote is not closed"
  | .markerInQuote => "a document marker stands between quotes"
  | .escape => "an escape is unknown"
  | .nodeContent => "the content of a node is missing"
  | .blockEnd => "the end of a block is missing"
  | .flowSeparator => "a comma or a bracket is missing"
  | .documentStart => "the start of a document is missing"
  | .repeatedDirective => "a directive is repeated"
  | .version => "the version is not supported"
  | .unknownHandle => "the handle of a tag is unknown"
  | .unknownAlias => "an alias is unknown"
  | .repeatedAnchor => "an anchor is repeated"
  | .secondDocument => "there is a second document"
  | .enclosingAlias => "a key or a merged map holds itself"
  | .wrongKind => "a node is not of the kind of its tag"
  | .unknownTag => "a tag is unknown"
  | .keyKind => "a collection is used as a key"
  | .mergeKind => "only maps can be merged"
  | .encodedBytes => "bytes are not encoded properly"
  | .depth => "the nesting is too deep"

/-- Why a scalar does not hold a value of its type. -/
inductive BadValue where
  | date (e : Calendar.RangeError)
  | digits (base : Nat) (text : String)
  | decimal (text : String)
  | codePoint
  | emptyNumber
  | truthWord (word : String)
  | timestamp
  | tooLong (e : Text.DigitsError)
  deriving DecidableEq, Repr

/-- The label under which a bad value is reported. -/
def BadValue.label : BadValue → String
  | .date _ | .digits _ _ | .decimal _ | .codePoint
  | .tooLong _ => "ValueError"
  | .emptyNumber => "IndexError"
  | .truthWord _ => "KeyError"
  | .timestamp => "AttributeError"

/-- The bad value in words. -/
def BadValue.message : BadValue → String
  | .date e => e.message
  | .digits base text =>
    "invalid literal for int() with base " ++ toString base ++ ": " ++ Text.quoted text
  | .decimal text => "could not convert string to float: " ++ Text.quoted text
  | .codePoint => "chr() arg not in range(0x110000)"
  | .emptyNumber => "string index out of range"
  | .truthWord word => Text.quoted word
  | .tooLong e => e.message
  | .timestamp => "'NoneType' object has no attribute 'groupdict'"

/-- Why a text cannot be read as a value. -/
inductive ReadError where
  | malformed (fault : Fault)
  | badValue (e : BadValue)
  deriving DecidableEq, Repr

end JitLens.Yaml
