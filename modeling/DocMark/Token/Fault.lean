/-!
# Why a text cannot be split into tokens

Each constructor is one way in which a text fails to be YAML; `Fault.message` says it in words, and
a `ScanError` adds the place.
-/

namespace DocMark.Yaml

/-- A place in the text as the scanner counts: characters read so far, lines from one, columns from
zero.  A carriage return ends a line here even without a line feed. -/
structure Mark where
  index : Nat := 0
  line : Nat := 1
  column : Nat := 0
  deriving DecidableEq, Repr, Inhabited

/-- Reasons to reject a text. -/
inductive Fault where
  | tabInIndentation
  | commentNotSeparated
  | contentAfterDocumentEnd
  | badIndentation
  | unexpectedCharacter (c : Char)
  | keyWithoutColon
  | keyExpected
  | directiveWithoutName
  | directiveNameNotAlphabetic
  | versionWithoutDot
  | versionTooLong
  | versionMissing
  | tagDirectiveNotSeparated
  | directiveNotEnded
  | tagWithoutMark
  | tagHandleNotClosed
  | tagPrefixCharacter
  | verbatimTagNotClosed
  | tagWithoutUri
  | tagNotSeparated
  | escapedOctetMissing
  | leadingOctet
  | trailingOctet
  | octetsOfNoCharacter
  | anchorWithoutName
  | tooDeep
  | entryInsideFlow
  | entryNotAllowed
  | anchorIndentation
  | entryTab
  | keyNotAllowed
  | keyNotSeparated
  | tabAfterKey
  | valueTab
  | valuePlacement
  | valueNotAllowed
  | blockIndentationZero
  | blockHeaderNotEnded
  | blockStartsWithTab
  | blockLineIndentation
  | quotedDocumentMark
  | quotedNotClosed
  | quotedIndentation
  | quotedTab
  | quotedTrailing
  | escapeUnknown
  | escapeNotHexadecimal
  | escapeOfNoCharacter
  | plainFlowIndentation
  | plainDash
  | plainTab
  deriving DecidableEq, Repr

namespace Fault

def message : Fault → String
  | tabInIndentation => "tabs disallowed within this context (block indentation)"
  | commentNotSeparated => "comments must be separated from other tokens by whitespace"
  | contentAfterDocumentEnd => "invalid content after document end marker"
  | badIndentation => "invalid indentation"
  | unexpectedCharacter c => "unexpected character: `" ++ String.singleton c ++ "'"
  | keyWithoutColon => "simple key expect ':'"
  | keyExpected => "simple key expected"
  | directiveWithoutName => "while scanning a directive, could not find expected directive name"
  | directiveNameNotAlphabetic =>
    "while scanning a directive, found unexpected non-alphabetical character"
  | versionWithoutDot =>
    "while scanning a YAML directive, did not find expected digit or '.' character"
  | versionTooLong => "while scanning a YAML directive, found extremely long version number"
  | versionMissing => "while scanning a YAML directive, did not find expected version number"
  | tagDirectiveNotSeparated =>
    "while scanning TAG, did not find expected whitespace or line break"
  | directiveNotEnded =>
    "while scanning a directive, did not find expected comment or line break"
  | tagWithoutMark => "while scanning a tag, did not find expected '!'"
  | tagHandleNotClosed => "while parsing a tag directive, did not find expected '!'"
  | tagPrefixCharacter => "invalid global tag character"
  | verbatimTagNotClosed => "while scanning a verbatim tag, did not find the expected '>'"
  | tagWithoutUri => "while parsing a tag, did not find expected tag URI"
  | tagNotSeparated => "while scanning a tag, did not find expected whitespace or line break"
  | escapedOctetMissing => "while parsing a tag, did not find URI escaped octet"
  | leadingOctet => "while parsing a tag, found an incorrect leading UTF-8 octet"
  | trailingOctet => "while parsing a tag, found an incorrect trailing UTF-8 octet"
  | octetsOfNoCharacter => "while parsing a tag, found an invalid UTF-8 codepoint"
  | anchorWithoutName =>
    "while scanning an anchor or alias, did not find expected alphabetic or numeric character"
  | tooDeep => "recursion limit exceeded"
  | entryInsideFlow => "\"-\" is only valid inside a block"
  | entryNotAllowed => "block sequence entries are not allowed in this context"
  | anchorIndentation => "invalid indentation for anchor"
  | entryTab => "'-' must be followed by a valid YAML whitespace"
  | keyNotAllowed => "mapping keys are not allowed in this context"
  | keyNotSeparated => "expected whitespace"
  | tabAfterKey => "tabs disallowed in this context"
  | valueTab => "':' must be followed by a valid YAML whitespace"
  | valuePlacement => "illegal placement of ':' indicator"
  | valueNotAllowed => "mapping values are not allowed in this context"
  | blockIndentationZero =>
    "while scanning a block scalar, found an indentation indicator equal to 0"
  | blockHeaderNotEnded =>
    "while scanning a block scalar, did not find expected comment or line break"
  | blockStartsWithTab => "a block scalar content cannot start with a tab"
  | blockLineIndentation => "wrongly indented line in block scalar"
  | quotedDocumentMark => "while scanning a quoted scalar, found unexpected document indicator"
  | quotedNotClosed => "while scanning a quoted scalar, found unexpected end of stream"
  | quotedIndentation => "invalid indentation in quoted scalar"
  | quotedTab => "tab cannot be used as indentation"
  | quotedTrailing => "invalid trailing content after double-quoted scalar"
  | escapeUnknown => "while parsing a quoted scalar, found unknown escape character"
  | escapeNotHexadecimal =>
    "while parsing a quoted scalar, did not find expected hexadecimal number"
  | escapeOfNoCharacter =>
    "while parsing a quoted scalar, found invalid Unicode character escape code"
  | plainFlowIndentation => "invalid indentation in flow construct"
  | plainDash => "plain scalar cannot start with '-' followed by ,[]\x7b\x7d"
  | plainTab => "while scanning a plain scalar, found a tab"

end Fault

/-- A reason to reject a text, and where it was noticed. -/
structure ScanError where
  fault : Fault
  mark : Mark
  deriving DecidableEq, Repr

end DocMark.Yaml
