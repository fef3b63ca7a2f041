/-!
# Tokens and the windows over a token stream

A token has a kind and the position where it starts, line and column counted from zero.  Rules look
at the stream through *windows*: a token with the one before it and the two after it.
-/

namespace DocMark

/-- Kinds of tokens in a YAML stream. -/
inductive TokenKind where
  | streamStart
  | streamEnd
  /-- A line that starts with a percent sign. -/
  | directive
  /-- Three dashes. -/
  | documentStart
  /-- Three dots. -/
  | documentEnd
  | blockSequenceStart
  | blockMappingStart
  | blockEnd
  | flowSequenceStart
  | flowSequenceEnd
  | flowMappingStart
  | flowMappingEnd
  | blockEntry
  | flowEntry
  | key
  | value
  | alias
  | anchor
  | tag
  | scalar
  deriving DecidableEq, Repr, Inhabited

/-- A token and the position where it starts. -/
structure Token where
  kind : TokenKind
  line : Nat
  column : Nat
  deriving DecidableEq, Repr, Inhabited

/-- A token with its neighbours in the stream. -/
structure Window where
  prev : Option Token
  token : Token
  next : Option Token
  nextNext : Option Token
  deriving DecidableEq, Repr

namespace Window

/-- The kind of the token before, if there is one. -/
def prevKind (w : Window) : Option TokenKind := w.prev.map (·.kind)

end Window

/-- The windows over a stream that follows the token `prev`. -/
def windowsAfter (prev : Option Token) : List Token → List Window
  | [] => []
  | t :: ts => ⟨prev, t, ts[0]?, ts[1]?⟩ :: windowsAfter (some t) ts

/-- One window for each token, in stream order. -/
def windows (tokens : List Token) : List Window := windowsAfter none tokens

@[simp] theorem map_token_windowsAfter (prev : Option Token) (ts : List Token) :
    (windowsAfter prev ts).map (·.token) = ts := by
  induction ts generalizing prev with
  | nil => rfl
  | cons t ts ih => simp [windowsAfter, ih]

/-- The windows are those of the tokens, each once and in order. -/
@[simp] theorem map_token_windows (ts : List Token) : (windows ts).map (·.token) = ts :=
  map_token_windowsAfter none ts

end DocMark
