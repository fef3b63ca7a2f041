import DocMark.Problem
import DocMark.Text.Lines
import DocMark.Token.Step

/-!
# The token stream of a text

The marks of the scanner tell where it was when it knew a token; the stream tells where the token
*starts*, in lines that end at line feeds.  `place` makes one of the other:

* the stream ends where the text ends;
* an entry of a block sequence starts at its dash, which lies before the mark with nothing but white
  space between;
* a block mapping starts where its first key starts;
* all other tokens start at their mark.

A dash may stand behind a comment or behind the end of the text as far as marks go; then the mark
itself has to do (`Layout.dashBefore?`).

Main statement: `dashBefore?_ofText` says what is looked for in terms of the text alone.
-/

namespace DocMark.Yaml

/-- The line of a mark counted from zero, and its column. -/
def Mark.position (m : Mark) : Text.Position := ⟨m.line - 1, m.column⟩

/-- The positions in a text. -/
structure Layout where
  /-- The characters with their positions. -/
  chars : Array (Char × Text.Position)
  /-- Where the text ends. -/
  stop : Text.Position

namespace Layout

def ofText (text : List Char) : Layout := ⟨(Text.placed text).toArray, Text.endOf text⟩

/-- The nearest dash before the offset, if only white space lies between. -/
def dashBefore? (l : Layout) : Nat → Option Text.Position
  | 0 => none
  | n + 1 =>
    match l.chars[n]? with
    | none => l.dashBefore? n
    | some (c, p) =>
      if Text.isSpace c then l.dashBefore? n else if c = '-' then some p else none

theorem dashBefore?_ofText (text : List Char) (offset : Nat) :
    (ofText text).dashBefore? offset =
      match (text.take offset).reverse.dropWhile Text.isSpace with
      | '-' :: before => some (Text.endOf before.reverse)
      | _ => none := by
  induction offset with
  | zero => rfl
  | succ n ih =>
    have hc : (ofText text).chars[n]? = text[n]?.map fun c => (c, Text.positionAt text n) := by
      simp [ofText, Text.getElem?_placed]
    rw [dashBefore?, hc]
    cases h : text[n]? with
    | none =>
      rw [List.getElem?_eq_none_iff] at h
      have ht : text.take (n + 1) = text.take n := by
        rw [List.take_of_length_le (by omega), List.take_of_length_le h]
      rw [ht]
      exact ih
    | some c =>
      rw [List.take_add_one, h]
      by_cases hs : Text.isSpace c
      · simpa [hs] using ih
      · by_cases hd : c = '-'
        · subst hd; simp [hs, Text.positionAt]
        · simp [hs, hd]

end Layout

/-- Where a token starts, as far as it can be told from the token alone. -/
def Scanned.position (l : Layout) (t : Scanned) : Text.Position :=
  match t.kind with
  | .streamEnd => l.stop
  | .blockEntry => (l.dashBefore? t.mark.index).getD t.mark.position
  | _ => t.mark.position

/-- The token at its own position. -/
def Scanned.token (l : Layout) (t : Scanned) : Token :=
  let p := t.position l
  ⟨t.kind, p.line, p.column⟩

/-- Moves a block mapping to the key that follows it. -/
def meetKey (mapping next : Token) : Token :=
  if mapping.kind = .blockMappingStart && next.kind = .key then
    ⟨mapping.kind, next.line, next.column⟩
  else mapping

/-- The tokens, each where it starts in a text with these positions. -/
def placeIn (l : Layout) : List Scanned → List Token
  | [] => []
  | t :: ts =>
    match placeIn l ts with
    | [] => [t.token l]
    | next :: rest => meetKey (t.token l) next :: next :: rest

/-- The tokens of a text, each where it starts. -/
def place (text : List Char) (tokens : List Scanned) : List Token :=
  placeIn (Layout.ofText text) tokens

/-- What a fault says about a file without a name. -/
def ScanError.parseError (e : ScanError) : ParseError :=
  ⟨⟨""⟩, e.fault.message, e.mark.line, e.mark.column + 1⟩

end DocMark.Yaml

namespace DocMark

/-- The token stream of a text, from the start to the end of the stream. -/
def tokenize (text : List Char) : Except ParseError (List Token) :=
  match Yaml.scan text with
  | .ok tokens => .ok (Yaml.place text tokens)
  | .error e => .error e.parseError

end DocMark
