import DocMark.Text.Utf8

/-!
# File name patterns

A glob is a sequence of pieces, each of which takes some bytes from the front of a path.  A piece
may be able to take different numbers of bytes, so the meaning of a piece, and of a sequence of
pieces, is the list of all that may be left (`rests`); a path matches if nothing may be left.

Paths are matched byte by byte: `?` stands for one byte, and a class for the bytes of its
characters.  Only the pieces that stand for whole directories take slashes.
-/

namespace DocMark

inductive GlobPiece where
  | literal (c : Char)
  /-- Any byte but a slash. -/
  | anyByte
  /-- Any number of bytes but slashes. -/
  | star
  /-- Any directories before a name, also none. -/
  | leadingDirectories
  /-- A slash, and any directories before a name, also none. -/
  | innerDirectories
  /-- A slash and all that follows. -/
  | everythingBelow
  /-- A byte in one of the ranges, or in none. -/
  | byteIn (negated : Bool) (ranges : List (UInt8 × UInt8))
  /-- One of several sequences; takes nothing if there are none. -/
  | oneOf (alternatives : List (List GlobPiece))

namespace GlobPiece

/-- A text without a prefix it has. -/
def without? (start s : Bytes) : Option Bytes :=
  if start.isPrefixOf s then some (s.drop start.length) else none

/-- All ends of a text, from the longest. -/
def ends : Bytes → List Bytes
  | [] => [[]]
  | c :: cs => (c :: cs) :: ends cs

/-- What follows each slash. -/
def afterSlashes : Bytes → List Bytes
  | [] => []
  | c :: cs => if c = slash then cs :: afterSlashes cs else afterSlashes cs

/-- The ends that begin in the first stretch without slashes or right behind it. -/
def endsBeforeSlash : Bytes → List Bytes
  | [] => [[]]
  | c :: cs => if c = slash then [c :: cs] else (c :: cs) :: endsBeforeSlash cs

/-- What is left when one byte with the property `p` is taken. -/
def takeByte (p : UInt8 → Bool) : Bytes → List Bytes
  | [] => []
  | c :: cs => if p c then [cs] else []

/-- What is left when a slash is taken and then what `next` allows. -/
def takeSlash (next : Bytes → List Bytes) : Bytes → List Bytes
  | [] => []
  | c :: cs => if c = slash then next cs else []

def inRanges (ranges : List (UInt8 × UInt8)) (b : UInt8) : Bool :=
  ranges.any fun (low, high) => low ≤ b && b ≤ high

mutual

/-- What may be left when a piece has taken its part. -/
def rests : GlobPiece → Bytes → List Bytes
  | literal c, s => (without? (String.utf8EncodeChar c) s).toList
  | anyByte, s => takeByte (· ≠ slash) s
  | star, s => endsBeforeSlash s
  | leadingDirectories, s => s :: afterSlashes s
  | innerDirectories, s => takeSlash (fun r => r :: afterSlashes r) s
  | everythingBelow, s => takeSlash ends s
  | byteIn negated ranges, s => takeByte (fun b => inRanges ranges b != negated) s
  | oneOf [], s => [s]
  | oneOf (a :: as), s => restsAll a s ++ restsAny as s

/-- What may be left after a sequence of pieces. -/
def restsAll : List GlobPiece → Bytes → List Bytes
  | [], s => [s]
  | p :: ps, s => (rests p s).flatMap (restsAll ps)

/-- What may be left after any of several sequences. -/
def restsAny : List (List GlobPiece) → Bytes → List Bytes
  | [], _ => []
  | a :: as, s => restsAll a s ++ restsAny as s

end

end GlobPiece

/-- A file name pattern. -/
structure Glob where
  pieces : List GlobPiece

namespace Glob

/-- The whole path matches.  The pattern of two stars alone matches every path. -/
def isMatch (g : Glob) (path : Bytes) : Bool :=
  match g.pieces with
  | [.leadingDirectories] => true
  | pieces => (GlobPiece.restsAll pieces path).any (·.isEmpty)

end Glob

end DocMark
