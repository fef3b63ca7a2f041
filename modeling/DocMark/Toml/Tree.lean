import DocMark.Toml.Text

/-!
# How the tables of a configuration file grow together

Tables come about in three ways (`TableOrigin`), and which additions a table still takes depends on
the way:

* a header or braces *write* a table, once;
* the header of a table inside it *implies* it; its own header may still follow;
* a dotted key *dots* it; only further dotted keys may add to it.

A key may be set once in each table.  Headers of the form `[[…]]` add a table to a list each time,
and all further headers that go through the list mean its last table.

Main definitions: `Table.insertPair` and `Table.insertSection`; both refuse what breaks these rules.
-/

namespace DocMark.Toml

/-- How a table came about. -/
inductive TableOrigin where
  | written
  | implied
  | dotted
  deriving DecidableEq, Repr

/-- A table whose entries have values of the type `ν`; `span` is where it was written, if it was. -/
structure Branch (ν : Type) where
  origin : TableOrigin
  span : Option Span
  entries : List (Key × ν)

/-- What a key stands for while a file is read. -/
inductive Node where
  /-- A finished value. -/
  | leaf (v : Located Value)
  | table (t : Branch Node)
  /-- The tables of a list, the last one written last. -/
  | tables (ts : List (Branch Node))

abbrev Table := Branch Node

namespace Table

def ofOrigin (origin : TableOrigin) : Table := ⟨origin, none, []⟩

/-- What a name stands for in the table. -/
def find? (t : Table) (name : String) : Option Node :=
  (t.entries.find? (·.1.value = name)).map (·.2)

/-- One more entry, at the end. -/
def append (t : Table) (key : Key) (n : Node) : Table :=
  { t with entries := t.entries ++ [(key, n)] }

/-- Another node in the place of a name that is in the table. -/
def replace (t : Table) (name : String) (n : Node) : Table :=
  { t with entries := t.entries.map fun e => if e.1.value = name then (e.1, n) else e }

/-- Without the entry of a name. -/
def erase (t : Table) (name : String) : Table :=
  { t with entries := t.entries.filter (·.1.value ≠ name) }

/-- One more entry, unless its name is taken. -/
def insertNew (t : Table) (key : Key) (n : Node) : Option Table :=
  if (t.find? key.value).isSome then none else some (t.append key n)

/-- Changes the table at the end of a path; tables that are missing on the way come about as
`origin` says. -/
def descend (origin : TableOrigin) (change : Table → Option Table) :
    List Key → Table → Option Table
  | [], t => change t
  | key :: path, t =>
    match t.find? key.value with
    | none => do
      let child ← descend origin change path (ofOrigin origin)
      return t.append key (.table child)
    | some (.table child) =>
      if origin = .dotted && child.origin = .written then none
      else do
        let child ← descend origin change path child
        return t.replace key.value (.table child)
    | some (.tables children) =>
      match children.getLast? with
      | none => none
      | some child => do
        let child ← descend origin change path child
        return t.replace key.value (.tables (children.dropLast ++ [child]))
    | some (.leaf _) => none

/-- A key, dotted or not, and its value. -/
structure Pair where
  path : List Key
  key : Key
  node : Node

/-- Sets a key.  A table that came about by dotted keys takes no others, and other tables take no
dotted ones at their end. -/
def insertPair (t : Table) (p : Pair) : Option Table :=
  descend .dotted (fun target =>
    if (target.origin = .dotted) = p.path.isEmpty then none
    else target.insertNew p.key p.node) p.path t

def insertPairs (t : Table) (ps : List Pair) : Option Table := ps.foldlM insertPair t

/-- A header and the pairs below it. -/
structure Section where
  /-- Two brackets on each side: the table is one of a list. -/
  listed : Bool
  path : List Key
  key : Key
  span : Span
  pairs : List Pair

/-- Adds the table of a header to the table in which it belongs. -/
def insertLast (s : Section) (parent : Table) : Option Table :=
  match s.listed, parent.find? s.key.value with
  | false, none => do
    let t ← insertPairs ⟨.written, some s.span, []⟩ s.pairs
    return parent.append s.key (.table t)
  | false, some (.table t) =>
    if t.origin = .implied then do
      let t ← insertPairs ⟨.written, some s.span, t.entries⟩ s.pairs
      return (parent.erase s.key.value).append s.key (.table t)
    else none
  | true, none => do
    let t ← insertPairs ⟨.written, some s.span, []⟩ s.pairs
    return parent.append s.key (.tables [t])
  | true, some (.tables ts) => do
    let t ← insertPairs ⟨.written, some s.span, []⟩ s.pairs
    return parent.replace s.key.value (.tables (ts ++ [t]))
  | _, _ => none

/-- Adds a header with all that stands below it. -/
def insertSection (t : Table) (s : Section) : Option Table :=
  descend .implied (insertLast s) s.path t

end Table

/-! ### The finished value -/

/-- From the start of the first span to the end of the last. -/
def coverSpans (spans : List Span) : Option Span :=
  match spans.head?, spans.getLast? with
  | some a, some b => some ⟨a.start, b.stop⟩
  | _, _ => none

mutual

/-- The value of a node that belongs to a key.  What was nowhere written itself is where its key
is. -/
def nodeValue (key : Span) : Node → Located Value
  | .leaf v => v
  | .table t => branchValue key t
  | .tables ts =>
    let items := branchValues key ts
    ⟨(coverSpans (items.map (·.span))).getD key, .sequence items⟩

def branchValue (key : Span) : Branch Node → Located Value
  | ⟨_, span, entries⟩ => ⟨span.getD key, .table (entryValues entries)⟩

def branchValues (key : Span) : List (Branch Node) → List (Located Value)
  | [] => []
  | t :: ts => branchValue key t :: branchValues key ts

def entryValues : List (Key × Node) → List (Entry Value)
  | [] => []
  | (key, n) :: rest => ⟨key, nodeValue key.span n⟩ :: entryValues rest

end

end DocMark.Toml
