import RecordFilter.Number.Integer

/-! # Places in a document

    A place is reached from the root of a document by steps: the key of an
    object or the index of an array.  It is written like a JSON pointer, each
    step behind a slash, with `~` and `/` in keys escaped; the root is written
    as a slash alone. -/

namespace RecordFilter.Filter

/-- One step into a document. -/
inductive Step where
  | key (name : String)
  | index (n : Nat)
deriving DecidableEq, Repr

namespace Step

/-- A character of a key in the text of a path. -/
def escapedChar (c : Char) : List Char :=
  if c = '~' then ['~', '0'] else if c = '/' then ['~', '1'] else [c]

/-- The characters of a step. -/
def chars : Step → List Char
  | .key name => name.toList.flatMap escapedChar
  | .index n => digitsOf n

/-- The text of a step. -/
def text (s : Step) : String := String.ofList s.chars

end Step

/-- A place in a document. -/
structure Path where
  steps : List Step := []
deriving DecidableEq, Repr

namespace Path

/-- The root of the document. -/
def root : Path := {}

/-- The place one step further. -/
def step (p : Path) (s : Step) : Path := ⟨p.steps ++ [s]⟩

/-- The place under a key. -/
def key (p : Path) (name : String) : Path := p.step (.key name)

/-- The place at an index. -/
def index (p : Path) (n : Nat) : Path := p.step (.index n)

/-- How many steps lead to the place. -/
def length (p : Path) : Nat := p.steps.length

/-- The place is the root. -/
def isRoot (p : Path) : Bool := p.steps.isEmpty

/-- The characters of a path other than the root. -/
def chars (p : Path) : List Char := p.steps.flatMap fun s => '/' :: s.chars

/-- The text of a path. -/
def text (p : Path) : String := if p.isRoot then "/" else String.ofList p.chars

end Path

end RecordFilter.Filter
