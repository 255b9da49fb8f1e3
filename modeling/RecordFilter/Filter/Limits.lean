import RecordFilter.Json.Form

/-! # Limits

    What a filter document may ask for at most.  In JSON a limit that is not
    given keeps its usual value. -/

namespace RecordFilter.Filter

open Json

/-- The limits on filter documents. -/
structure Limits where
  /-- How many combinators may be nested in each other. -/
  maxDepth : Nat := 64
  /-- How many values a set may have. -/
  maxSetLength : Nat := 1024
  /-- How many bytes a text may have. -/
  maxTextLength : Nat := 65536
deriving DecidableEq, Repr

namespace Limits

/-- The usual limits. -/
def usual : Limits := {}

/-- The limits that have been read. -/
structure Given where
  depth : Option Nat := none
  setLength : Option Nat := none
  textLength : Option Nat := none

/-- The limits that were given, the usual ones in place of the others. -/
def Given.limits (g : Given) : Limits where
  maxDepth := g.depth.getD usual.maxDepth
  maxSetLength := g.setLength.getD usual.maxSetLength
  maxTextLength := g.textLength.getD usual.maxTextLength

/-- Reads one limit. -/
def limitForm : Form Nat := fun room r =>
  (integerForm ⟨0, 2 ^ 64 - 1⟩ "usize" room r).map Int.toNat

/-- Reads limits that are written as an array. -/
def readArray (room : Room) (items : List Reading) (ending : Ending) :
    Except Json.Error (Given × List Reading) := do
  match items with
  | [] =>
      ofFault ending.read
      pure ({}, [])
  | depth :: items =>
      let depth ← limitForm room depth
      match items with
      | [] =>
          ofFault ending.read
          pure ({ depth := some depth }, [])
      | setLength :: items =>
          let setLength ← limitForm room setLength
          match items with
          | [] =>
              ofFault ending.read
              pure ({ depth := some depth, setLength := some setLength }, [])
          | textLength :: items =>
              let textLength ← limitForm room textLength
              pure (⟨some depth, some setLength, some textLength⟩, items)

/-- How limits are read. -/
def record : RecordForm Given Limits where
  expected := "struct CompilerConfig"
  start := {}
  field room g key r :=
    if key = "max_depth" then
      (readOnce key limitForm room g.depth r).map fun n => { g with depth := n }
    else if key = "max_set_len" then
      (readOnce key limitForm room g.setLength r).map fun n => { g with setLength := n }
    else if key = "max_input_len" then
      (readOnce key limitForm room g.textLength r).map fun n => { g with textLength := n }
    else (passOver r).map fun _ => g
  finish g := .ok g.limits
  items room items ending :=
    (readArray room items ending).map fun (g, rest) => (g.limits, rest)

/-- Reads the text of limits. -/
def ofText (text : String) : Except Json.Error Limits :=
  (readText text).decode fun r => record.read .usual r

end Limits

end RecordFilter.Filter
