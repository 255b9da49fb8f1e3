import RecordFilter.Filter.Parse
import RecordFilter.Filter.RepeatedKey
import RecordFilter.Predicate.Basic

/-! # From filters to predicates

    A compiler knows a resolver and the entity whose records are filtered.  A
    leaf becomes a condition on its field: the resolver gives the type, the
    operator has to suit it, and the operand is coerced to it.  A combinator
    becomes the combination of the predicates of its children.

    There are three ways in: a filter tree, a JSON document, and the text of
    one.  A text has to keep the limit on its length and must not repeat a
    key; a document that is read otherwise keeps the last value of a repeated
    key. -/

namespace RecordFilter.Filter

open Json

/-- Reads the text of a filter document. -/
def parseText (limits : Limits) (text : String) : Except Error Node :=
  if limits.maxTextLength < text.utf8ByteSize then
    refuse (.textTooLong limits.maxTextLength) .root
  else
    match readDocument .usual text with
    | .error e => refuse (.malformed e) .root
    | .ok d =>
        match firstRepetition? d with
        | some e => .error e
        | none => parse limits d.collapse

/-- The condition of an operator without a value. -/
def nullCondition (field : String) (op : Operator) (path : Path) : Except Error Predicate :=
  match op with
  | .compare .eq => .ok (.absence false field)
  | .compare .ne => .ok (.absence true field)
  | .compare c => refuse (.nullOrdering (.compare c)) path
  | .member negated => refuse (.setExpected (.member negated)) path

/-- The condition of an operator with one value. -/
def scalarCondition (field : String) (type : FieldType) (op : Operator) (l : Literal)
    (path : Path) : Except Error Predicate :=
  match op with
  | .member negated => refuse (.setExpected (.member negated)) path
  | .compare c =>
      match type.coerce l with
      | .error e => refuse (.invalidValue field e) path
      | .ok v => .ok (.comparison c field v)

/-- The condition of an operator with a set of values. -/
def setCondition (field : String) (type : FieldType) (op : Operator) (ls : List Literal)
    (path : Path) : Except Error Predicate :=
  match op with
  | .compare c => refuse (.scalarExpected (.compare c)) path
  | .member negated =>
      if ls = [] then refuse (.emptySet (.member negated)) path
      else
        match type.coerceAll ls with
        | .error e => refuse (.invalidValue field e) path
        | .ok vs => .ok (.membership negated field vs)

/-- The condition of a leaf. -/
def leafCondition (resolver : Resolver) (entity field : String) (op : Operator)
    (operand : Operand) (path : Path) : Except Error Predicate :=
  match resolver entity field with
  | .error e => refuse (.unknownField e) path
  | .ok type =>
      if op.isOrdering && !type.isOrderable then refuse (.notOrderable op) path
      else
        match operand with
        | .null => nullCondition field op path
        | .scalar l => scalarCondition field type op l path
        | .set ls => setCondition field type op ls path

mutual

/-- The predicate of a filter tree of any depth. -/
def build (resolver : Resolver) (entity : String) : Node → Except Error Predicate
  | .combinator k children path =>
      match buildAll resolver entity children with
      | .error e => .error e
      | .ok ps =>
          match Predicate.combine k ps with
          | some p => .ok p
          | none => refuse (.noConditions k) path
  | .leaf field op operand path => leafCondition resolver entity field op operand path

/-- The predicates of filter trees, up to the first one that fails. -/
def buildAll (resolver : Resolver) (entity : String) :
    List Node → Except Error (List Predicate)
  | [] => .ok []
  | n :: rest =>
      match build resolver entity n with
      | .error e => .error e
      | .ok p => (buildAll resolver entity rest).map (p :: ·)

end

/-- A tree that is refused hides those behind it. -/
theorem buildAll_cons (resolver : Resolver) (entity : String) (n : Node) (rest : List Node) :
    buildAll resolver entity (n :: rest)
      = (build resolver entity n).bind fun p =>
          (buildAll resolver entity rest).map (p :: ·) := by
  rw [buildAll]
  cases build resolver entity n <;> rfl

/-- A combinator combines what its children become. -/
theorem build_combinator (resolver : Resolver) (entity : String) (k : Combinator)
    (children : List Node) (path : Path) :
    build resolver entity (.combinator k children path)
      = (buildAll resolver entity children).bind fun ps =>
          match Predicate.combine k ps with
          | some p => .ok p
          | none => refuse (.noConditions k) path := by
  rw [build]
  cases buildAll resolver entity children <;> rfl

/-- A compiler of filters for the records of an entity. -/
structure Compiler where
  resolver : Resolver
  entity : String
  limits : Limits := {}

namespace Compiler

/-- Compiles a filter tree that keeps the limit on its depth. -/
def compileNode (c : Compiler) (n : Node) : Except Error Predicate :=
  if c.limits.maxDepth < n.depth then refuse .tooDeep n.path
  else build c.resolver c.entity n

/-- Compiles a filter document. -/
def compileDocument (c : Compiler) (d : Document) : Except Error Predicate :=
  (parse c.limits d).bind c.compileNode

/-- Compiles the text of a filter document. -/
def compileText (c : Compiler) (text : String) : Except Error Predicate :=
  (parseText c.limits text).bind c.compileNode

end Compiler

end RecordFilter.Filter
