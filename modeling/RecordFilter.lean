import RecordFilter.Calendar.Date
import RecordFilter.Calendar.DateTime
import RecordFilter.Calendar.Format
import RecordFilter.Catalog.Bundle
import RecordFilter.Catalog.Entity
import RecordFilter.Catalog.Form
import RecordFilter.Coercion
import RecordFilter.Condition
import RecordFilter.FieldType
import RecordFilter.Filter.Compile
import RecordFilter.Filter.Error
import RecordFilter.Filter.Limits
import RecordFilter.Filter.Node
import RecordFilter.Filter.Operator
import RecordFilter.Filter.Parse
import RecordFilter.Filter.Path
import RecordFilter.Filter.RepeatedKey
import RecordFilter.Json.Document
import RecordFilter.Json.Fault
import RecordFilter.Json.Form
import RecordFilter.Json.Numeral
import RecordFilter.Json.Reader
import RecordFilter.Json.Reading
import RecordFilter.Literal
import RecordFilter.Number.Decimal
import RecordFilter.Number.DecimalText
import RecordFilter.Number.Digits
import RecordFilter.Number.Double
import RecordFilter.Number.DoubleText
import RecordFilter.Number.Integer
import RecordFilter.Number.Shortest
import RecordFilter.Predicate.Basic
import RecordFilter.Predicate.Display
import RecordFilter.Predicate.Evaluate
import RecordFilter.Predicate.Form
import RecordFilter.Proofs.Building
import RecordFilter.Proofs.Combine
import RecordFilter.Proofs.Grammar
import RecordFilter.Proofs.NormalForm
import RecordFilter.Record
import RecordFilter.Text.Blank
import RecordFilter.Text.Quoted
import RecordFilter.Text.Unprintable
import RecordFilter.Value.Basic
import RecordFilter.Value.Form
import RecordFilter.Value.Order
import RecordFilter.Proofs.Violations
import RecordFilter.Proofs.Parsing
import RecordFilter.Proofs.Meaning
import RecordFilter.Proofs.RepeatedKeys
import RecordFilter.Proofs.Objections
import RecordFilter.Proofs.ParsedTrees
import RecordFilter.Proofs.ErrorKinds
import RecordFilter.Proofs.Nesting
import RecordFilter.Proofs.EntryPoints
import RecordFilter.Proofs.PrintedText
import RecordFilter.Proofs.WrittenForms
import RecordFilter.Proofs.ReadForms
import RecordFilter.Proofs.WrittenDates
import RecordFilter.Proofs.WrittenNumbers
import RecordFilter.Proofs.WrittenValues
import RecordFilter.Proofs.RoundTrip
import RecordFilter.Proofs.Alignment
import RecordFilter.Proofs.ExactNumbers
import RecordFilter.Proofs.Restatement
import RecordFilter.Proofs.IntegerTexts
import RecordFilter.Proofs.Widening
import RecordFilter.Proofs.Rereading
import RecordFilter.Proofs.HandOver
import RecordFilter.Proofs.LooserLimits
import RecordFilter.Proofs.DepthShield
import RecordFilter.Proofs.Places
import RecordFilter.Proofs.SchemaGrowth
import RecordFilter.Proofs.Containers
import RecordFilter.Proofs.OperatorLaws
import RecordFilter.Proofs.ReferencedFields
import RecordFilter.Proofs.Wrapping
import RecordFilter.Proofs.Rewriting
import RecordFilter.Proofs.Spelling
import RecordFilter.Proofs.ShortestDigits
import RecordFilter.Proofs.ShownValues
import RecordFilter.Proofs.Flattening
import RecordFilter.Proofs.ShownConditions
import RecordFilter.Proofs.SchemaTexts
import RecordFilter.Proofs.Pointers
import RecordFilter.Proofs.DateSpellings
import RecordFilter.Proofs.CanonicalDates
import RecordFilter.Proofs.DeclaredFields
