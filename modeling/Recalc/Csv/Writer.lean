import Recalc.Csv.Options
import Recalc.Text.Utf8
import Recalc.Value

/-!
# Writing records of fields

A field is put in quotes when it holds a delimiter, a quote or a line end, and quotes inside are
doubled. A record that would have no bytes is written as an empty field in quotes, so that it is not
taken for a blank line.
-/

namespace Recalc.Csv

/-- Whether a byte can only stand inside quotes. -/
def WriteOptions.needsQuotes (o : WriteOptions) (b : UInt8) : Bool :=
  b = o.delimiter || b = o.quote || b = 13 || b = 10

/-- The bytes of a field with quotes doubled. -/
def WriteOptions.doubled (o : WriteOptions) (field : List UInt8) : List UInt8 :=
  field.flatMap fun b => if b = o.quote then [b, b] else [b]

def WriteOptions.writeField (o : WriteOptions) (field : List UInt8) : List UInt8 :=
  if field.any o.needsQuotes then o.quote :: o.doubled field ++ [o.quote] else field

/-- The fields of a record with delimiters between them. -/
def WriteOptions.writeFields (o : WriteOptions) : List (List UInt8) → List UInt8
  | [] => []
  | [field] => o.writeField field
  | field :: rest => o.writeField field ++ o.delimiter :: o.writeFields rest

def WriteOptions.writeRecord (o : WriteOptions) (fields : List (List UInt8)) : List UInt8 :=
  let body := o.writeFields fields
  (if body.isEmpty then [o.quote, o.quote] else body) ++ o.terminator.bytes

/-- The bytes of rows of texts. -/
def writeTexts (o : WriteOptions) (rows : List (List String)) : List UInt8 :=
  rows.flatMap fun row => o.writeRecord (row.map Text.Utf8.encode)

/-- The bytes of rows of values as they are shown. -/
def writeBytes (o : WriteOptions) (rows : List (List Value)) : List UInt8 :=
  writeTexts o (rows.map fun row => row.map Value.display)

/-- The text of rows of values. Delimiters and quotes that are not ASCII may not survive. -/
def write (o : WriteOptions) (rows : List (List Value)) : String :=
  Text.Utf8.lossy (writeBytes o rows)

end Recalc.Csv
