import Recalc.Csv.Options
import Recalc.Text.Blank
import Recalc.Text.Utf8

/-!
# Reading records of fields

A record ends with a line feed, a carriage return or both, and blank lines between records are
skipped. A field that starts with a quote goes on to the next single quote, a doubled one standing
for one quote; what follows that up to the delimiter belongs to the field as it is. A quote inside a
field that does not start with one is an ordinary byte.
-/

namespace Recalc.Csv

/-- Where a record starts: bytes and records before it, and the number of its line. -/
structure Position where
  byte : Nat
  line : Nat
  record : Nat
  deriving DecidableEq, Repr

/-- The first position of a file. -/
def Position.first : Position := ⟨0, 1, 0⟩

/-- A field of a record that is not UTF-8 from byte `index` of the field on. -/
structure Utf8Error where
  start : Position
  field : Nat
  index : Nat
  deriving DecidableEq, Repr

namespace Utf8Error

def message (e : Utf8Error) : String :=
  s!"CSV parse error: record {e.start.record} (line {e.start.line}, field: {e.field}, " ++
    s!"byte: {e.start.byte}): invalid utf-8: invalid UTF-8 in field {e.field} " ++
    s!"near byte index {e.index}"

end Utf8Error

/-- Where in a record a reader is. -/
inductive Place where
  /-- Before a record, where line ends are skipped. -/
  | recordStart
  /-- Behind a record that ended with a carriage return, where a line feed is skipped. -/
  | afterReturn
  | fieldStart
  | inField
  | inQuotes
  /-- Behind a quote that closes the field, unless another quote follows. -/
  | afterQuote
  deriving DecidableEq, Repr

abbrev Field := List UInt8

/-- The state of a reader. Bytes, fields and records are held last first. -/
structure Reading where
  place : Place
  field : Field
  fields : List Field
  records : List (Position × List Field)
  /-- Where the current record starts. -/
  start : Position
  byte : Nat
  line : Nat

namespace Reading

/-- Before the first byte, `skipped` bytes of a mark left out. -/
def initial (skipped : Nat) : Reading := ⟨.recordStart, [], [], [], Position.first, skipped, 1⟩

def copy (r : Reading) (b : UInt8) : Reading := { r with place := .inField, field := b :: r.field }

def copyQuoted (r : Reading) (b : UInt8) : Reading :=
  { r with place := .inQuotes, field := b :: r.field }

/-- Close the current field; another one follows. -/
def endField (r : Reading) : Reading :=
  { r with place := .fieldStart, field := [], fields := r.field.reverse :: r.fields }

/-- Close the current field and the record. -/
def endRecord (r : Reading) (next : Place) : Reading :=
  { r with
    place := next
    field := []
    fields := []
    records := (r.start, (r.field.reverse :: r.fields).reverse) :: r.records
    start := ⟨r.byte, r.line, r.start.record + 1⟩ }

/-- Whether a byte ends a line. -/
def isLineEnd (b : UInt8) : Bool := b = 13 || b = 10

/-- Take a byte of a field without quotes, or one behind its quotes. -/
def takeOpen (o : ReadOptions) (r : Reading) (b : UInt8) : Reading :=
  if b = o.delimiter then r.endField
  else if isLineEnd b then r.endRecord (if b = 13 then .afterReturn else .recordStart)
  else r.copy b

/-- Take the first byte of a field. -/
def takeFirst (o : ReadOptions) (r : Reading) (b : UInt8) : Reading :=
  if b = o.quote then { r with place := .inQuotes } else takeOpen o r b

/-- Take a byte before a record. -/
def takeBefore (o : ReadOptions) (r : Reading) (b : UInt8) : Reading :=
  if isLineEnd b then { r with place := .recordStart } else takeFirst o r b

/-- Count a byte and take it. -/
def step (o : ReadOptions) (r : Reading) (b : UInt8) : Reading :=
  let r := { r with byte := r.byte + 1, line := if b = 10 then r.line + 1 else r.line }
  match r.place with
  | .recordStart => takeBefore o r b
  | .afterReturn => if b = 10 then { r with place := .recordStart } else takeBefore o r b
  | .fieldStart => takeFirst o r b
  | .inField => takeOpen o r b
  | .inQuotes => if b = o.quote then { r with place := .afterQuote } else r.copyQuoted b
  | .afterQuote => if b = o.quote then r.copyQuoted b else takeOpen o r b

/-- The records, the last one closed by the end of the file. -/
def finish (r : Reading) : List (Position × List Field) :=
  match r.place with
  | .recordStart | .afterReturn => r.records.reverse
  | .fieldStart | .inField | .inQuotes | .afterQuote =>
      (r.endRecord .recordStart).records.reverse

end Reading

/-- Leave out a byte order mark. -/
def dropMark : List UInt8 → Nat × List UInt8
  | 0xEF :: 0xBB :: 0xBF :: rest => (3, rest)
  | bytes => (0, bytes)

/-- The records of a file with their positions. -/
def records (o : ReadOptions) (bytes : List UInt8) : List (Position × List Field) :=
  let (skipped, rest) := dropMark bytes
  (rest.foldl (Reading.step o) (Reading.initial skipped)).finish

/-- Leave out the first record. The next one is then reported at its place. -/
def dropHeader : List (Position × List Field) → List (Position × List Field)
  | (start, _) :: (_, fields) :: rest => (start, fields) :: rest
  | _ => []

/-- The blanks that are dropped before a field is read as text, where its other blanks are. -/
def isBlankByte (b : UInt8) : Bool := b = 32 || b = 9 || b = 10 || b = 12 || b = 13

def trimBytes (field : Field) : Field :=
  ((field.dropWhile isBlankByte).reverse.dropWhile isBlankByte).reverse

/-- The text of a field, or the number of its bytes that are. -/
def readField (o : ReadOptions) (field : Field) : Except Nat String :=
  let bytes := if o.trim then trimBytes field else field
  match Text.Utf8.decode? bytes with
  | some s => .ok (if o.trim then Text.trimmed s else s)
  | none => .error (Text.Utf8.validLength bytes)

/-- The texts of the fields from number `n` on of a record that starts at `start`. -/
def readFields (o : ReadOptions) (start : Position) (n : Nat) :
    List Field → Except Utf8Error (List String)
  | [] => .ok []
  | field :: rest =>
      match readField o field with
      | .error index => .error ⟨start, n, index⟩
      | .ok s => (readFields o start (n + 1) rest).map (s :: ·)

/-- Read rows of cells. The first field that is not text ends the reading. -/
def read (o : ReadOptions) (bytes : List UInt8) : Except Utf8Error (List (List String)) :=
  let all := records o bytes
  (if o.header then dropHeader all else all).mapM fun (start, fields) =>
    readFields o start 0 fields

end Recalc.Csv
