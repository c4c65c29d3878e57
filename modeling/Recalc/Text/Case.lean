import Recalc.Text.CaseTable

/-!
# Capital and small letters

Full case mapping of a text. A letter may become several characters, and a capital sigma becomes
the final form `ς` where it ends a word.
-/

namespace Recalc.Text

/-- The code point that the first run holding `code` maps it to. -/
def shiftedBy (runs : List CaseRun) (code : Nat) : Option Nat :=
  (runs.find? fun run =>
    run.first ≤ code && code ≤ run.last && (code - run.first) % run.stride == 0).map
      fun run => ((code : Int) + run.shift).toNat

def isCased (c : Char) : Bool := inRanges casedRanges c

def isCaseIgnorable (c : Char) : Bool := inRanges caseIgnorableRanges c

/-- The capital form of one character. -/
def capitalOf (c : Char) : List Char :=
  if c.toNat < 0x80 then [c.toUpper]
  else match longCapitals.lookup c.toNat with
    | some codes => codes.map Char.ofNat
    | none => [((shiftedBy capitalRuns c.toNat).map Char.ofNat).getD c]

/-- The small form of one character, whatever stands around it. -/
def smallOf (c : Char) : List Char :=
  if c.toNat < 0x80 then [c.toLower]
  else if c = 'İ' then ['i', Char.ofNat 0x307]
  else [((shiftedBy smallRuns c.toNat).map Char.ofNat).getD c]

/-- Whether the first character that does not count as part of a word's marks is a letter. -/
def meetsLetter (s : List Char) : Bool :=
  match s.dropWhile isCaseIgnorable with
  | [] => false
  | c :: _ => isCased c

/-- Small forms of a text, where `before` holds the characters already passed, nearest first. -/
def smallFrom (before : List Char) : List Char → List Char
  | [] => []
  | c :: rest =>
      (if c = 'Σ' then [if meetsLetter before && !meetsLetter rest then 'ς' else 'σ']
        else smallOf c) ++ smallFrom (c :: before) rest

def capitals (s : List Char) : List Char := s.flatMap capitalOf

def smalls (s : List Char) : List Char := smallFrom [] s

/-- A string in capital letters. -/
def toCapitals (s : String) : String := String.ofList (capitals s.toList)

/-- A string in small letters. -/
def toSmalls (s : String) : String := String.ofList (smalls s.toList)

@[simp] theorem capitals_nil : capitals [] = [] := rfl

@[simp] theorem capitals_append (s t : List Char) :
    capitals (s ++ t) = capitals s ++ capitals t := by
  simp [capitals]

@[simp] theorem toList_toCapitals (s : String) : (toCapitals s).toList = capitals s.toList := by
  simp [toCapitals]

theorem capitalOf_ascii {c : Char} (h : c.toNat < 0x80) : capitalOf c = [c.toUpper] := by
  simp [capitalOf, h]

end Recalc.Text
