import OptimalAssignment.Yaml.Moment

/-!
# Plain scalars

Which scalars without quotes look like a truth value, a whole number, a real or nothing.  Read as a
real is also what lacks a point or the sign of its exponent, as long as underscores only separate
its digits.  What is written as a text keeps clear of days and of the two marks that stand for
themselves.
-/

namespace OptimalAssignment.Yaml

open Text

/-! ## Classes of scalars -/

def truths : List (String × Bool) :=
  ["yes", "Yes", "YES", "true", "True", "TRUE", "on", "On", "ON"].map (·, true) ++
    ["no", "No", "NO", "false", "False", "FALSE", "off", "Off", "OFF"].map (·, false)

def nulls : List String :=
  ["", "~", "null", "Null", "NULL"]

def isBinaryDigit (c : Char) : Bool := c == '0' || c == '1' || c == '_'
def isOctalDigit (c : Char) : Bool := ('0' ≤ c && c ≤ '7') || c == '_'
def isGroupDigit (c : Char) : Bool := c.isDigit || c == '_'

def isHexDigit (c : Char) : Bool :=
  c.isDigit || ('a' ≤ c && c ≤ 'f') || ('A' ≤ c && c ≤ 'F') || c == '_'

def unsigned : List Char → List Char
  | '+' :: cs | '-' :: cs => cs
  | cs => cs

/-- One or more characters of a class. -/
def isRow (p : Char → Bool) (cs : List Char) : Bool :=
  !cs.isEmpty && cs.all p

/-- A digit, then digits and underscores. -/
def isGrouped : List Char → Bool
  | c :: cs => c.isDigit && cs.all isGroupDigit
  | [] => false

/-- Digits with single underscores between them. -/
def isSeparated (cs : List Char) : Bool :=
  (cs.splitOn '_').all (isRow Char.isDigit)

/-- A number below sixty, with or without a leading zero. -/
def isSixtieth : List Char → Bool
  | [c] => c.isDigit
  | [c, d] => '0' ≤ c && c ≤ '5' && d.isDigit
  | _ => false

def splitAtColons (cs : List Char) : List (List Char) :=
  cs.splitOn ':'

def isBinary : List Char → Bool
  | '0' :: 'b' :: cs => isRow isBinaryDigit cs
  | _ => false

def isOctal : List Char → Bool
  | '0' :: cs => isRow isOctalDigit cs
  | _ => false

def isHexadecimal : List Char → Bool
  | '0' :: 'x' :: cs => isRow isHexDigit cs
  | _ => false

def startsNonzero : List Char → Bool
  | c :: _ => c.isDigit && c != '0'
  | [] => false

def isDecimal (cs : List Char) : Bool :=
  cs == ['0'] || (startsNonzero cs && isGrouped cs)

/-- Numbers to the base of sixty, the places apart by colons. -/
def isSexagesimal (cs : List Char) : Bool :=
  match splitAtColons cs with
  | first :: second :: rest =>
      startsNonzero first && isGrouped first && (second :: rest).all isSixtieth
  | _ => false

def isWhole (cs : List Char) : Bool :=
  let ds := unsigned cs
  isBinary ds || isOctal ds || isDecimal ds || isHexadecimal ds || isSexagesimal ds

/-- An exponent; its sign may be needed. -/
def isExponent (signNeeded : Bool) : List Char → Bool
  | c :: cs =>
      (c == 'e' || c == 'E') &&
        match cs with
        | '+' :: ds | '-' :: ds => isRow Char.isDigit ds
        | ds => !signNeeded && isRow Char.isDigit ds
  | [] => false

def isInfinite (cs : List Char) : Bool :=
  ["inf", "Inf", "INF"].any fun w => unsigned cs == '.' :: w.toList

def isUndefined (cs : List Char) : Bool :=
  ["nan", "NaN", "NAN"].any fun w => cs == '.' :: w.toList

/-- Digits, a point, digits and perhaps an exponent. -/
def isPointed (signNeeded : Bool) (isDigits : List Char → Bool) (cs : List Char) : Bool :=
  let ds := unsigned cs
  match ds.dropWhile isGroupDigit with
  | '.' :: rest =>
      let tail := rest.dropWhile isGroupDigit
      isDigits (ds.takeWhile isGroupDigit) && (tail.isEmpty || isExponent signNeeded tail)
  | _ => false

/-- A point, digits and perhaps an exponent. -/
def isFraction : List Char → Bool
  | '.' :: rest =>
      let tail := rest.dropWhile isGroupDigit
      isGrouped (rest.takeWhile isGroupDigit) && (tail.isEmpty || isExponent true tail)
  | _ => false

/-- Digits and an exponent. -/
def isScaled (cs : List Char) : Bool :=
  let ds := unsigned cs
  isSeparated (ds.takeWhile isGroupDigit) && isExponent false (ds.dropWhile isGroupDigit)

def isSexagesimalReal (cs : List Char) : Bool :=
  match splitAtColons (unsigned cs) with
  | first :: second :: rest =>
      let last := (second :: rest).getLastD []
      isGrouped first && (second :: rest).dropLast.all isSixtieth &&
        isSixtieth (last.takeWhile (· != '.')) &&
        match last.dropWhile (· != '.') with
        | '.' :: tail => tail.all isGroupDigit
        | _ => false
  | _ => false

/-- The reals whose exponent, if there is one, has a sign and a point before it. -/
def isStrictReal (cs : List Char) : Bool :=
  isPointed true isGrouped cs || isFraction cs || isSexagesimalReal cs || isInfinite cs ||
    isUndefined cs

def isReal (cs : List Char) : Bool :=
  isStrictReal cs || isPointed false isSeparated cs || isScaled cs

/-! ## Texts that may be written without quotes -/

/-- The marks of a merge and of a default value, which have no value of their own. -/
def isMark (s : String) : Bool :=
  s == "=" || s == "<<"

/-- Whether a scalar without quotes would be taken for a text. -/
def isPlainText (s : String) : Bool :=
  let cs := s.toList
  !(isMark s || (truths.lookup s).isSome || nulls.contains s || isWhole cs || isStrictReal cs ||
    Moment.isImplicit cs)

end OptimalAssignment.Yaml
