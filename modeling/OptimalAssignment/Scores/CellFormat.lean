import OptimalAssignment.Scores.Kind
import OptimalAssignment.Text.Blank
import OptimalAssignment.Text.Digit

/-!
# Formats of cells

How a cell is stored, and the names of the formats: words, single letters, or a letter and a number
of bytes or characters, the letters after an optional mark of byte order.
-/

namespace OptimalAssignment

inductive CellType where
  | plain (kind : Kind)
  /-- A count of time units, of which the least is no time. -/
  | moment
  /-- Bytes without a meaning. -/
  | untyped (size : Nat)
  deriving DecidableEq, Repr

structure CellFormat where
  type : CellType
  bigEndian : Bool
  deriving DecidableEq, Repr

namespace CellType

/-- The number of bytes of a cell. -/
def size : CellType → Nat
  | .plain .bool => 1
  | .plain (.int bits) | .plain (.uint bits) | .plain (.real bits) | .plain (.complex bits) =>
      bits / 8
  | .plain (.text length) => 4 * length
  | .plain (.bytes length) => length
  | .plain .any => 8
  | .moment => 8
  | .untyped size => size

/-- Whether the length of the cells is still to be given. -/
def isUnsized : CellType → Bool
  | .plain (.text 0) | .plain (.bytes 0) | .untyped 0 => true
  | _ => false

def withLength (length : Nat) : CellType → CellType
  | .plain (.text _) => .plain (.text length)
  | .plain (.bytes _) => .plain (.bytes length)
  | .untyped _ => .untyped length
  | t => t

/-! ## Names -/

/-- Sizes and lengths are at most this. -/
def maxSize : Nat := Binary.pow2 31 - 1

def int (bits : Nat) : CellType := .plain (.int bits)
def uint (bits : Nat) : CellType := .plain (.uint bits)
def real (bits : Nat) : CellType := .plain (.real bits)
def complex (bits : Nat) : CellType := .plain (.complex bits)

/-- The formats that a character of their number stands for. -/
def numbered : List CellType :=
  [.plain .bool, int 8, uint 8, int 16, uint 16, int 32, uint 32, int 64, uint 64, int 64, uint 64,
    real 32, real 64, real 128, complex 64, complex 128, complex 256, .plain .any,
    .plain (.bytes 0), .plain (.text 0), .untyped 0, .moment, .moment, real 16]

def letters : List (Char × CellType) :=
  [('?', .plain .bool), ('b', int 8), ('B', uint 8), ('h', int 16), ('H', uint 16), ('i', int 32),
    ('I', uint 32), ('l', int 64), ('L', uint 64), ('q', int 64), ('Q', uint 64), ('p', int 64),
    ('P', uint 64), ('n', int 64), ('N', uint 64), ('e', real 16), ('f', real 32), ('d', real 64),
    ('g', real 128), ('F', complex 64), ('D', complex 128), ('G', complex 256), ('O', .plain .any),
    ('T', .plain .any), ('S', .plain (.bytes 0)), ('a', .plain (.bytes 0)), ('U', .plain (.text 0)),
    ('V', .untyped 0), ('M', .moment), ('m', .moment), ('c', .plain (.bytes 1)),
    ('\x1a', .plain (.bytes 1))]

def words : List (String × CellType) :=
  [("bool", .plain .bool), ("bool_", .plain .bool), ("int8", int 8), ("int16", int 16),
    ("int32", int 32), ("int64", int 64), ("uint8", uint 8), ("uint16", uint 16),
    ("uint32", uint 32), ("uint64", uint 64), ("byte", int 8), ("ubyte", uint 8),
    ("short", int 16), ("ushort", uint 16), ("intc", int 32), ("uintc", uint 32),
    ("long", int 64), ("ulong", uint 64), ("longlong", int 64), ("ulonglong", uint 64),
    ("int", int 64), ("int_", int 64), ("uint", uint 64), ("intp", int 64), ("uintp", uint 64),
    ("half", real 16), ("single", real 32), ("double", real 64), ("float", real 64),
    ("longdouble", real 128), ("float16", real 16), ("float32", real 32), ("float64", real 64),
    ("float128", real 128), ("csingle", complex 64), ("cdouble", complex 128),
    ("complex", complex 128), ("clongdouble", complex 256), ("complex64", complex 64),
    ("complex128", complex 128), ("complex256", complex 256), ("object", .plain .any),
    ("object_", .plain .any), ("bytes", .plain (.bytes 0)), ("bytes_", .plain (.bytes 0)),
    ("str", .plain (.text 0)), ("str_", .plain (.text 0)), ("unicode", .plain (.text 0)),
    ("void", .untyped 0)]

/-- A decimal after blanks and a plus sign; a minus sign only in front of zeros. -/
def size? (cs : List Char) : Option Nat :=
  let cs := cs.dropWhile Text.isPlainBlank
  let ds := match cs with
    | '+' :: ds | '-' :: ds => ds
    | ds => ds
  if ds.isEmpty || !ds.all Char.isDigit then none
  else
    let n := Text.ofDigits ds
    if maxSize < n || (cs.head? == some '-' && n != 0) then none else some n

/-- A letter for a family of formats and the size of one of them. -/
def ofSize? (letter : Char) (size : Nat) : Option CellType :=
  let among (sizes : List Nat) (t : CellType) := if sizes.contains size then some t else none
  match letter with
  | 'S' | 'a' => some (.plain (.bytes size))
  | 'U' => if size ≤ maxSize / 4 then some (.plain (.text size)) else none
  | 'V' => some (.untyped size)
  | 'b' => among [1] (.plain .bool)
  | 'i' => among [1, 2, 4, 8] (int (8 * size))
  | 'u' => among [1, 2, 4, 8] (uint (8 * size))
  | 'f' => among [2, 4, 8, 16] (real (8 * size))
  | 'c' => among [8, 16, 32] (complex (8 * size))
  | 'O' => among [4, 8] (.plain .any)
  | 'M' | 'm' => among [8] .moment
  | _ => none

end CellType

/-! ## Time units -/

namespace TimeUnit

/-- The units from the longest to the shortest. -/
def names : List String :=
  ["Y", "M", "W", "D", "h", "m", "s", "ms", "us", "ns", "ps", "fs", "as"]

/-- How many of some shorter units a unit counts as. -/
def parts (unit : String) : List Nat :=
  match unit with
  | "Y" => [12, 52, 365]
  | "M" => [4, 30, 720]
  | "W" => [7, 168, 10080]
  | "D" => [24, 1440, 86400]
  | "h" => [60, 3600]
  | "m" => [60, 60000]
  | "fs" => [1000]
  | "as" => []
  | _ => [1000, 1000000]

inductive Fault where
  | unknown
  /-- A part of no unit in particular. -/
  | generic
  /-- A part that is no multiple of a shorter unit. -/
  | uneven (divisor : Int) (text : String)
  deriving DecidableEq, Repr

/-- A number with an optional sign, and the rest. -/
def count? (cs : List Char) : Option (Int × List Char) :=
  let cs := cs.dropWhile Text.isPlainBlank
  let (negative, ds) := match cs with
    | '-' :: ds => (true, ds)
    | '+' :: ds => (false, ds)
    | ds => (false, ds)
  let digits := ds.takeWhile Char.isDigit
  if digits.isEmpty then none
  else
    let n : Int := Text.ofDigits digits
    some (if negative then -n else n, ds.dropWhile Char.isDigit)

def isName (unit : String) : Bool :=
  names.contains unit || unit == "generic" || unit == "μs"

/-- The part of a unit that one count stands for has to be whole. -/
def checkDivisor (unit : String) (divisor : Int) (text : List Char) : Except Fault Unit :=
  if divisor = 1 then .ok ()
  else if unit == "generic" then .error .generic
  else if (parts unit).any fun n => (n : Int).tmod divisor == 0 then .ok ()
  else .error (.uneven divisor (String.ofList text))

/-- A count, a unit and a divisor in square brackets, or nothing at all. -/
def check (text : List Char) : Except Fault Unit :=
  match text with
  | [] => .ok ()
  | '[' :: cs =>
      let inner := cs.takeWhile (· != ']')
      if inner.isEmpty || cs.drop inner.length != [']'] then .error .unknown
      else
        let rest := match count? inner with
          | some (_, rest) => rest
          | none => inner
        let unit := String.ofList (rest.takeWhile (· != '/'))
        if !isName unit then .error .unknown
        else
          match rest.dropWhile (· != '/') with
          | _ :: divisor =>
              match count? divisor with
              | some (n, []) => checkDivisor unit n text
              | _ => .error .unknown
          | [] => .ok ()
  | _ => .error .unknown

end TimeUnit

namespace CellFormat

inductive NameFault where
  | unknown
  | time (why : TimeUnit.Fault)
  deriving DecidableEq, Repr

def isOrderMark (c : Char) : Bool :=
  c == '<' || c == '>' || c == '=' || c == '|'

/-- The text behind the name of a format for times. -/
def timeUnit? (cs : List Char) : Option (List Char) :=
  let starts : List (List Char) :=
    [['M', '8'], ['m', '8'], "datetime64".toList, "timedelta64".toList]
  (starts.find? fun start => start.isPrefixOf cs).map fun start => cs.drop start.length

def symbol? (cs : List Char) : Option CellType :=
  match cs with
  | [c] => (CellType.letters.lookup c).orElse fun _ => CellType.numbered[c.toNat]?
  | letter :: size => (CellType.size? size).bind (CellType.ofSize? letter)
  | [] => none

/-- A symbol behind an optional mark of byte order, or else a word. -/
def ofName (name : List Char) : Except NameFault CellFormat :=
  let (bigEndian, cs) := match name with
    | c :: cs => if isOrderMark c then (c == '>', cs) else (false, c :: cs)
    | [] => (false, [])
  match timeUnit? cs with
  | some unit => (TimeUnit.check unit).mapError .time |>.map fun _ => ⟨.moment, bigEndian⟩
  | none =>
      match symbol? cs, CellType.words.lookup (String.ofList name) with
      | some t, _ => .ok ⟨t, bigEndian⟩
      | none, some t => .ok ⟨t, false⟩
      | none, none => .error .unknown

end CellFormat

/-- The kind with a name; nothing for the formats whose cells are no values. -/
def Kind.ofName? (name : String) : Option Kind :=
  match CellFormat.ofName name.toList with
  | .ok ⟨.plain kind, _⟩ => some kind
  | _ => none

end OptimalAssignment
