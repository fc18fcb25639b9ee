import Spotlight.Text.Rune

/-!
# JSON values

* `Json.Value` — a JSON value. Numbers keep the text they were written in, objects the order of
  their members and repeated keys;
* `Json.readString?`, `Json.readNumber?` — a string or number at the head of a text;
* `Json.parse` — the value a whole text stands for.

Strings come out as valid UTF-8: malformed bytes and lone surrogates read as U+FFFD. Values nest at
most ten thousand deep.
-/

namespace Spotlight.Json

open Bytes

/-- A JSON value. -/
inductive Value
  /-- The value `null`. -/
  | null
  /-- A truth value. -/
  | bool (b : Bool)
  /-- A number, as it was written. -/
  | number (literal : Bytes)
  /-- A string, with its escapes resolved. -/
  | string (text : Bytes)
  /-- A list of values. -/
  | array (items : List Value)
  /-- The members of an object, in order and with repetitions. -/
  | object (members : List (Bytes × Value))
deriving Inhabited

/-- Is `b` white space between the parts of a value? -/
def isGap (b : UInt8) : Bool := b == space || b == tab || b == lf || b == cr

/-- Past white space. -/
def skipGap (s : Bytes) : Bytes := s.dropWhile isGap

/-! ### Strings -/

/-- A piece of a string: a byte, or a code unit that was written as an escape. -/
inductive Piece
  /-- A byte of the text. -/
  | byte (b : UInt8)
  /-- A UTF-16 code unit. -/
  | unit (n : Nat)
deriving DecidableEq, Repr

/-- The byte a one-letter escape stands for. -/
def escapeByte? (b : UInt8) : Option UInt8 :=
  if b = quote || b = backslash || b = slash then some b
  else if b = 0x62 then some 0x08
  else if b = 0x66 then some 0x0c
  else if b = 0x6e then some lf
  else if b = 0x72 then some cr
  else if b = 0x74 then some tab
  else none

/-- The code unit four hexadecimal digits stand for. -/
def codeUnit? (a b c d : UInt8) : Option Nat := do
  return (((← hexValue? a) * 16 + (← hexValue? b)) * 16 + (← hexValue? c)) * 16 + (← hexValue? d)

/-- The pieces of a string up to its closing quote, and what follows that. -/
def pieces? : Bytes → Option (List Piece × Bytes)
  | [] => none
  | b :: s =>
    if b = quote then some ([], s)
    else if b < 0x20 then none
    else if b = backslash then
      match s with
      | 0x75 :: x :: y :: z :: w :: s =>
        match codeUnit? x y z w with
        | some n => (pieces? s).map fun (ps, rest) => (.unit n :: ps, rest)
        | none => none
      | e :: s =>
        match escapeByte? e with
        | some c => (pieces? s).map fun (ps, rest) => (.byte c :: ps, rest)
        | none => none
      | [] => none
    else (pieces? s).map fun (ps, rest) => (.byte b :: ps, rest)

/-- Is the code unit the first half of a pair? -/
def isHigh (n : Nat) : Bool := 0xd800 ≤ n && n < 0xdc00

/-- Is the code unit the second half of a pair? -/
def isLow (n : Nat) : Bool := 0xdc00 ≤ n && n < 0xe000

/-- The bytes of a string. Two halves of a pair make one character; a lone half becomes U+FFFD. -/
def assemble : List Piece → Bytes
  | [] => []
  | .byte b :: ps => b :: assemble ps
  | [.unit n] => Rune.encode n
  | .unit n :: .byte b :: ps => Rune.encode n ++ b :: assemble ps
  | .unit n :: .unit m :: ps =>
    if isHigh n && isLow m then
      Rune.encode (0x10000 + (n - 0xd800) * 1024 + (m - 0xdc00)) ++ assemble ps
    else Rune.encode n ++ assemble (.unit m :: ps)

/-- The string whose opening quote stands in front of the text, and what follows it. -/
def readString? (s : Bytes) : Option (Bytes × Bytes) :=
  (pieces? s).map fun (ps, rest) => (Rune.repaired (assemble ps), rest)

/-! ### Numbers -/

/-- A run of at least one digit. -/
def digits? (s : Bytes) : Option (Bytes × Bytes) :=
  match s.takeWhile isDigit with
  | [] => none
  | ds => some (ds, s.dropWhile isDigit)

/-- The digits before the decimal point, which start with a zero only if that is all. -/
def whole? : Bytes → Option (Bytes × Bytes)
  | 0x30 :: s => some ([0x30], s)
  | s => digits? s

/-- The decimal point and the digits after it, where there is one. -/
def fraction? : Bytes → Option (Bytes × Bytes)
  | 0x2e :: s => (digits? s).map fun (ds, rest) => (0x2e :: ds, rest)
  | s => some ([], s)

/-- The exponent, where there is one. -/
def exponent? : Bytes → Option (Bytes × Bytes)
  | [] => some ([], [])
  | e :: s =>
    if e = 0x65 || e = 0x45 then
      match s with
      | [] => none
      | c :: s' =>
        if c = 0x2b || c = 0x2d then (digits? s').map fun (ds, rest) => (e :: c :: ds, rest)
        else (digits? s).map fun (ds, rest) => (e :: ds, rest)
    else some ([], e :: s)

/-- The minus sign, where there is one. -/
def sign : Bytes → Bytes × Bytes
  | 0x2d :: s => ([0x2d], s)
  | s => ([], s)

/-- The number at the head of a text, and what follows it. -/
def readNumber? (s : Bytes) : Option (Bytes × Bytes) := do
  let (minus, s) := sign s
  let (ds, s) ← whole? s
  let (frac, s) ← fraction? s
  let (exp, s) ← exponent? s
  return (minus ++ ds ++ frac ++ exp, s)

/-- Is the whole text one number? -/
def isNumber (s : Bytes) : Bool :=
  match readNumber? s with
  | some (_, []) => true
  | _ => false

/-! ### Values -/

/-- The greatest depth to which values nest. -/
def maxDepth : Nat := 10000

mutual

/-- The value at the head of a text, which may nest `depth` deep, and what follows it. -/
def readValue? : (fuel depth : Nat) → Bytes → Option (Value × Bytes)
  | 0, _, _ => none
  | fuel + 1, depth, s =>
    match skipGap s with
    | [] => none
    | b :: s =>
      if b = quote then (readString? s).map fun (t, rest) => (.string t, rest)
      else if b = lbracket then
        match depth, skipGap s with
        | 0, _ => none
        | _ + 1, 0x5d :: rest => some (.array [], rest)
        | depth + 1, _ =>
          (readItems? fuel depth s).map fun (vs, rest) => (.array vs, rest)
      else if b = lbrace then
        match depth, skipGap s with
        | 0, _ => none
        | _ + 1, 0x7d :: rest => some (.object [], rest)
        | depth + 1, _ =>
          (readMembers? fuel depth s).map fun (ms, rest) => (.object ms, rest)
      else if b = 0x6e then (strip? "ull" s).map fun rest => (.null, rest)
      else if b = 0x74 then (strip? "rue" s).map fun rest => (.bool true, rest)
      else if b = 0x66 then (strip? "alse" s).map fun rest => (.bool false, rest)
      else (readNumber? (b :: s)).map fun (n, rest) => (.number n, rest)

/-- The values up to the bracket that closes an array. -/
def readItems? : (fuel depth : Nat) → Bytes → Option (List Value × Bytes)
  | 0, _, _ => none
  | fuel + 1, depth, s =>
    match readValue? fuel depth s with
    | none => none
    | some (v, s) =>
      match skipGap s with
      | 0x5d :: rest => some ([v], rest)
      | 0x2c :: rest => (readItems? fuel depth rest).map fun (vs, rest) => (v :: vs, rest)
      | _ => none

/-- The members up to the brace that closes an object. -/
def readMembers? : (fuel depth : Nat) → Bytes → Option (List (Bytes × Value) × Bytes)
  | 0, _, _ => none
  | fuel + 1, depth, s =>
    match skipGap s with
    | 0x22 :: s =>
      match readString? s with
      | none => none
      | some (key, s) =>
        match skipGap s with
        | 0x3a :: s =>
          match readValue? fuel depth s with
          | none => none
          | some (v, s) =>
            match skipGap s with
            | 0x7d :: rest => some ([(key, v)], rest)
            | 0x2c :: rest =>
              (readMembers? fuel depth rest).map fun (ms, rest) => ((key, v) :: ms, rest)
            | _ => none
        | _ => none
    | _ => none

end

/-- The value and what follows, behind the key of a member. -/
theorem readMembers?_of_key (fuel depth : Nat) {s s₁ s₂ s₃ key : Bytes} (hquote : skipGap s = quote :: s₁)
    (hkey : readString? s₁ = some (key, s₂)) (hcolon : skipGap s₂ = 0x3a :: s₃) :
    readMembers? (fuel + 1) depth s =
      match readValue? fuel depth s₃ with
      | none => none
      | some (v, s) =>
        match skipGap s with
        | 0x7d :: rest => some ([(key, v)], rest)
        | 0x2c :: rest => (readMembers? fuel depth rest).map fun (ms, rest) => ((key, v) :: ms, rest)
        | _ => none := by
  rw [readMembers?]
  simp only [hquote, hkey, hcolon]

/-- The value a whole text stands for. Every step of the reader takes at least a byte, so twice the
length of the text is enough of them. -/
def parse (s : Bytes) : Option Value :=
  match readValue? (2 * s.length + 2) maxDepth s with
  | some (v, rest) => if (skipGap rest).isEmpty then some v else none
  | none => none

end Spotlight.Json
