import Spotlight.Text.Bytes

/-!
# Stripping terminal escapes

Failure messages are coloured for a terminal. The escape sequences are removed by a machine that
reads one byte at a time and says of each byte whether it is kept.

* `Terminal.State` — where in a sequence the machine is;
* `Terminal.State.step` — is the byte kept, and where does it lead?
* `Terminal.strip` — the text without its escape sequences.
-/

namespace Spotlight.Terminal

/-- Where in an escape sequence the machine is. -/
inductive State
  /-- Outside of all sequences. -/
  | ground
  /-- Inside a character of several bytes, `left` of which are still to come. -/
  | character (left : Nat)
  /-- After the escape byte. -/
  | escape
  /-- After the intermediate bytes of a short sequence. -/
  | escapeIntermediate
  /-- At the start of a control sequence. -/
  | controlEntry
  /-- In the parameters of a control sequence. -/
  | controlParam
  /-- After the intermediate bytes of a control sequence. -/
  | controlIntermediate
  /-- At the start of a device control string. -/
  | deviceEntry
  /-- In the parameters of a device control string. -/
  | deviceParam
  /-- After the intermediate bytes of a device control string. -/
  | deviceIntermediate
  /-- In the data of a device control string. -/
  | deviceData
  /-- In an operating system command. -/
  | command
  /-- In a string that is only passed on: start of string, privacy message, application command. -/
  | passed
deriving DecidableEq, Repr

namespace State

/-- Is `b` a control byte that is carried out in the middle of a sequence? -/
def isControl (b : UInt8) : Bool := b ≤ 0x17 || b == 0x19 || (0x1c ≤ b && b ≤ 0x1f)

/-- Is `b` from `first` to `last`? -/
def within (first last b : UInt8) : Bool := first ≤ b && b ≤ last

/-- What a byte does wherever it comes: cancel a sequence, start one or start a character. All other
bytes are dropped and lead to the ground. -/
def anywhere (b : UInt8) : Bool × State :=
  if b = 0x18 || b = 0x1a || within 0x80 0x8f b || within 0x91 0x97 b || b = 0x99 || b = 0x9a ||
      b = 0x9c then (true, ground)
  else if b = 0x1b then (false, escape)
  else if b = 0x90 then (false, deviceEntry)
  else if b = 0x98 || b = 0x9e || b = 0x9f then (false, passed)
  else if b = 0x9b then (false, controlEntry)
  else if b = 0x9d then (false, command)
  else if within 0xc2 0xdf b then (true, character 1)
  else if within 0xe0 0xef b then (true, character 2)
  else if within 0xf0 0xf4 b then (true, character 3)
  else (false, ground)

/-- After the escape byte. -/
def stepEscape (b : UInt8) : Bool × State :=
  if isControl b then (true, escape)
  else if b = 0x7f then (false, escape)
  else if within 0x20 0x2f b then (false, escapeIntermediate)
  else if b = 0x58 || b = 0x5e || b = 0x5f then (false, passed)
  else if b = 0x50 then (false, deviceEntry)
  else if b = 0x5b then (false, controlEntry)
  else if b = 0x5d then (false, command)
  else if within 0x30 0x7e b then (false, ground)
  else anywhere b

/-- In a control sequence, in the state `s`; `param` follows a parameter byte. -/
def stepControl (s param : State) (b : UInt8) : Bool × State :=
  if isControl b then (true, s)
  else if b = 0x7f then (false, s)
  else if within 0x40 0x7e b then (false, ground)
  else if within 0x20 0x2f b then (false, controlIntermediate)
  else if within 0x30 0x3f b then (false, param)
  else anywhere b

/-- At the start of a device control string. -/
def stepDeviceEntry (b : UInt8) : Bool × State :=
  if within 0x08 0x0d b || b = 0x1b || within 0x40 0x7e b then (false, deviceData)
  else if isControl b || b = 0x7f then (false, deviceEntry)
  else if within 0x20 0x2f b then (false, deviceIntermediate)
  else if within 0x30 0x3f b then (false, deviceParam)
  else anywhere b

/-- The state after the byte `b`, and whether the byte is kept. -/
def step : State → UInt8 → Bool × State
  | ground, b => if isControl b || within 0x20 0x7f b then (true, ground) else anywhere b
  | character left, _ => (true, if left ≤ 1 then ground else character (left - 1))
  | escape, b => stepEscape b
  | escapeIntermediate, b =>
    if isControl b then (true, escapeIntermediate)
    else if within 0x20 0x2f b || b = 0x7f then (false, escapeIntermediate)
    else if within 0x30 0x7e b then (false, ground)
    else anywhere b
  | controlEntry, b => stepControl controlEntry controlParam b
  | controlParam, b => stepControl controlParam controlParam b
  | controlIntermediate, b => stepControl controlIntermediate ground b
  | deviceEntry, b => stepDeviceEntry b
  | deviceParam, b =>
    if isControl b || within 0x30 0x3f b || b = 0x7f then (false, deviceParam)
    else if within 0x20 0x2f b then (false, deviceIntermediate)
    else if within 0x40 0x7e b then (false, deviceData)
    else anywhere b
  | deviceIntermediate, b =>
    if isControl b || within 0x20 0x2f b || b = 0x7f then (false, deviceIntermediate)
    else if within 0x30 0x7e b then (false, deviceData)
    else anywhere b
  | deviceData, b =>
    if b = 0x1b then (false, escape)
    else if b = 0x9c || b = 0x18 || b = 0x1a then (false, ground)
    else (false, deviceData)
  | command, b =>
    if b = 0x1b then (false, escape)
    else if b = 0x07 || b = 0x9c || b = 0x18 || b = 0x1a then (false, ground)
    else (false, command)
  | passed, b =>
    if isControl b || within 0x20 0x7f b then (false, passed)
    else if b = 0x9c || b = 0x18 || b = 0x1a then (false, ground)
    else anywhere b

end State

/-- What is left of a text that is entered in state `s`. -/
def stripFrom : State → Bytes → Bytes
  | _, [] => []
  | s, b :: rest =>
    match s.step b with
    | (true, s) => b :: stripFrom s rest
    | (false, s) => stripFrom s rest

/-- The text without its escape sequences. -/
def strip (s : Bytes) : Bytes := stripFrom .ground s

end Spotlight.Terminal
