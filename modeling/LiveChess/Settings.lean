import LiveChess.Duration
import LiveChess.Text.Blank
import LiveChess.Text.Quoted

/-! # Settings

The settings of a server come from named variables; one that is not set keeps its default. The two
numbers have to be positive and fit 64 bits; blanks around them and one plus sign are allowed. -/

namespace LiveChess

/-- The settings of a server. -/
structure Settings where
  bindAddress : String
  mailboxCapacity : Nat
  logFilter : String
  storeTimeout : Duration
deriving DecidableEq, Repr

/-- A variable that holds no positive number. -/
structure SettingsFault where
  name : String
  value : String
deriving DecidableEq, Repr

/-- The wording of a bad variable. -/
def SettingsFault.message (e : SettingsFault) : String :=
  e.name ++ " must be a positive integer, got " ++ Text.quoted e.value

namespace Settings

/-- The settings when no variable is set. -/
def default : Settings := ⟨"127.0.0.1:8080", 256, "info", .ofMillis 5000⟩

/-- The number that decimal digits write. -/
def digitsToNat (cs : List Char) : Nat := cs.foldl (fun acc c => 10 * acc + (c.toNat - 48)) 0

/-- The number of a text of digits, a plus sign before them or not, that fits 64 bits. -/
def number? (cs : List Char) : Option Nat :=
  let digits :=
    match cs with
    | '+' :: r => r
    | cs => cs
  if digits ≠ [] ∧ digits.all Char.isDigit ∧ digitsToNat digits < Nat.pow 2 64 then
    some (digitsToNat digits)
  else
    none

/-- The positive number that a variable holds. -/
def positive (name value : String) : Except SettingsFault Nat :=
  match number? (Text.trim value.toList) with
  | some (n + 1) => .ok (n + 1)
  | _ => .error ⟨name, value⟩

/-- A number from a variable, or its default. -/
def numberOr (lookup : String → Option String) (name : String) (default : Nat) :
    Except SettingsFault Nat :=
  match lookup name with
  | none => .ok default
  | some value => positive name value

/-- The settings from a source of variables; of two bad numbers the mailbox capacity is told. -/
def ofLookup (lookup : String → Option String) : Except SettingsFault Settings :=
  match numberOr lookup "CHESS_MAILBOX_CAPACITY" default.mailboxCapacity with
  | .error e => .error e
  | .ok capacity =>
    match numberOr lookup "CHESS_STORE_TIMEOUT_MS" (default.storeTimeout.nanos / 1000000) with
    | .error e => .error e
    | .ok millis =>
      .ok ⟨(lookup "CHESS_BIND_ADDR").getD default.bindAddress, capacity,
        (lookup "CHESS_LOG").getD default.logFilter, .ofMillis millis⟩

end Settings
end LiveChess
