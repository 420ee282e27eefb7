import Mathlib.Data.List.AList

/-!
# Names and errors

The identifiers the Server and the Client key their tables with, and the error
value of fallible operations.  A `HashMap` of the source is an association list
with distinct keys; nothing in the model depends on an iteration order.
-/

namespace Runewarp

/-- `std::collections::HashMap`. -/
abbrev HashMap (κ ν : Type) : Type := AList fun _ : κ => ν

/-- `ClientIdentity`: the SHA-256 fingerprint of a Client's public key. -/
structure ClientIdentity where
  bytes : List UInt8
  length_eq : bytes.length = 32
deriving DecidableEq

/-- Characters as the source writes them in byte strings. -/
def ascii (text : List Char) : List UInt8 := text.map Char.toUInt8

/-- One lower-case hexadecimal digit. -/
def hexDigit (n : Nat) : Char := Nat.digitChar (n % 16)

/-- `Display` of a Client identity: two lower-case hexadecimal digits a byte. -/
def ClientIdentity.display (c : ClientIdentity) : String :=
  String.ofList (c.bytes.flatMap fun b => [hexDigit (b.toNat / 16), hexDigit b.toNat])

/-- `PublicHostname`, normalized. -/
structure PublicHostname where
  asStr : String
deriving DecidableEq

/-- `ServerHostname`, normalized. -/
structure ServerHostname where
  asStr : String
deriving DecidableEq

/-- `TunnelId`: the Control-owned name of a Managed Tunnel. -/
structure TunnelId where
  asStr : String
deriving DecidableEq

/-- The `io::ErrorKind`s the modelled code constructs. -/
inductive IoErrorKind where
  | invalidInput
  | other
deriving DecidableEq

/-- `io::Error` with its message. -/
structure IoError where
  kind : IoErrorKind
  message : String
deriving DecidableEq

/-- `io::Error::new(io::ErrorKind::InvalidInput, message)`. -/
def IoError.invalidInput (message : String) : IoError := ⟨.invalidInput, message⟩

/-- `io::Error::other(message)`. -/
def IoError.otherError (message : String) : IoError := ⟨.other, message⟩

/-- What `map` succeeds with comes from a success. -/
theorem map_ok {ε α β : Type} {f : α → β} {x : Except ε α} {b : β} (h : x.map f = .ok b) :
    ∃ a, x = .ok a ∧ f a = b := by
  cases x with
  | error e => cases h
  | ok a => exact ⟨a, rfl, by cases h; rfl⟩

end Runewarp
