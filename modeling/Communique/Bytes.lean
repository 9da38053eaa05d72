import Mathlib.Data.List.Basic

/-!
# Byte strings and exceptions

* `Bytes` : a `std::string`, which the library uses as a container of arbitrary bytes;
* `Exn` : a thrown value, as the handlers of a `catch` can tell them apart.
-/

namespace Communique

/-- A `std::string`: any bytes, the zero byte included. -/
abbrev Bytes := List UInt8

/-- The bytes of a string literal of the source. -/
def ascii (s : String) : Bytes := s.toList.map (fun c => c.toNat.toUInt8)

/-- A thrown value: caught as a `std::exception`, with its `what()`, or only by `catch(...)`. -/
inductive Exn
  | exception (what : Bytes)
  | unknown
  deriving DecidableEq

/-- `std::runtime_error` with the given text. -/
def runtimeError (text : String) : Exn := .exception (ascii text)

end Communique
