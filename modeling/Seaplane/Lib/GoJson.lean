import Seaplane.Lib.Json

/-!
Go's decoding of JSON objects into structs.

The members are gone through in order. A member is decoded into the field whose name it has, upper
and lower case alike; other members are skipped. A null leaves a field as it was, and a value of
another type is an error.
-/

namespace Seaplane.Lib.GoJson

/-- The rune that stands for all runes that differ from it only in case; apart from ASCII these are
only the long s and the Kelvin sign, as far as names of ASCII letters go. -/
def foldRune (c : Char) : Char :=
  if c = 'ſ' then 'S' else if c = 'K' then 'K' else c.toUpper

/-- The member of this key is decoded into the field of this name. -/
def sameName (key field : String) : Bool := key.toList.map foldRune == field.toList.map foldRune

def decodeString (old : String) : Json → Option String
  | .null => some old
  | .str s => some s
  | _ => none

/-- Decoding into a struct, by what one of its members does. -/
def decodeStruct {α : Type} (member : α → String → Json → Option α) (old : α) : Json → Option α
  | .null => some old
  | .obj ms => ms.foldlM (fun a m => member a m.1 m.2) old
  | _ => none

/-- Decoding into a field that keeps the text of any value. -/
def decodeRaw (field : String) : Json → Option Json :=
  fun j =>
    (decodeStruct (fun old key v => some (if sameName key field then some v else old)) none j).join

end Seaplane.Lib.GoJson
